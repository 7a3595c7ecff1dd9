import WorkerLink.Proofs.Child.Link

/-!
# Where a link stands

What is true of a link while its handle is free, with a send, or done with one.
A chunk is out only while a send waits for its answer, and a send that leaves an
answer behind gives the writer up. `Stands` says so by the stage of the send, and
each step of a send leads from one stage to another.
-/

namespace WorkerLink

variable {α : Type}

/-- The queues between the parent and the writer, as long as they are there. -/
def Child.queues (c : Child) : Option (List Bytes × List (Except Fault Nat)) :=
  c.writer.map fun w => (w.queued, w.acks)

theorem Child.queues_eq_some {c : Child} {w : Writer} (h : c.writer = some w) :
    c.queues = some (w.queued, w.acks) := by
  simp only [queues, h, Option.map_some]

theorem Child.queues_eq_none {c : Child} : c.queues = none ↔ c.writer = none := by
  simp only [queues, Option.map_eq_none_iff]

namespace Link

def Idle (queues : Option (List Bytes × List (Except Fault Nat))) (hand : Option (Nat × Bytes))
    (queuedFor acksFor : List Nat) : Prop :=
  ∀ q, queues = some q →
    q = ([], []) ∧ hand = none ∧ queuedFor = [] ∧ acksFor = []

/-- One chunk of a send is out: queued, or in the hand of the writer, or answered for. -/
inductive Outstanding (queues : Option (List Bytes × List (Except Fault Nat)))
    (hand : Option (Nat × Bytes)) (queuedFor acksFor : List Nat) (name : Nat) (chunk : Bytes) :
    Prop
  | queued : queues = some ([chunk], []) → hand = none → queuedFor = [name] → acksFor = [] →
      Outstanding queues hand queuedFor acksFor name chunk
  | taken : queues = some ([], []) → hand = some (name, chunk) → queuedFor = [] →
      acksFor = [] → Outstanding queues hand queuedFor acksFor name chunk
  | answered {result : Except Fault Nat} : queues = some ([], [result]) → hand = none →
      queuedFor = [] → acksFor = [name] → (∀ n, result = .ok n → n = chunk.length) →
      Outstanding queues hand queuedFor acksFor name chunk

/-- Bytes that a send has left behind which failed. -/
def Leftover (l : Ledger α) (tail : Bytes) : Prop :=
  tail = [] ∨ ∃ name payload, (name, payload) ∈ l.acquired ∧ l.Failed name ∧
    tail <+: Frame.encode payload

/-- The bytes handed over, of which the last ones, `mine`, belong to the send inside the handle. -/
def Holds (handed accepted : Bytes) (l : Ledger α) (mine : Bytes) : Prop :=
  ∃ tail, handed = accepted ++ tail ++ mine ∧ Leftover l tail ∧ (tail = [] ∨ mine = [])

/-- All that a send has handed over is counted, and `rest` of its frame is left. -/
def Between (j : Link α) (framed : Bytes) (rest : List Bytes) (written : Nat) : Prop :=
  Idle j.child.queues j.hand j.queuedFor j.acksFor ∧ (∀ chunk ∈ rest, chunk ≠ []) ∧
    ∃ mine, mine ++ rest.flatten = framed ∧ written = mine.length ∧
      Holds j.handed j.accepted j.ledger mine

/-- A chunk of a send is out, and `rest` of its frame is left. -/
def Waits (j : Link α) (name : Nat) (framed : Bytes) (rest : List Bytes) (written : Nat) : Prop :=
  (∀ chunk ∈ rest, chunk ≠ []) ∧
    ∃ mine chunk, Outstanding j.child.queues j.hand j.queuedFor j.acksFor name chunk ∧
      chunk ≠ [] ∧ mine ++ chunk ++ rest.flatten = framed ∧ written = mine.length ∧
      j.handed = j.accepted ++ mine ++ chunk

/-- What is true of a link with a send at its handle, by the stage of the send. -/
def Works (j : Link α) (name : Nat) (framed : Bytes) : Child.Sending → Prop
  | .next rest written => j.Between framed rest written
  | .handing chunk rest written => j.Between framed (chunk :: rest) written
  | .awaiting rest written | .lapsed rest written => j.Waits name framed rest written

/-- What is true of a link, by where its handle is. -/
def Stands (j : Link α) : Desk → Prop
  | .free => Idle j.child.queues j.hand j.queuedFor j.acksFor ∧
      Holds j.handed j.accepted j.ledger []
  | .busy name framed stage =>
      ⟨name, .sending framed⟩ ∈ j.ledger.calls ∧ j.Works name framed stage
  | .answered name framed answer => ⟨name, .sending framed⟩ ∈ j.ledger.calls ∧
      Idle j.child.queues j.hand j.queuedFor j.acksFor ∧
      ∃ mine, mine <+: framed ∧ Holds j.handed j.accepted j.ledger mine ∧
        (Call.sendResult framed answer = .ok () → mine = framed) ∧
        (Call.sendResult framed answer ≠ .ok () → j.Shut)

/-- What a change of the ledger alone has to leave in place. -/
structure Keeps (l l' : Ledger α) : Prop where
  accepted : l'.accepted.map Frame.encode = l.accepted.map Frame.encode
  acquired : l.acquired ⊆ l'.acquired
  failed : ∀ name, l'.Failed name ↔ l.Failed name
  sending : ∀ name framed, ⟨name, .sending framed⟩ ∈ l.calls → ⟨name, .sending framed⟩ ∈ l'.calls
  cancelSend : l.connection.cancelSend = true → l'.connection.cancelSend = true
  history : l.history.length ≤ l'.history.length

theorem Leftover.later {l l' : Ledger α} {tail : Bytes} (h : Leftover l tail)
    (acquired : l.acquired ⊆ l'.acquired) (failed : ∀ name, l.Failed name → l'.Failed name) :
    Leftover l' tail := by
  refine h.imp_right ?_
  rintro ⟨name, payload, hmem, hfailed, hpre⟩
  exact ⟨name, payload, acquired hmem, failed name hfailed, hpre⟩

theorem Keeps.holds {l l' : Ledger α} (k : Keeps l l') {handed accepted mine : Bytes}
    (h : Holds handed accepted l mine) : Holds handed accepted l' mine := by
  obtain ⟨tail, hhanded, hleft, hone⟩ := h
  exact ⟨tail, hhanded, hleft.later k.acquired fun name => (k.failed name).mpr, hone⟩

theorem keeps_spawn (l : Ledger α) : Keeps l l.spawn where
  accepted := rfl
  acquired _ hmem := hmem
  failed _ := Iff.rfl
  sending _ _ hmem := by
    rw [Ledger.calls_spawn]
    exact hmem
  cancelSend h := h
  history := Nat.le_refl _

section Ledger

variable {j : Link α} {l : Ledger α}

theorem Between.ledger {framed : Bytes} {rest : List Bytes} {written : Nat}
    (h : j.Between framed rest written) (k : Keeps j.ledger l) :
    Link.Between { j with ledger := l } framed rest written := by
  obtain ⟨hidle, hrest, mine, hsplit, hwritten, hm⟩ := h
  refine ⟨hidle, hrest, mine, hsplit, hwritten, ?_⟩
  rw [accepted, k.accepted]
  exact k.holds hm

theorem Waits.ledger {name : Nat} {framed : Bytes} {rest : List Bytes} {written : Nat}
    (h : j.Waits name framed rest written) (k : Keeps j.ledger l) :
    Link.Waits { j with ledger := l } name framed rest written := by
  obtain ⟨hrest, mine, chunk, hout, hchunk, hsplit, hwritten, hhanded⟩ := h
  refine ⟨hrest, mine, chunk, hout, hchunk, hsplit, hwritten, ?_⟩
  rw [accepted, k.accepted]
  exact hhanded

/-- The link stands with another ledger as it did. -/
theorem Stands.ledger {desk : Desk} (h : j.Stands desk) (k : Keeps j.ledger l) :
    Link.Stands { j with ledger := l } desk := by
  cases desk with
  | free =>
    obtain ⟨hidle, hm⟩ := h
    refine ⟨hidle, ?_⟩
    rw [accepted, k.accepted]
    exact k.holds hm
  | busy name framed stage =>
    obtain ⟨hcall, hworks⟩ := h
    refine ⟨k.sending _ _ hcall, ?_⟩
    cases stage with
    | next rest written => exact Between.ledger hworks k
    | handing chunk rest written => exact Between.ledger hworks k
    | awaiting rest written => exact Waits.ledger hworks k
    | lapsed rest written => exact Waits.ledger hworks k
  | answered name framed answer =>
    obtain ⟨hcall, hidle, mine, hpre, hm, hok, hbad⟩ := h
    refine ⟨k.sending _ _ hcall, hidle, mine, hpre, ?_, hok,
      fun hne => (hbad hne).imp_left k.cancelSend⟩
    rw [accepted, k.accepted]
    exact k.holds hm

end Ledger

section Child

variable {j : Link α} {c : Child}

theorem Between.child {framed : Bytes} {rest : List Bytes} {written : Nat}
    (h : j.Between framed rest written) (queues : c.queues = j.child.queues) :
    Link.Between { j with child := c } framed rest written := by
  obtain ⟨hidle, hmore⟩ := h
  rw [← queues] at hidle
  exact ⟨hidle, hmore⟩

theorem Waits.child {name : Nat} {framed : Bytes} {rest : List Bytes} {written : Nat}
    (h : j.Waits name framed rest written) (queues : c.queues = j.child.queues) :
    Link.Waits { j with child := c } name framed rest written := by
  obtain ⟨hrest, mine, chunk, hout, hmore⟩ := h
  rw [← queues] at hout
  exact ⟨hrest, mine, chunk, hout, hmore⟩

theorem Shut.child (h : j.Shut) (queues : c.queues = j.child.queues) :
    Link.Shut { j with child := c } := by
  refine h.imp_right fun hnone => Child.queues_eq_none.mp ?_
  rw [queues]
  exact Child.queues_eq_none.mpr hnone

/-- The link stands with another child as it did, if the queues are the same. -/
theorem Stands.child {desk : Desk} (h : j.Stands desk) (queues : c.queues = j.child.queues) :
    Link.Stands { j with child := c } desk := by
  cases desk with
  | free =>
    obtain ⟨hidle, hm⟩ := h
    rw [← queues] at hidle
    exact ⟨hidle, hm⟩
  | busy name framed stage =>
    obtain ⟨hcall, hworks⟩ := h
    refine ⟨hcall, ?_⟩
    cases stage with
    | next rest written => exact Between.child hworks queues
    | handing chunk rest written => exact Between.child hworks queues
    | awaiting rest written => exact Waits.child hworks queues
    | lapsed rest written => exact Waits.child hworks queues
  | answered name framed answer =>
    obtain ⟨hcall, hidle, mine, hpre, hm, hok, hbad⟩ := h
    rw [← queues] at hidle
    exact ⟨hcall, hidle, mine, hpre, hm, hok, fun hne => (hbad hne).child queues⟩

end Child

section Out

variable {j : Link α} {c : Child} {hand : Option (Nat × Bytes)} {queuedFor acksFor : List Nat}
  {desk : Desk}

theorem Waits.moved {name : Nat} {framed : Bytes} {rest : List Bytes} {written : Nat}
    (h : j.Waits name framed rest written)
    (outstanding : ∀ name chunk,
      Outstanding j.child.queues j.hand j.queuedFor j.acksFor name chunk →
        Outstanding c.queues hand queuedFor acksFor name chunk) :
    Link.Waits { j with child := c, hand, queuedFor, acksFor } name framed rest written := by
  obtain ⟨hrest, mine, chunk, hout, hmore⟩ := h
  exact ⟨hrest, mine, chunk, outstanding _ _ hout, hmore⟩

/-- The writer does something about the chunk that is out. A chunk is out only while a send waits
for its answer. -/
theorem Stands.moved (h : j.Stands desk)
    (out : ¬ Idle j.child.queues j.hand j.queuedFor j.acksFor)
    (outstanding : ∀ name chunk,
      Outstanding j.child.queues j.hand j.queuedFor j.acksFor name chunk →
        Outstanding c.queues hand queuedFor acksFor name chunk) :
    Link.Stands { j with child := c, hand, queuedFor, acksFor } desk := by
  cases desk with
  | free => exact False.elim (out h.1)
  | answered name framed answer => exact False.elim (out h.2.1)
  | busy name framed stage =>
    obtain ⟨hcall, hworks⟩ := h
    refine ⟨hcall, ?_⟩
    cases stage with
    | next rest written => exact False.elim (out hworks.1)
    | handing chunk rest written => exact False.elim (out hworks.1)
    | awaiting rest written => exact Waits.moved hworks outstanding
    | lapsed rest written => exact Waits.moved hworks outstanding

theorem idle_of_none (hand : Option (Nat × Bytes)) (queuedFor acksFor : List Nat) :
    Idle none hand queuedFor acksFor := by
  intro q hq
  cases hq

theorem Waits.there {name : Nat} {framed : Bytes} {rest : List Bytes} {written : Nat}
    (h : j.Waits name framed rest written) : j.child.writer ≠ none := by
  obtain ⟨_, mine, chunk, hout, _⟩ := h
  intro hnone
  rw [Child.queues_eq_none.mpr hnone] at hout
  cases hout <;> contradiction

/-- The writer is given up while no chunk is out. -/
theorem Stands.gone (h : j.Stands desk) (gone : c.writer = none)
    (apart : ∀ name framed stage rest written, desk = .busy name framed stage →
      ¬ j.Waits name framed rest written) :
    Link.Stands { j with child := c, hand, queuedFor, acksFor } desk := by
  have hidle : Idle c.queues hand queuedFor acksFor := by
    rw [Child.queues_eq_none.mpr gone]
    exact idle_of_none _ _ _
  cases desk with
  | free => exact ⟨hidle, h.2⟩
  | answered name framed answer =>
    obtain ⟨hcall, _, mine, hpre, hm, hok, _⟩ := h
    exact ⟨hcall, hidle, mine, hpre, hm, hok, fun _ => .inr gone⟩
  | busy name framed stage =>
    obtain ⟨hcall, hworks⟩ := h
    refine ⟨hcall, ?_⟩
    cases stage with
    | next rest written => exact ⟨hidle, hworks.2⟩
    | handing chunk rest written => exact ⟨hidle, hworks.2⟩
    | awaiting rest written => exact absurd hworks (apart _ _ _ _ _ rfl)
    | lapsed rest written => exact absurd hworks (apart _ _ _ _ _ rfl)

end Out

section Step

variable {j : Link α} {name : Nat} {framed : Bytes} {rest : List Bytes} {written : Nat}
  {c : Child} {progress : Child.Progress Child.Sending (Except Fault Nat)}
  {records : List Log.Record}

/-- After a step of a send that hands nothing over and takes no answer. -/
theorem stepped_quiet {stage : Child.Sending} (added : j.child.added c = [])
    (quiet : taken j.acksFor stage = []) :
    j.stepped name framed stage ⟨c, progress, records⟩ =
      { j with child := c, desk := .after name framed progress } := by
  simp only [stepped, quiet, added, List.map_nil, List.append_nil, List.length_nil, List.drop_zero]

/-- After a step of a send that hands nothing over and may take an answer. -/
theorem stepped_awaiting (added : j.child.added c = []) :
    j.stepped name framed (.awaiting rest written) ⟨c, progress, records⟩ =
      { j with
        child := c, desk := .after name framed progress,
        acksFor := j.acksFor.drop (j.acksFor.take 1).length,
        counted := j.counted ++ (j.acksFor.take 1).map fun owner => (name, owner) } := by
  simp only [stepped, taken, added, List.map_nil, List.append_nil]

theorem sendResult_of_fault (fault : Fault) : Call.sendResult framed (.error fault) ≠ .ok () := by
  rintro ⟨⟩

/-- A send that ends before it is through has not sent all of its frame. -/
theorem sendResult_of_short (short : written < framed.length) :
    Call.sendResult framed (.ok written) ≠ .ok () := by
  rw [Call.sendResult, if_pos short]
  rintro ⟨⟩

variable {acksFor : List Nat} {counted : List (Nat × Nat)} {desk : Desk}

/-- A send ends between two chunks, and the link is shut then. -/
theorem Between.fails {answer : Except Fault Nat} (h : j.Between framed rest written)
    (call : ⟨name, .sending framed⟩ ∈ j.ledger.calls) (bad : Call.sendResult framed answer ≠ .ok ())
    (child : c = j.child ∧ j.Shut ∨ c.writer = none) :
    Link.Stands { j with child := c, desk } (.answered name framed answer) := by
  obtain ⟨hidle, -, mine, hsplit, -, hm⟩ := h
  have hidle' : Idle c.queues j.hand j.queuedFor j.acksFor := by
    rcases child with ⟨rfl, _⟩ | hgone
    · exact hidle
    · rw [Child.queues_eq_none.mpr hgone]
      exact idle_of_none _ _ _
  refine ⟨call, hidle', mine, ⟨rest.flatten, hsplit⟩, hm, fun hok => absurd hok bad, fun _ => ?_⟩
  rcases child with ⟨rfl, hshut⟩ | hgone
  · exact hshut
  · exact .inr hgone

/-- A send ends while a chunk of it is out, and the writer is given up. -/
theorem Waits.fails {answer : Except Fault Nat} (h : j.Waits name framed rest written)
    (call : ⟨name, .sending framed⟩ ∈ j.ledger.calls) (bad : Call.sendResult framed answer ≠ .ok ())
    (gone : c.writer = none) :
    Link.Stands { j with child := c, desk, acksFor, counted } (.answered name framed answer) := by
  obtain ⟨-, mine, chunk, -, -, hsplit, -, hhanded⟩ := h
  have hidle : Idle c.queues j.hand j.queuedFor acksFor := by
    rw [Child.queues_eq_none.mpr gone]
    exact idle_of_none _ _ _
  have hm : Holds j.handed j.accepted j.ledger (mine ++ chunk) :=
    ⟨[], by rw [hhanded, List.append_nil, List.append_assoc], .inl rfl, .inl rfl⟩
  exact ⟨call, hidle, mine ++ chunk, ⟨rest.flatten, hsplit⟩, hm, fun hok => absurd hok bad,
    fun _ => .inr gone⟩

/-- The size of what is counted, between two chunks. -/
theorem Between.short {chunk : Bytes} (h : j.Between framed (chunk :: rest) written) :
    written < framed.length := by
  obtain ⟨_, hrest, mine, hsplit, hwritten, _⟩ := h
  have hlen := congrArg List.length hsplit
  have hpos := List.length_pos_iff.mpr (hrest chunk List.mem_cons_self)
  simp only [List.flatten_cons, List.length_append] at hlen
  omega

theorem Waits.short (h : j.Waits name framed rest written) : written < framed.length := by
  obtain ⟨_, mine, chunk, _, hchunk, hsplit, hwritten, _⟩ := h
  have hlen := congrArg List.length hsplit
  have hpos := List.length_pos_iff.mpr hchunk
  simp only [List.length_append] at hlen
  omega

/-- A send that has chunks left, or none, takes a step. -/
theorem stands_next (h : j.Between framed rest written)
    (call : ⟨name, .sending framed⟩ ∈ j.ledger.calls)
    (hs : Child.Steps j.child j.ledger.connection.cancelSend (.next rest written) c progress) :
    Link.Stands (j.stepped name framed (.next rest written) ⟨c, progress, records⟩)
      (.after name framed progress) := by
  cases hs with
  | lacksWriter hw =>
    rw [stepped_quiet (added_same _) rfl]
    exact h.fails call (sendResult_of_fault _) (.inr hw)
  | finishes _ =>
    rw [stepped_quiet (added_same _) rfl]
    obtain ⟨hidle, _, mine, hsplit, hwritten, hm⟩ := h
    rw [List.flatten_nil, List.append_nil] at hsplit
    refine ⟨call, hidle, mine, ⟨[], by rw [List.append_nil, hsplit]⟩, hm, fun _ => hsplit, ?_⟩
    intro hne
    refine absurd ?_ hne
    rw [Call.sendResult, if_neg (by rw [hwritten, hsplit]; omega)]
  | breaksOff _ hc =>
    rw [stepped_quiet (added_same _) rfl]
    exact h.fails call (sendResult_of_short h.short) (.inl ⟨rfl, .inl hc⟩)
  | looks _ _ =>
    rw [stepped_quiet (added_same _) rfl]
    exact ⟨call, h⟩
  | givesUp =>
    rw [stepped_quiet (added_gone _ rfl) rfl]
    exact h.fails call (sendResult_of_fault _) (.inr rfl)

/-- A send that is about to hand over a chunk takes a step. Since it is at it, no send has failed. -/
theorem stands_handing {chunk : Bytes} (h : j.Between framed (chunk :: rest) written)
    (call : ⟨name, .sending framed⟩ ∈ j.ledger.calls) (unfailed : ∀ n, ¬ j.ledger.Failed n)
    (hs : Child.Steps j.child j.ledger.connection.cancelSend (.handing chunk rest written) c
      progress) :
    Link.Stands (j.stepped name framed (.handing chunk rest written) ⟨c, progress, records⟩)
      (.after name framed progress) := by
  cases hs with
  | lacksWriter hw =>
    rw [stepped_quiet (added_same _) rfl]
    exact h.fails call (sendResult_of_fault _) (.inr hw)
  | givesUp =>
    rw [stepped_quiet (added_gone _ rfl) rfl]
    exact h.fails call (sendResult_of_fault _) (.inr rfl)
  | @hands w _ _ _ hw =>
    obtain ⟨hidle, hrest, mine, hsplit, hwritten, tail, hhanded, hleft, _⟩ := h
    obtain ⟨hqueues, hhand, hqueuedFor, hacksFor⟩ := hidle _ (Child.queues_eq_some hw)
    obtain ⟨hqueued, hacks⟩ := Prod.mk.inj hqueues
    have htail : tail = [] := by
      refine hleft.resolve_right ?_
      rintro ⟨n, _, _, hfailed, _⟩
      exact unfailed n hfailed
    refine ⟨call, fun b hb => hrest b (List.mem_cons_of_mem _ hb), mine, chunk, .queued ?_ hhand
      ?_ ?_, hrest chunk List.mem_cons_self, ?_, hwritten, ?_⟩
    · simp only [stepped, Child.queues, Option.map_some, hqueued, hacks, List.nil_append]
    · simp only [stepped, added_hands hw, hqueuedFor, List.map_cons, List.map_nil, List.nil_append]
    · simp only [stepped, hacksFor, List.drop_nil]
    · rw [← hsplit, List.flatten_cons, List.append_assoc]
    · rw [handed_stepped, added_hands hw, List.flatten_singleton, hhanded, htail, List.append_nil]
      rfl

/-- A send that waits for an answer takes a step. -/
theorem stands_awaiting (h : j.Waits name framed rest written)
    (call : ⟨name, .sending framed⟩ ∈ j.ledger.calls)
    (hs : Child.Steps j.child j.ledger.connection.cancelSend (.awaiting rest written) c progress) :
    Link.Stands (j.stepped name framed (.awaiting rest written) ⟨c, progress, records⟩)
      (.after name framed progress) := by
  cases hs with
  | lacksWriter hw => exact absurd hw h.there
  | givesUp =>
    rw [stepped_awaiting (added_gone _ rfl)]
    exact h.fails call (sendResult_of_fault _) rfl
  | lapses hw ha =>
    rw [stepped_awaiting (added_same _)]
    obtain ⟨hrest, mine, chunk, hout, hmore⟩ := h
    refine ⟨call, hrest, mine, chunk, ?_, hmore⟩
    have hnone : j.acksFor = [] := by
      rw [Child.queues_eq_some hw, ha] at hout
      cases hout with
      | queued _ _ _ hacksFor | taken _ _ _ hacksFor => exact hacksFor
      | answered he _ _ _ _ => simp at he
    rw [hnone] at hout ⊢
    exact hout
  | @counts w _ _ n acks hw ha =>
    rw [stepped_awaiting (added_counts hw acks)]
    obtain ⟨hrest, mine, chunk, hout, hchunk, hsplit, hwritten, hhanded⟩ := h
    rw [Child.queues_eq_some hw, ha] at hout
    cases hout with
    | queued he _ _ _ => simp at he
    | taken he _ _ _ => simp at he
    | answered he hhand hqueuedFor hacksFor hn =>
      simp only [Option.some.injEq, Prod.mk.injEq, List.cons.injEq] at he
      obtain ⟨hqueued, hresult, rfl⟩ := he
      refine ⟨call, ?_, hrest, mine ++ chunk, hsplit, ?_, [], ?_, .inl rfl, .inl rfl⟩
      · intro q hq
        simp only [Child.queues, Option.map_some, hqueued, Option.some.injEq] at hq
        exact ⟨hq.symm, hhand, hqueuedFor, by rw [hacksFor]; rfl⟩
      · rw [hwritten, hn n hresult.symm, List.length_append]
      · rw [List.append_nil, ← List.append_assoc]
        exact hhanded

/-- A send whose poll interval has passed takes a step. -/
theorem stands_lapsed (h : j.Waits name framed rest written)
    (call : ⟨name, .sending framed⟩ ∈ j.ledger.calls)
    (hs : Child.Steps j.child j.ledger.connection.cancelSend (.lapsed rest written) c progress) :
    Link.Stands (j.stepped name framed (.lapsed rest written) ⟨c, progress, records⟩)
      (.after name framed progress) := by
  cases hs with
  | lacksWriter hw => exact absurd hw h.there
  | givesUp =>
    rw [stepped_quiet (added_gone _ rfl) rfl]
    exact h.fails call (sendResult_of_fault _) rfl
  | resumes _ =>
    rw [stepped_quiet (added_same _) rfl]
    exact ⟨call, h⟩
  | abandons _ =>
    rw [stepped_quiet (added_gone _ rfl) rfl]
    exact h.fails call (sendResult_of_short h.short) rfl

/-- A send takes only the answer for its own chunk. -/
theorem Works.taken_own {stage : Child.Sending} (h : j.Works name framed stage) :
    ∀ owner ∈ taken j.acksFor stage, owner = name := by
  cases stage with
  | next _ _ | handing _ _ _ | lapsed _ _ => nofun
  | awaiting rest written =>
    obtain ⟨_, mine, chunk, hout, _⟩ := h
    cases hout with
    | queued _ _ _ hacksFor | taken _ _ _ hacksFor =>
      rw [hacksFor]
      nofun
    | answered _ _ _ hacksFor _ =>
      rw [hacksFor]
      intro owner hmem
      exact List.mem_singleton.mp hmem

end Step

theorem sendResult_eq_error {framed : Bytes} {answer : Except Fault Nat} {error : SendError}
    (h : Call.sendResult framed answer = .error error) :
    (∃ fault, error = .io fault) ∨ ∃ written expected, error = .shortWrite written expected := by
  cases answer with
  | error fault =>
    cases h
    exact .inl ⟨fault, rfl⟩
  | ok written =>
    rw [Call.sendResult] at h
    split at h
    · cases h
      exact .inr ⟨_, _, rfl⟩
    · cases h

end Link

end WorkerLink
