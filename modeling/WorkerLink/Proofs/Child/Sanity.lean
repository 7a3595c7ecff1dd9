import WorkerLink.Proofs.Child.Standing

/-!
# A link stays in order

Every move of a link leaves it as it should be. A send that fails leaves the link
still, so the bytes that it has left behind are the last ones: whoever is about
to hand over a chunk has found that no send has failed.
-/

namespace WorkerLink

variable {α : Type} [Memory]

namespace Link

structure Sane (j : Link α) : Prop where
  reachable : j.ledger.Reachable
  failed : ∀ name, j.ledger.Failed name → j.Still
  named : ∀ entry ∈ j.handovers, entry.1 < j.ledger.history.length
  counted : ∀ entry ∈ j.counted, entry.1 = entry.2
  stands : j.Stands j.desk

theorem Sane.ledger {j : Link α} {l : Ledger α} (s : Sane j) (k : Keeps j.ledger l)
    (reachable : l.Reachable) : Sane { j with ledger := l } where
  reachable := reachable
  failed name h := (s.failed name ((k.failed name).mp h)).imp_left (Or.imp_left k.cancelSend)
  named entry h := Nat.lt_of_lt_of_le (s.named entry h) k.history
  counted := s.counted
  stands := Stands.ledger s.stands k

theorem Sane.child {j : Link α} {c : Child} (s : Sane j) (queues : c.queues = j.child.queues) :
    Sane { j with child := c } where
  reachable := s.reachable
  failed name h := (s.failed name h).imp_left fun hshut => hshut.child queues
  named := s.named
  counted := s.counted
  stands := Stands.child s.stands queues

section Moved

variable {l l' : Ledger α} {name : Nat} {deed : Deed α} {before after : List (Named α)}

/-- A call that is not at a frame moves. -/
theorem keeps_of_aside (m : Ledger.Moves l l' name deed before after) (r : l.Reachable)
    (aside : ∀ framed input, deed.cause ≠ .goOn (.sending framed) input) : Keeps l l' where
  accepted := by
    rw [(r.inTurn.moved r.sound r.exclusive m).2, Deed.accepts?_of_ne aside, Option.toList_none,
      List.append_nil]
  acquired := m.acquired_subset
  failed n := ⟨m.failed_of_aside aside, r.sound.failed_of_failed m⟩
  sending n framed hmem := by
    refine m.mem_calls_next.mpr ((m.mem_calls.mp hmem).imp_right fun hfound => ?_)
    unfold Deed.found at hfound
    split at hfound
    · cases hfound
    · next hcause =>
      cases List.mem_singleton.mp hfound
      exact False.elim (aside _ _ hcause)
  cancelSend := m.does.follows.cancelSend
  history := by
    rw [m.history, List.length_append]
    exact Nat.le_add_right _ _

end Moved

theorem Sane.calls {j : Link α} (s : Sane j) {thread : Nat} {move : Move α} {l : Ledger α}
    (hn : j.ledger.next thread move = some l)
    (aside : ∀ input, move = .goOn input → ∀ name framed below,
      j.ledger.stack thread ≠ ⟨name, .sending framed⟩ :: below) :
    Sane { j with ledger := l } := by
  obtain ⟨name, deed, before, after, hm, hmove⟩ := Ledger.moves_of_next_by hn
  refine s.ledger (keeps_of_aside hm s.reachable fun framed input hc => ?_) (.next s.reachable hn)
  rcases hmove with ⟨_, _, hstart⟩ | ⟨input', call, below, hgo, hstack, hcause⟩
  · rw [hstart] at hc
    cases hc
  · rw [hcause] at hc
    cases hc
    exact aside _ hgo _ _ _ hstack

theorem Sane.enters {j : Link α} (s : Sane j) {name : Nat} {framed : Bytes}
    (free : j.desk = .free) (call : ⟨name, .sending framed⟩ ∈ j.ledger.calls) :
    Sane { j with desk := .busy name framed (j.child.startSend framed) } := by
  have hstands := s.stands
  rw [free] at hstands
  obtain ⟨hidle, hm⟩ := hstands
  have hrest : ∀ chunk ∈ Child.chunks j.child.chunkSize framed, chunk ≠ [] :=
    fun chunk hchunk => Child.ne_nil_of_mem_chunks hchunk
  exact ⟨s.reachable, fun n h => ⟨(s.failed n h).1, rfl⟩, s.named, s.counted, call, hidle, hrest,
    [], Child.chunks_flatten _ _, rfl, hm⟩

section Out

variable {j : Link α} {c : Child} {hand : Option (Nat × Bytes)} {queuedFor acksFor : List Nat}

theorem Sane.writer (s : Sane j) {w : Writer} (there : j.child.writer = some w)
    (out : ¬ Idle j.child.queues j.hand j.queuedFor j.acksFor)
    (outstanding : ∀ name chunk,
      Outstanding j.child.queues j.hand j.queuedFor j.acksFor name chunk →
        Outstanding c.queues hand queuedFor acksFor name chunk) :
    Sane { j with child := c, hand, queuedFor, acksFor } := by
  refine ⟨s.reachable, fun name h => (s.failed name h).imp_left fun hshut => ?_, s.named,
    s.counted, s.stands.moved out outstanding⟩
  refine hshut.imp_right fun hnone => ?_
  rw [there] at hnone
  cases hnone

theorem Sane.gone (s : Sane j) (gone : c.writer = none)
    (apart : ∀ name framed stage rest written, j.desk = .busy name framed stage →
      ¬ j.Waits name framed rest written) :
    Sane { j with child := c, hand, queuedFor, acksFor } :=
  ⟨s.reachable, fun name h => ⟨.inr gone, (s.failed name h).2⟩, s.named, s.counted,
    s.stands.gone gone apart⟩

end Out

theorem Sane.takes {j : Link α} (s : Sane j) {chunk : Bytes} {child : Child}
    (ht : j.child.takeChunk = some (chunk, child)) :
    Sane { j with
      child, hand := some (j.queuedFor.headD 0, chunk), queuedFor := j.queuedFor.tail } := by
  obtain ⟨w, queued, hw, hq, rfl⟩ := takeChunk_eq_some ht
  have hqueues : j.child.queues = some (chunk :: queued, w.acks) := by
    rw [Child.queues_eq_some hw, hq]
  refine s.writer hw (fun hidle => ?_) fun name chunk' hout => ?_
  · cases (hidle _ hqueues).1
  · rw [hqueues] at hout
    cases hout with
    | queued he _ hfor hacks =>
      simp only [Option.some.injEq, Prod.mk.injEq, List.cons.injEq] at he
      obtain ⟨⟨rfl, rfl⟩, hnone⟩ := he
      refine .taken ?_ (by rw [hfor]; rfl) (by rw [hfor]; rfl) hacks
      rw [← hnone]
      rfl
    | taken he _ _ _ => simp at he
    | answered he _ _ _ _ => simp at he

theorem Sane.acknowledges {j : Link α} (s : Sane j) {owner : Nat} {chunk : Bytes}
    {result : Except Fault Nat} (hhand : j.hand = some (owner, chunk))
    (size : ∀ n, result = .ok n → n = chunk.length) :
    Sane { j with
      child := j.child.acknowledge result, hand := none, acksFor := j.acksFor ++ [owner] } := by
  cases hw : j.child.writer with
  | none =>
    rw [acknowledge_none result hw]
    exact s.gone hw fun _ _ _ _ _ _ hwaits => hwaits.there hw
  | some w =>
    have hqueues := Child.queues_eq_some hw
    have hafter := Child.queues_eq_some (acknowledge_some result hw)
    refine s.writer hw (fun hidle => ?_) fun name chunk' hout => ?_
    · have hfree := (hidle _ hqueues).2.1
      rw [hhand] at hfree
      cases hfree
    · rw [hqueues] at hout
      cases hout with
      | queued _ hfree _ _ =>
        rw [hhand] at hfree
        cases hfree
      | answered _ hfree _ _ _ =>
        rw [hhand] at hfree
        cases hfree
      | taken he htaken hfor hacks =>
        rw [hhand] at htaken
        cases htaken
        simp only [Option.some.injEq, Prod.mk.injEq] at he
        rw [he.1, he.2] at hafter
        exact .answered hafter rfl hfor (by rw [hacks]; rfl) size

theorem Sane.closes {j : Link α} (s : Sane j)
    (outside : ∀ name framed stage, j.desk ≠ .busy name framed stage) :
    Sane { j with child := j.child.close } :=
  s.gone rfl fun _ _ _ _ _ hdesk => absurd hdesk (outside _ _ _)

theorem Sane.steps {j : Link α} (s : Sane j) {name : Nat} {framed : Bytes}
    {stage : Child.Sending} {timeUp : Bool} {step : Child.SendStep}
    (busy : j.desk = .busy name framed stage)
    (hs : j.child.sendStep j.ledger.connection.cancelSend timeUp stage = some step) :
    Sane (j.stepped name framed stage step) := by
  have hstands := s.stands
  rw [busy] at hstands
  obtain ⟨hcall, hworks⟩ := hstands
  have hsteps := Child.steps_of_sendStep hs
  refine ⟨s.reachable, fun n h => (Moves.still (.steps busy hs) (s.failed n h)).1, ?_, ?_, ?_⟩
  · intro entry hmem
    rcases List.mem_append.mp hmem with hold | hnew
    · exact s.named entry hold
    · obtain ⟨chunk, _, rfl⟩ := List.mem_map.mp hnew
      exact s.reachable.sound.name_lt (s.reachable.sound.trail _ hcall).ne_nil
  · intro entry hmem
    rcases List.mem_append.mp hmem with hold | hnew
    · exact s.counted entry hold
    · obtain ⟨owner, howner, rfl⟩ := List.mem_map.mp hnew
      exact (hworks.taken_own owner howner).symm
  · cases stage with
    | next rest written => exact stands_next hworks hcall hsteps
    | awaiting rest written => exact stands_awaiting hworks hcall hsteps
    | lapsed rest written => exact stands_lapsed hworks hcall hsteps
    | handing chunk rest written =>
      refine stands_handing hworks hcall ?_ hsteps
      intro n hfailed
      have hapart := (s.failed n hfailed).2
      rw [busy] at hapart
      cases hapart

section Answer

variable {l l' : Ledger α} {name : Nat} {framed : Bytes} {answer : Except Fault Nat}
variable {before after : List (Named α)}

/-- What is left of a send that fails is all that is left. -/
theorem Holds.answered (r : l.Reachable)
    (m : Ledger.Moves l l' name
      ⟨.goOn (.sending framed) (.wrote answer), .ends (.sent (Call.sendResult framed answer))⟩
      before after) {handed mine : Bytes}
    (h : Holds handed (l.accepted.map Frame.encode).flatten l mine) (pre : mine <+: framed)
    (sent : Call.sendResult framed answer = .ok () → mine = framed) :
    Holds handed (l'.accepted.map Frame.encode).flatten l' [] := by
  obtain ⟨_, haccepted⟩ := r.inTurn.moved r.sound r.exclusive m
  obtain ⟨earlier, payload, hlast, ⟨⟩⟩ := r.inTurn.last name _ m.self_mem rfl
  obtain ⟨tail, rfl, htail, hone⟩ := h
  cases hresult : Call.sendResult (Frame.encode payload) answer with
  | ok _ =>
    obtain rfl := sent hresult
    obtain rfl := hone.resolve_right (Frame.encode_ne_nil payload)
    refine ⟨[], ?_, .inl rfl, .inl rfl⟩
    rw [haccepted, hresult]
    simp [Deed.accepts?]
  | error error =>
    have hsame : l'.accepted.map Frame.encode = l.accepted.map Frame.encode := by
      rw [haccepted, hresult]
      simp [Deed.accepts?]
    rw [hsame]
    rcases hone with rfl | rfl
    · refine ⟨mine, by simp, .inr ⟨name, payload, m.acquired_subset ?_, ?_, pre⟩, .inr rfl⟩
      · rw [hlast]
        simp
      · exact ⟨error, by rw [m.fate_self, hresult], sendResult_eq_error hresult⟩
    · exact ⟨tail, by simp, htail.later m.acquired_subset fun _ => r.sound.failed_of_failed m,
        .inr rfl⟩

end Answer

/-- The move with which a send takes the answer of the handle. -/
theorem moves_of_answer {l l' : Ledger α} {thread name : Nat} {framed : Bytes}
    {answer : Except Fault Nat} {below : List (Named α)}
    (newest : l.stack thread = ⟨name, .sending framed⟩ :: below)
    (hn : l.next thread (.goOn (.wrote answer)) = some l') :
    ∃ before after, Ledger.Moves l l' name
      ⟨.goOn (.sending framed) (.wrote answer), .ends (.sent (Call.sendResult framed answer))⟩
      before after := by
  obtain ⟨n, deed, before, after, m, hmove⟩ := Ledger.moves_of_next_by hn
  obtain ⟨rfl, hdeed⟩ : n = name ∧ deed =
      ⟨.goOn (.sending framed) (.wrote answer), .ends (.sent (Call.sendResult framed answer))⟩ := by
    rcases hmove with ⟨_, hstart, _⟩ | ⟨input, call, rest, hgo, hstack, hcause⟩
    · cases hstart
    · cases hgo
      rw [newest] at hstack
      cases hstack
      have hdoes := m.does
      generalize l'.connection = c' at hdoes
      cases deed
      cases hcause
      cases hdoes with
      | goesOn hg =>
        cases hg
        exact ⟨rfl, rfl⟩
  rw [hdeed] at m
  exact ⟨before, after, m⟩

theorem Sane.answers {j : Link α} (s : Sane j) {thread name : Nat} {framed : Bytes}
    {answer : Except Fault Nat} {below : List (Named α)} {l : Ledger α}
    (answered : j.desk = .answered name framed answer)
    (newest : j.ledger.stack thread = ⟨name, .sending framed⟩ :: below)
    (hn : j.ledger.next thread (.goOn (.wrote answer)) = some l) :
    Sane { j with ledger := l, desk := .free } := by
  have hstands := s.stands
  rw [answered] at hstands
  obtain ⟨_, hidle, mine, hpre, hm, hok, hbad⟩ := hstands
  obtain ⟨before, after, m⟩ := moves_of_answer newest hn
  refine ⟨.next s.reachable hn, fun other hfailed => ⟨?_, rfl⟩, ?_, s.counted, hidle,
    hm.answered s.reachable m hpre hok⟩
  case refine_2 =>
    intro entry hmem
    have hlt := s.named entry hmem
    rw [m.history, List.length_append]
    exact Nat.lt_add_right _ hlt
  refine Or.imp_left m.does.follows.cancelSend ?_
  by_cases he : other = name
  · subst he
    refine hbad fun hsent => ?_
    obtain ⟨error, hfate, _⟩ := hfailed
    rw [m.fate_self, hsent] at hfate
    cases hfate
  · obtain ⟨error, hfate, herror⟩ := hfailed
    rw [m.fate_other he] at hfate
    exact (s.failed other ⟨error, hfate, herror⟩).1

theorem Sane.moved {j j' : Link α} (s : Sane j) (h : Moves j j') : Sane j' := by
  cases h with
  | calls hn aside => exact s.calls hn aside
  | spawns => exact s.ledger (keeps_spawn _) (.spawn s.reachable)
  | enters free call => exact s.enters free call
  | steps busy hs => exact s.steps busy hs
  | answers answered newest hn => exact s.answers answered newest hn
  | takes _ ht => exact s.takes ht
  | acknowledges hhand size => exact s.acknowledges hhand size
  | stops hw =>
    refine s.child ?_
    rw [Child.queues_eq_some hw]
    rfl
  | closes outside => exact s.closes outside
  | others hw =>
    refine s.child ?_
    rw [Child.queues, hw, Child.queues]

theorem Reachable.sane {j : Link α} (h : Reachable j) : Sane j := by
  induction h with
  | start pid tuning child hw =>
    refine ⟨.start pid tuning, ?_, nofun, nofun, ?_, [], rfl, .inl rfl, .inl rfl⟩
    · rintro name ⟨error, hfate, _⟩
      cases hfate
    · intro q hq
      rw [Child.queues_eq_some hw] at hq
      cases hq
      exact ⟨rfl, rfl, rfl, rfl⟩
  | next _ hm ih => exact ih.moved hm

end Link

end WorkerLink
