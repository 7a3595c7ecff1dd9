import WorkerLink.Proofs.Connection.Exclusion
import WorkerLink.Proofs.Connection.HostSections
import WorkerLink.Proofs.Connection.Later

/-!
# Sends take turns

The sends that have got the handle are listed in the order in which they got it.
Only the last of them can still be at it, with its payload or with the frame of
it, since each keeps the handle until it ends (`InTurn`). So the frames that were
sent are accepted in the order in which their sends had the handle, one more with
each send that ends well.
-/

namespace WorkerLink

variable {α : Type}

/-- The send has the handle, for its payload or for the frame of it. -/
def Call.isAtFrame : Call α → Bool
  | .framing _ | .sending _ => true
  | _ => false

/-- The send has the handle for the payload. -/
inductive Call.Carries : Call α → Bytes → Prop
  | framing {payload : Bytes} : Carries (.framing payload) payload
  | sending {payload : Bytes} : Carries (.sending (Frame.encode payload)) payload

theorem Call.Carries.isAtFrame {call : Call α} {payload : Bytes} (h : call.Carries payload) :
    call.isAtFrame = true := by
  cases h <;> rfl

theorem Call.holdsHandle_of_isAtFrame {call : Call α} (h : call.isAtFrame = true) :
    call.holdsHandle = true := by
  cases call with
  | framing _ | sending _ => rfl
  | awaitingSend _ | awaitingCancel | cancelling | dispatch _ => cases h

theorem Call.Starts.not_isAtFrame {c c' : Connection} {operation : Operation α} {call : Call α}
    (h : Starts c operation c' (.goesOn call)) : call.isAtFrame = false := by
  cases h <;> rfl

namespace Deed

def acquires? (d : Deed α) : Option Bytes :=
  match d.cause, d.next with
  | .goOn (.awaitingSend payload) _, .goesOn _ => some payload
  | _, _ => none

def accepts? (d : Deed α) : Option Bytes :=
  match d.cause, d.next with
  | .goOn (.sending framed) _, .ends (.sent (.ok ())) => some framed
  | _, _ => none

theorem acquires?_of_ne {d : Deed α}
    (h : ∀ payload input, d.cause ≠ .goOn (.awaitingSend payload) input) :
    d.acquires? = none := by
  unfold acquires?
  split
  · next hc _ => exact False.elim (h _ _ hc)
  · rfl

theorem accepts?_of_ne {d : Deed α} (h : ∀ framed input, d.cause ≠ .goOn (.sending framed) input) :
    d.accepts? = none := by
  unfold accepts?
  split
  · next hc _ => exact False.elim (h _ _ hc)
  · rfl

theorem acquires?_eq_some [Memory] {c c' : Connection} {d : Deed α} {payload : Bytes}
    (does : d.Does c c') (h : d.acquires? = some payload) : ∃ input,
      d = ⟨.goOn (.awaitingSend payload) input, .goesOn (.framing payload)⟩ ∧
      c.slot.busy = false := by
  unfold acquires? at h
  split at h
  · next hc hn =>
    cases h
    cases does with
    | starts _ => cases hc
    | goesOn hg =>
      cases hc
      cases hg with
      | takesHandle hclaim _ =>
        obtain ⟨_, hfree, _⟩ := Connection.claim_eq_ok.mp hclaim
        exact ⟨_, rfl, hfree⟩
      | lacksHandle _ _ => cases hn
  · cases h

end Deed

section Steps

variable [Memory]

/-- A send that is at its frame has just got the handle, or has come from its payload. -/
theorem Call.Goes.isAtFrame {c c' : Connection} {call call' : Call α} {input : Input}
    (h : Goes c call input c' (.goesOn call')) (atFrame : call'.isAtFrame = true) :
    ∃ payload, call'.Carries payload ∧
      (call = .awaitingSend payload ∧ call' = .framing payload ∨ call = .framing payload) := by
  cases h with
  | takesHandle _ _ => exact ⟨_, .framing, .inl ⟨rfl, rfl⟩⟩
  | frames _ => exact ⟨_, .sending, .inr rfl⟩
  | cancels _ _ => cases atFrame
  | dispatches hd =>
    obtain ⟨_, rfl, _⟩ := hd.advances
    cases atFrame

/-- A send that has only its payload has not sent the frame. -/
theorem Call.Goes.not_sent_of_framing {c c' : Connection} {payload : Bytes} {input : Input}
    (h : Goes (α := α) c (.framing payload) input c' (.ends (.sent (.ok ())))) : False := by
  cases h

theorem Call.Carries.goes {c c' : Connection} {call call' : Call α} {input : Input}
    {payload : Bytes} (h : call.Carries payload) (hg : Goes c call input c' (.goesOn call')) :
    call'.Carries payload := by
  cases h with
  | framing =>
    cases hg with
    | frames _ => exact .sending
  | sending => cases hg

/-- A send that comes to its frame gets the handle. -/
theorem Deed.Does.acquires {c c' : Connection} {d : Deed α} {call : Call α} (h : d.Does c c')
    (next : d.next = .goesOn call) (atFrame : call.isAtFrame = true)
    (aside : d.before Call.isAtFrame = false) : ∃ payload, d.acquires? = some payload := by
  cases h with
  | starts hs =>
    cases next
    rw [hs.not_isAtFrame] at atFrame
    cases atFrame
  | goesOn hg =>
    cases next
    obtain ⟨payload, _, ⟨rfl, rfl⟩ | rfl⟩ := hg.isAtFrame atFrame
    · exact ⟨payload, rfl⟩
    · cases aside

/-- A send that has got the handle is at its frame until it ends. -/
theorem Trail.acquired {deeds : List (Deed α)} {next : Next α} (h : Trail deeds next)
    {d : Deed α} {payload : Bytes} (hmem : d ∈ deeds) (acquires : d.acquires? = some payload) :
    Opens deeds (.send (.ok payload)) ∧
      ∀ call, next = .goesOn call → call.Carries payload := by
  induction h with
  | start _ =>
    rw [List.mem_singleton.mp hmem] at acquires
    cases acquires
  | @goOn deeds call input c c' next ht hg ih =>
    rw [opens_snoc ht.ne_nil]
    rcases List.mem_append.mp hmem with hold | hnew
    · obtain ⟨hopens, hcall⟩ := ih hold
      refine ⟨hopens, ?_⟩
      rintro call' rfl
      exact (hcall call rfl).goes hg
    · rw [List.mem_singleton.mp hnew] at acquires
      obtain ⟨_, he, _⟩ := Deed.acquires?_eq_some (.goesOn hg) acquires
      cases he
      obtain ⟨operation, hopen⟩ := ht.opens
      have hserves := ht.serves hopen
      cases operation with
      | send given =>
        cases hserves
        refine ⟨hopen, ?_⟩
        rintro _ ⟨⟩
        exact .framing
      | shutdown => cases hserves
      | dispatch _ _ => cases hserves

/-- A send that is at its frame has got the handle. -/
theorem Trail.acquires_of_isAtFrame {deeds : List (Deed α)} {next : Next α} (h : Trail deeds next) :
    ∀ call, next = .goesOn call → call.isAtFrame = true →
      ∃ d ∈ deeds, ∃ payload, d.acquires? = some payload := by
  induction h with
  | start hs =>
    rintro call rfl hat
    rw [hs.not_isAtFrame] at hat
    cases hat
  | goOn _ hg ih =>
    rintro call' rfl hat
    obtain ⟨payload, _, ⟨rfl, rfl⟩ | rfl⟩ := hg.isAtFrame hat
    · exact ⟨_, List.mem_append_right _ (List.mem_singleton_self _), payload, rfl⟩
    · obtain ⟨d, hmem, hd⟩ := ih _ rfl rfl
      exact ⟨d, List.mem_append_left _ hmem, hd⟩

/-- Only a send that has got the handle is reported as done. -/
theorem Trail.acquires_of_sent {deeds : List (Deed α)}
    (h : Trail deeds (.ends (.sent (.ok ())))) :
    ∃ d ∈ deeds, ∃ payload, d.acquires? = some payload := by
  cases h with
  | start hs => cases hs
  | @goOn deeds call input c c' _ ht hg =>
    have hcall : ∃ framed, call = .sending framed := by
      generalize hnext : Next.ends (Outcome.sent (Except.ok ())) = next at hg
      cases hg with
      | wrote => exact ⟨_, rfl⟩
      | dispatches hd =>
        rw [← hnext] at hd
        obtain ⟨_, _, ⟨_, ho⟩ | ⟨_, ho⟩⟩ := hd.ends <;> cases ho
      | takesHandle _ _ | frames _ | lacksMemory _ | lacksHandle _ _ | cancels _ _
      | skipsCancel _ _ | cancelled | sendRaises | cancelRaises => cases hnext
    obtain ⟨framed, rfl⟩ := hcall
    obtain ⟨d, hmem, hd⟩ := ht.acquires_of_isAtFrame _ rfl rfl
    exact ⟨d, List.mem_append_left _ hmem, hd⟩

end Steps

namespace Ledger

/-- The sends that have got the handle, with their payloads, in the order in which they got it. -/
def acquired (l : Ledger α) : List (Nat × Bytes) :=
  l.history.filterMap fun entry => entry.2.acquires?.map fun payload => (entry.1, payload)

def sentOk (l : Ledger α) (name : Nat) : Bool :=
  match l.fate name with
  | some (.ends (.sent (.ok ()))) => true
  | _ => false

/-- The payloads of the sends that have been reported as done, in the order in which the sends got
the handle. -/
def accepted (l : Ledger α) : List Bytes :=
  (l.acquired.filter fun entry => l.sentOk entry.1).map Prod.snd

/-- The send that is at its frame got the handle last, and no send gets it twice. -/
structure InTurn (l : Ledger α) : Prop where
  distinct : (l.acquired.map Prod.fst).Nodup
  last : ∀ name call, ⟨name, call⟩ ∈ l.calls → call.isAtFrame = true →
    ∃ earlier payload, l.acquired = earlier ++ [(name, payload)] ∧ call.Carries payload

theorem mem_acquired {l : Ledger α} {n : Nat} {payload : Bytes} :
    (n, payload) ∈ l.acquired ↔ ∃ d ∈ l.deeds n, d.acquires? = some payload := by
  simp only [Ledger.acquired, List.mem_filterMap, Option.map_eq_some_iff, mem_deeds]
  constructor
  · rintro ⟨⟨m, d⟩, hmem, p, hp, he⟩
    cases he
    exact ⟨d, hmem, hp⟩
  · rintro ⟨d, hmem, hp⟩
    exact ⟨(n, d), hmem, payload, hp, rfl⟩

/-- The send has come back from the handle without having sent its frame. -/
def Failed (l : Ledger α) (name : Nat) : Prop :=
  ∃ error, l.fate name = some (.ends (.sent (.error error))) ∧
    ((∃ fault, error = .io fault) ∨ ∃ written expected, error = .shortWrite written expected)

variable [Memory]

section Moved

variable {l l' : Ledger α} {name : Nat} {deed : Deed α} {before after : List (Named α)}

theorem Moves.acquired (m : Moves l l' name deed before after) :
    l'.acquired = l.acquired ++ (deed.acquires?.map fun payload => (name, payload)).toList := by
  cases hd : deed.acquires? <;> simp [Ledger.acquired, m.history, hd]

theorem Moves.acquired_subset (m : Moves l l' name deed before after) :
    l.acquired ⊆ l'.acquired := by
  rw [m.acquired]
  exact List.subset_append_left _ _

theorem Moves.fate_self (m : Moves l l' name deed before after) :
    l'.fate name = some deed.next := by
  rw [fate, m.deeds_self, List.getLast?_concat]
  rfl

theorem Moves.fate_other (m : Moves l l' name deed before after) {n : Nat} (ne : n ≠ name) :
    l'.fate n = l.fate n := by
  rw [fate, m.deeds_other ne, fate]

/-- A call that moves, and is not at a frame, has not had the handle for one. -/
theorem Sound.not_acquired (s : Sound l) (m : Moves l l' name deed before after)
    (aside : deed.before Call.isAtFrame = false) {payload : Bytes} :
    (name, payload) ∉ l.acquired := by
  intro hmem
  obtain ⟨d, hd, hacquires⟩ := mem_acquired.mp hmem
  cases m.does with
  | starts _ =>
    rw [m.fresh _ rfl, s.deeds_fresh] at hd
    cases hd
  | @goesOn call input _ _ _ =>
    obtain ⟨_, hcarries⟩ := (s.trail _ m.self_mem).acquired hd hacquires
    have hat : call.isAtFrame = true := (hcarries call rfl).isAtFrame
    have hnot : call.isAtFrame = false := aside
    rw [hat] at hnot
    cases hnot

theorem Moves.sentOk_self (m : Moves l l' name deed before after) :
    l'.sentOk name = true ↔ deed.next = .ends (.sent (.ok ())) := by
  unfold sentOk
  rw [m.fate_self]
  constructor
  · intro h
    split at h
    · next hf => exact Option.some.inj hf
    · cases h
  · intro h
    rw [h]

theorem Moves.sentOk_other (m : Moves l l' name deed before after) {n : Nat} (ne : n ≠ name) :
    l'.sentOk n = l.sentOk n := by
  rw [sentOk, m.fate_other ne, sentOk]

/-- The sends that do not move are reported as they were. -/
theorem Moves.filter_other (m : Moves l l' name deed before after) {entries : List (Nat × Bytes)}
    (others : ∀ entry ∈ entries, entry.1 ≠ name) :
    entries.filter (fun entry => l'.sentOk entry.1) =
      entries.filter fun entry => l.sentOk entry.1 :=
  List.filter_congr fun entry hmem => m.sentOk_other (others entry hmem)

/-- The move of a call that is not at a frame. -/
theorem InTurn.moved_aside (t : InTurn l) (s : Sound l) (e : Exclusive l)
    (m : Moves l l' name deed before after) (aside : deed.before Call.isAtFrame = false) :
    InTurn l' ∧ l'.accepted = l.accepted := by
  have hnot : ∀ entry ∈ l.acquired, entry.1 ≠ name := by
    rintro ⟨n, payload⟩ hmem rfl
    exact s.not_acquired m aside hmem
  cases hd : deed.acquires? with
  | none =>
    have hacquired : l'.acquired = l.acquired := by simp [m.acquired, hd]
    refine ⟨⟨by rw [hacquired]; exact t.distinct, ?_⟩, ?_⟩
    · intro n call hmem hat
      rw [hacquired]
      rcases m.mem_calls_next.mp hmem with hside | hleft
      · exact t.last n call (m.mem_calls.mpr (.inl hside)) hat
      · obtain ⟨payload, hp⟩ := m.does.acquires (Deed.mem_left.mp hleft).2 hat aside
        rw [hd] at hp
        cases hp
    · rw [accepted, hacquired, m.filter_other hnot, accepted]
  | some payload =>
    obtain ⟨input, rfl, hfree⟩ := Deed.acquires?_eq_some m.does hd
    have hacquired : l'.acquired = l.acquired ++ [(name, payload)] := by simp [m.acquired, hd]
    have hself : l'.sentOk name = false := by
      rw [Bool.eq_false_iff]
      intro h
      cases m.sentOk_self.mp h
    refine ⟨⟨?_, ?_⟩, ?_⟩
    · rw [hacquired, List.map_append, List.nodup_append]
      refine ⟨t.distinct, by simp, ?_⟩
      intro n hn k hk
      obtain ⟨entry, hentry, rfl⟩ := List.mem_map.mp hn
      rw [List.map_singleton, List.mem_singleton] at hk
      rw [hk]
      exact hnot entry hentry
    · intro n call hmem hat
      rcases m.mem_calls_next.mp hmem with hside | hleft
      · have hnot := e.free hfree (m.mem_calls.mpr (.inl hside))
        rw [Call.holdsHandle_of_isAtFrame hat] at hnot
        cases hnot
      · obtain ⟨rfl, hnext⟩ := Deed.mem_left.mp hleft
        cases hnext
        exact ⟨_, payload, hacquired, .framing⟩
    · rw [accepted, hacquired, List.filter_append, m.filter_other hnot, accepted]
      simp [hself]

/-- The move of a send that is at its frame. -/
theorem InTurn.moved_atFrame (t : InTurn l) (s : Sound l) (e : Exclusive l) {call : Call α}
    {input : Input} {next : Next α} (hat : call.isAtFrame = true)
    (m : Moves l l' name ⟨.goOn call input, next⟩ before after) :
    InTurn l' ∧ l'.accepted.map Frame.encode = l.accepted.map Frame.encode ++
      (Deed.accepts? ⟨.goOn call input, next⟩).toList := by
  have hself := m.self_mem
  have hacquired : l'.acquired = l.acquired := by
    rw [m.acquired, Deed.acquires?_of_ne]
    · exact List.append_nil _
    · rintro payload _ ⟨⟩
      cases hat
  have hgoes : Call.Goes l.connection call input l'.connection next := by
    have hdoes := m.does
    generalize l'.connection = c' at hdoes ⊢
    cases hdoes with
    | goesOn hg => exact hg
  obtain ⟨earlier, payload, hlast, hcarries⟩ := t.last name call hself hat
  have hearlier : ∀ entry ∈ earlier, entry.1 ≠ name := by
    have hdistinct := t.distinct
    rw [hlast, List.map_append, List.nodup_append] at hdistinct
    intro entry hmem
    exact hdistinct.2.2 entry.1 (List.mem_map_of_mem hmem) name (by simp)
  have hwas : l.sentOk name = false := by
    have hfate : l.fate name = some (.goesOn call) := (s.trail _ hself).last
    rw [sentOk, hfate]
  refine ⟨⟨by rw [hacquired]; exact t.distinct, ?_⟩, ?_⟩
  · intro n other hmem hother
    rcases m.mem_calls_next.mp hmem with hside | hleft
    · have hsame := e.unique (m.mem_calls.mpr (.inl hside)) hself
        (Call.holdsHandle_of_isAtFrame hother) (Call.holdsHandle_of_isAtFrame hat)
      exact False.elim (s.name_ne m hside (congrArg Named.name hsame))
    · obtain ⟨rfl, rfl⟩ := Deed.mem_left.mp hleft
      exact ⟨earlier, payload, hacquired.trans hlast, hcarries.goes hgoes⟩
  · rw [accepted, hacquired, hlast, List.filter_append, m.filter_other hearlier, accepted, hlast,
      List.filter_append]
    cases hok : l'.sentOk name with
    | true =>
      have hnext : next = .ends (.sent (.ok ())) := m.sentOk_self.mp hok
      rw [hnext] at hgoes
      cases hcarries with
      | framing => exact False.elim hgoes.not_sent_of_framing
      | sending => simp [hok, hwas, Deed.accepts?, hnext]
    | false =>
      have hnone : Deed.accepts? ⟨.goOn call input, next⟩ = none := by
        unfold Deed.accepts?
        split
        · next _ hn =>
          have htrue : l'.sentOk name = true := m.sentOk_self.mpr hn
          rw [hok] at htrue
          cases htrue
        · rfl
      simp [hok, hwas, hnone]

theorem InTurn.moved (t : InTurn l) (s : Sound l) (e : Exclusive l)
    (m : Moves l l' name deed before after) :
    InTurn l' ∧
      l'.accepted.map Frame.encode = l.accepted.map Frame.encode ++ deed.accepts?.toList := by
  cases hat : deed.before Call.isAtFrame with
  | true =>
    obtain ⟨cause, next⟩ := deed
    cases cause with
    | start _ => cases hat
    | goOn call input => exact t.moved_atFrame s e hat m
  | false =>
    obtain ⟨hturn, haccepted⟩ := t.moved_aside s e m hat
    have hnone : deed.accepts? = none := by
      apply Deed.accepts?_of_ne
      intro framed input hcause
      rw [Deed.before, hcause] at hat
      cases hat
    rw [haccepted, hnone, Option.toList_none, List.append_nil]
    exact ⟨hturn, rfl⟩

end Moved

theorem Reachable.inTurn {l : Ledger α} (h : Reachable l) : InTurn l := by
  induction h with
  | start pid tuning => exact ⟨List.nodup_nil, by simp [calls]⟩
  | @spawn l _ ih =>
    refine ⟨ih.distinct, ?_⟩
    rw [calls_spawn]
    exact ih.last
  | @next l l' thread move hr hn ih =>
    obtain ⟨name, deed, before, after, hm⟩ := moves_of_next hn
    exact (ih.moved hr.sound hr.exclusive hm).1

/-- A send has the handle for the payload that it was asked to send. -/
theorem Sound.acquired_opens {l : Ledger α} (s : Sound l) {name : Nat} {payload : Bytes}
    (h : (name, payload) ∈ l.acquired) : Opens (l.deeds name) (.send (.ok payload)) := by
  obtain ⟨d, hd, hacquires⟩ := mem_acquired.mp h
  obtain ⟨_, ht, _⟩ := s.underWay name (List.ne_nil_of_mem hd)
  exact (ht.acquired hd hacquires).1

/-- A send that has been reported as done has had the handle. -/
theorem Sound.acquired_of_sent {l : Ledger α} (s : Sound l) {name : Nat}
    (h : l.fate name = some (.ends (.sent (.ok ())))) :
    ∃ payload, (name, payload) ∈ l.acquired := by
  obtain ⟨d, hd, payload, hacquires⟩ := (s.trail_of_fate h).acquires_of_sent
  exact ⟨payload, mem_acquired.mpr ⟨d, hd, hacquires⟩⟩

section Moved

variable {l l' : Ledger α} {name : Nat} {deed : Deed α} {before after : List (Named α)}

/-- What has become of a call that is over does not change. -/
theorem Sound.fate_of_over (s : Sound l) (m : Moves l l' name deed before after) {n : Nat}
    {next : Next α} (fate : l.fate n = some next) (ended : ∀ call, next ≠ .goesOn call) :
    l'.fate n = some next := by
  by_cases he : n = name
  · subst he
    cases m.does with
    | starts _ =>
      rw [Ledger.fate, m.fresh _ rfl, s.deeds_fresh] at fate
      cases fate
    | @goesOn call _ _ _ _ =>
      rw [Ledger.fate, (s.trail _ m.self_mem).last] at fate
      cases fate
      exact False.elim (ended call rfl)
  · rw [m.fate_other he, fate]

theorem Sound.failed_of_failed (s : Sound l) (m : Moves l l' name deed before after) {n : Nat}
    (failed : l.Failed n) : l'.Failed n := by
  obtain ⟨error, hfate, herror⟩ := failed
  exact ⟨error, s.fate_of_over m hfate (by simp), herror⟩

/-- Only a send that was at its frame fails. -/
theorem Moves.failed_of_aside (m : Moves l l' name deed before after)
    (aside : ∀ framed input, deed.cause ≠ .goOn (.sending framed) input) {n : Nat}
    (failed : l'.Failed n) : l.Failed n := by
  obtain ⟨error, hfate, herror⟩ := failed
  by_cases he : n = name
  · subst he
    rw [m.fate_self] at hfate
    have hnext := Option.some.inj hfate
    have hdoes := m.does
    generalize l'.connection = c' at hdoes
    cases hdoes with
    | starts hs =>
      cases hnext
      cases hs
      rcases herror with ⟨_, he⟩ | ⟨_, _, he⟩ <;> cases he
    | goesOn hg =>
      cases hnext
      generalize hn : Next.ends (Outcome.sent (Except.error error)) = next at hg
      cases hg with
      | lacksMemory _ =>
        cases hn
        rcases herror with ⟨_, he⟩ | ⟨_, _, he⟩ <;> cases he
      | lacksHandle _ _ =>
        cases hn
        rcases herror with ⟨_, he⟩ | ⟨_, _, he⟩ <;> cases he
      | wrote => exact False.elim (aside _ _ rfl)
      | dispatches hd =>
        rw [← hn] at hd
        obtain ⟨_, _, ⟨_, ho⟩ | ⟨_, ho⟩⟩ := hd.ends <;> cases ho
      | takesHandle _ _ | frames _ | cancels _ _ | skipsCancel _ _ | cancelled | sendRaises
      | cancelRaises => cases hn
  · exact ⟨error, by rw [← m.fate_other he, hfate], herror⟩

end Moved

end Ledger

end WorkerLink
