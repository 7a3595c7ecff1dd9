import WorkerLink.Proofs.Connection.Cleanup
import WorkerLink.Proofs.Connection.HostLock
import WorkerLink.Proofs.Connection.Sends

/-!
# Calls within calls

Where one thread does everything, the calls under way are one stack: a call that
is made while the handle or the receiver is at work is over before these go on.
So a call leaves the stack as it has found it, however it ends
(`Performs.stack_eq`), and with the stack the mark of the handle. A wait on top
of the stack ends in vain if and only if somebody further down has the handle at
work for himself.
-/

namespace WorkerLink

variable {α : Type}

/-- A call that keeps the handle and waits for a collaborator has the handle at work. -/
theorem Call.isGuarded_of_isOutside {call : Call α} (holds : call.holdsHandle = true)
    (outside : call.isOutside = true) : call.isGuarded = true := by
  cases call with
  | sending _ => rfl
  | cancelling => rfl
  | framing _ => cases outside
  | awaitingSend _ | awaitingCancel => cases holds
  | dispatch run =>
    cases hs : run.stage <;>
      simp_all [isGuarded, isOutside, holdsHandle, request?, event?]

theorem Call.holdsHandle_of_waits {call : Call α} {tuning : Tuning}
    (waits : (call.wait? tuning).isSome = true) : call.holdsHandle = false := by
  rcases waits_cases waits with ⟨_, rfl⟩ | rfl | ⟨run, rfl, hs⟩
  · rfl
  · rfl
  · simp [holdsHandle, hs]

/-- A run that returns has done all that a run does towards its end. -/
theorem Trail.parts_of_ended [Memory] {deeds : List (Deed α)} {outcome : Outcome}
    (h : Trail deeds (.ends outcome)) (begun : Begun deeds) :
    (Stage.clearing : Stage α).Parts (partings deeds) := by
  obtain ⟨earlier, run, rfl, htrail, hs, -⟩ := h.of_ended begun
  have hparts := htrail.parts
  rw [hs] at hparts
  rw [partings_snoc]
  change (Stage.clearing : Stage α).Parts (partings earlier ++ [])
  rwa [List.append_nil]

namespace Ledger

def OneThread (l : Ledger α) : Prop := l.callStacks.length = 1

theorem OneThread.calls_eq {l : Ledger α} (h : l.OneThread) : l.calls = l.stack 0 := by
  obtain ⟨calls, hcalls⟩ := List.length_eq_one_iff.mp h
  simp [Ledger.calls, stack, hcalls]

/-- What another call does on top of the stack leaves a call further down in its place. -/
theorem Shifts.stays {l l' : Ledger α} {thread name : Nat} {move : Move α} {deed : Deed α}
    {below above rest : List (Named α)} {named : Named α}
    (h : Shifts l l' thread move name deed below) (other : named.name ≠ name)
    (stands : l.stack thread = above ++ named :: rest) :
    ∃ above', l'.stack thread = above' ++ named :: rest := by
  obtain ⟨above', hbelow⟩ : ∃ above', below = above' ++ named :: rest := by
    have hfound := h.found.symm.trans stands
    unfold Deed.found at hfound
    split at hfound
    · exact ⟨above, hfound⟩
    · cases above with
      | nil => exact absurd (congrArg Named.name (List.cons.inj hfound).1.symm) other
      | cons _ above => exact ⟨above, (List.cons.inj hfound).2⟩
  exact ⟨deed.left name ++ above', by rw [h.left, hbelow, List.append_assoc]⟩

theorem length_spawn (l : Ledger α) : l.spawn.callStacks.length = l.callStacks.length + 1 :=
  List.length_append

theorem OneThread.thread_eq [Memory] {l l' : Ledger α} {thread : Nat} {move : Move α}
    (h : l.OneThread) (next : l.next thread move = some l') : thread = 0 := by
  have hwithin := within_of_next next
  unfold OneThread at h
  omega

variable [Memory]

/-- There is no going back to fewer threads. -/
theorem Reaches.threads_le {l l' : Ledger α} (h : l.Reaches l') :
    l.callStacks.length ≤ l'.callStacks.length := by
  induction h with
  | refl => exact Nat.le_refl _
  | spawn _ ih =>
    rw [length_spawn]
    omega
  | next _ hn ih =>
    rw [callStacks_length hn]
    exact ih

/-- Along a run that ends with one thread, there was one all the time. -/
theorem Reaches.oneThread {l₀ l₁ l : Ledger α} {thread : Nat} {move : Move α}
    (h : l₁.Reaches l) (next : l₀.next thread move = some l₁) (one : l.OneThread) :
    l₀.OneThread := by
  have hle := h.threads_le
  have hwithin := within_of_next next
  rw [callStacks_length next] at hle
  unfold OneThread at one ⊢
  omega

theorem Reaches.not_alone {l₀ l₁ l : Ledger α} {thread : Nat} {move : Move α}
    (h : l₁.Reaches l) (next : l₀.next thread move = some l₁) : ¬ l.spawn.OneThread := by
  have hle := h.threads_le
  have hwithin := within_of_next next
  rw [callStacks_length next] at hle
  rw [OneThread, length_spawn]
  omega

/-- A call with a name from before goes on. -/
theorem Sound.goesOn_of_named {l l' : Ledger α} {name : Nat} {deed : Deed α}
    {before after : List (Named α)} (s : Sound l) (m : Moves l l' name deed before after)
    (old : name < l.history.length) :
    ∃ call input, deed.cause = .goOn call input ∧ l.fate name = some (.goesOn call) := by
  have hfate := s.fate_of_cause m
  have hfresh := m.fresh
  generalize deed.cause = cause at hfate hfresh ⊢
  cases cause with
  | start operation => exact absurd (hfresh operation rfl) (Nat.ne_of_lt old)
  | goOn call input => exact ⟨call, input, rfl, hfate⟩

/-- A call on the one stack stands on what is below it, and on nothing else. -/
theorem OneThread.below_eq {l : Ledger α} (one : l.OneThread) (s : Sound l) {named : Named α}
    {above below above' below' : List (Named α)} (h : l.stack 0 = above ++ named :: below)
    (h' : l.stack 0 = above' ++ named :: below') : below = below' := by
  have hdistinct := s.distinct.of_map
  rw [one.calls_eq, h] at hdistinct
  have hnot := (List.nodup_cons.mp (List.nodup_middle.mp hdistinct)).1
  rw [List.mem_append, not_or] at hnot
  exact ((List.append_cons_inj_of_notMem hnot.1 hnot.2).mp (h.symm.trans h')).2.2

/-- A call that has been started has a name from before. -/
theorem Reaches.named_lt {l₀ l₁ l : Ledger α} {thread : Nat} {operation : Operation α}
    (h : l₁.Reaches l) (starts : l₀.next thread (.start operation) = some l₁) :
    l₀.history.length < l.history.length := by
  obtain ⟨_, _, _, hm, _⟩ := starts_of_next starts
  obtain ⟨since, hsince⟩ := h.exists_since
  rw [hsince, hm.history, List.length_append, List.length_append, List.length_singleton]
  omega

/-- Where the call that has been started in `l₀` goes on, it stands on the calls that were under way
before it. -/
def StandsOn (l₀ l : Ledger α) : Prop :=
  ∀ call, l.fate l₀.history.length = some (.goesOn call) →
    ∃ above, l.stack 0 = above ++ ⟨l₀.history.length, call⟩ :: l₀.stack 0

/-- When that call moves, it moves right on top of them. -/
theorem StandsOn.below_eq {l₀ l l' : Ledger α} {move : Move α} {deed : Deed α}
    {before after below : List (Named α)} (h : l₀.StandsOn l) (one : l.OneThread) (s : Sound l)
    (old : l₀.history.length < l.history.length)
    (m : Moves l l' l₀.history.length deed before after)
    (shifts : Shifts l l' 0 move l₀.history.length deed below) : below = l₀.stack 0 := by
  obtain ⟨call, input, hcause, hgoes⟩ := s.goesOn_of_named m old
  obtain ⟨above, habove⟩ := h call hgoes
  have hnewest : l.stack 0 = [] ++ ⟨l₀.history.length, call⟩ :: below := by
    rw [shifts.found, Deed.found, hcause]
    rfl
  exact one.below_eq s hnewest habove

theorem Reaches.standsOn {l₀ l₁ l : Ledger α} {operation : Operation α} (h : l₁.Reaches l)
    (r : l₀.Reachable) (starts : l₀.next 0 (.start operation) = some l₁) (one : l.OneThread) :
    l₀.StandsOn l := by
  induction h with
  | refl =>
    intro call goes
    obtain ⟨next, before, after, hm, hs⟩ := starts_of_next starts
    rw [hm.fate_self] at goes
    cases goes
    exact ⟨[], hs.left⟩
  | spawn hreaches _ => exact absurd one (hreaches.not_alone starts)
  | @next l' l thread move hreaches hn ih =>
    intro call goes
    have hone : l'.OneThread := (callStacks_length hn).symm.trans one
    obtain rfl := hone.thread_eq hn
    have hsound := (hreaches.reachable (r.next starts)).sound
    obtain ⟨name, deed, before, after, below, hm, hs⟩ := shifts_of_next hn
    by_cases hself : l₀.history.length = name
    · subst hself
      rw [hm.fate_self] at goes
      refine ⟨[], ?_⟩
      rw [hs.left, Deed.left, Option.some.inj goes,
        (ih hone).below_eq hone hsound (hreaches.named_lt starts) hm hs]
      rfl
    · rw [hm.fate_other hself] at goes
      obtain ⟨above, habove⟩ := ih hone call goes
      exact hs.stays hself habove

/-- The one thread carries out an operation between `l₀` and `l`: the call starts with the first
move and is over with the last one. -/
structure Performs (l₀ : Ledger α) (operation : Operation α) (l : Ledger α) : Prop where
  starts : ∃ l₁, l₀.next 0 (.start operation) = some l₁ ∧ l₁.Reaches l
  last : l.history.getLast?.map Prod.fst = some l₀.history.length
  ended : ∀ call, l.fate l₀.history.length ≠ some (.goesOn call)
  alone : l.OneThread

theorem Performs.reachable {l₀ l : Ledger α} {operation : Operation α}
    (h : l₀.Performs operation l) (r : l₀.Reachable) : l.Reachable := by
  obtain ⟨l₁, hstart, hreaches⟩ := h.starts
  exact hreaches.reachable (r.next hstart)

theorem Performs.oneThread {l₀ l : Ledger α} {operation : Operation α}
    (h : l₀.Performs operation l) : l₀.OneThread := by
  obtain ⟨l₁, hstart, hreaches⟩ := h.starts
  exact hreaches.oneThread hstart h.alone

/-- The move with which a call is over leaves nothing of it. -/
theorem Performs.left_eq_nil {l₀ l l' : Ledger α} {operation : Operation α} {name : Nat}
    {deed : Deed α} {before after : List (Named α)} (h : l₀.Performs operation l)
    (m : Moves l' l name deed before after) : name = l₀.history.length ∧ deed.left name = [] := by
  have hlast := h.last
  rw [m.history, List.getLast?_concat] at hlast
  obtain rfl : name = l₀.history.length := Option.some.inj hlast
  refine ⟨rfl, ?_⟩
  have hover := h.ended
  rw [m.fate_self] at hover
  unfold Deed.left
  split
  · next call hcall => exact absurd (congrArg some hcall) (hover call)
  · rfl
  · rfl

/-- A call leaves the stack as it has found it, be it done or unwound. -/
theorem Performs.stack_eq {l₀ l : Ledger α} {operation : Operation α}
    (h : l₀.Performs operation l) (r : l₀.Reachable) : l.stack 0 = l₀.stack 0 := by
  obtain ⟨l₁, hstart, hreaches⟩ := h.starts
  have hone := h.alone
  cases hreaches with
  | refl =>
    obtain ⟨next, before, after, hm, hs⟩ := starts_of_next hstart
    rw [hs.left, (h.left_eq_nil hm).2, List.nil_append]
  | spawn hreaches => exact absurd hone (hreaches.not_alone hstart)
  | @next l' _ thread move hreaches hn =>
    have hone' : l'.OneThread := (callStacks_length hn).symm.trans hone
    obtain rfl := hone'.thread_eq hn
    have hsound := (hreaches.reachable (r.next hstart)).sound
    obtain ⟨name, deed, before, after, below, hm, hs⟩ := shifts_of_next hn
    obtain ⟨rfl, hleft⟩ := h.left_eq_nil hm
    have hstands := hreaches.standsOn r hstart hone'
    rw [hs.left, hleft, List.nil_append,
      hstands.below_eq hone' hsound (hreaches.named_lt hstart) hm hs]

theorem Performs.busy_eq {l₀ l : Ledger α} {operation : Operation α}
    (h : l₀.Performs operation l) (r : l₀.Reachable) :
    l.connection.slot.busy = l₀.connection.slot.busy := by
  have hbefore := r.exclusive
  have hafter := (h.reachable r).exclusive
  unfold Exclusive at hbefore hafter
  rw [h.oneThread.calls_eq] at hbefore
  rw [h.alone.calls_eq, h.stack_eq r, hbefore] at hafter
  have hinjective : ∀ a b : Bool, a.toNat = b.toNat → b = a := by decide
  exact hinjective _ _ hafter

/-- The one thread is inside a use of the handle that keeps all others out. -/
def UnderGuard (l : Ledger α) : Prop := ∃ named ∈ l.stack 0, named.call.isGuarded = true

/-- The newest call of the one thread tries to get the handle. -/
structure Tries (l : Ledger α) (call : Call α) : Prop where
  waits : (call.wait? l.connection.tuning).isSome = true
  newest : ∃ name below, l.stack 0 = ⟨name, call⟩ :: below
  alone : l.OneThread

/-- While a call tries to get the handle, it is marked busy exactly where the thread is inside a
guarded use of it. -/
theorem Tries.busy_iff {l : Ledger α} {call : Call α} (h : l.Tries call) (r : l.Reachable) :
    l.connection.slot.busy = true ↔ l.UnderGuard := by
  obtain ⟨name, below, hstack⟩ := h.newest
  have hexclusive := r.exclusive
  constructor
  · intro hbusy
    rw [Exclusive, hbusy] at hexclusive
    obtain ⟨named, hmem, hholds⟩ := List.countP_pos_iff.mp
      (hexclusive.symm ▸ Nat.zero_lt_one : 0 < l.calls.countP holds)
    rw [h.alone.calls_eq] at hmem
    have hbelow : named ∈ below := by
      rw [hstack] at hmem
      rcases List.mem_cons.mp hmem with rfl | hbelow
      · cases (Call.holdsHandle_of_waits h.waits).symm.trans hholds
      · exact hbelow
    have houtside := r.nested 0 named (by rw [hstack]; exact hbelow)
    exact ⟨named, hmem, Call.isGuarded_of_isOutside hholds houtside⟩
  · rintro ⟨named, hmem, hguarded⟩
    by_contra hfree
    have hnot := hexclusive.free (Bool.of_not_eq_true hfree) (mem_calls_of_stack hmem)
    cases hnot.symm.trans (Call.holdsHandle_of_isGuarded hguarded)

/-- Nothing but the place of the handle stands in the way of a call that tries to get it. -/
theorem Tries.exists_next {l : Ledger α} {call : Call α} (h : l.Tries call) {input : Input}
    (may : input.mayEndWait l.connection.slot = true) :
    ∃ l', l.next 0 (.goOn input) = some l' := by
  obtain ⟨name, below, hstack⟩ := h.newest
  rw [← Call.step_isSome_of_wait h.waits] at may
  obtain ⟨s, hs⟩ := Option.isSome_iff_exists.mp may
  obtain ⟨l', hnext, _⟩ := exists_next_of_wait hstack h.waits hs
  exact ⟨l', hnext⟩

/-- A call gets the handle, where it is, exactly if the thread is not inside a guarded use of it; and
otherwise its time runs out. -/
theorem Tries.settles {l : Ledger α} {call : Call α} (h : l.Tries call) (r : l.Reachable)
    (there : l.connection.slot.present = true) {input : Input} {s : Step α}
    (step : call.step l.connection input = some s) :
    (Call.Admitted { l.connection with slot := { l.connection.slot with busy := true } } call s ↔
      ¬ l.UnderGuard) ∧
    (Call.TurnedAway l.connection .timedOut call s ↔ l.UnderGuard) := by
  obtain ⟨_, htimedOut, hadmitted⟩ := Call.step_of_wait h.waits step
  rw [htimedOut, hadmitted, ← h.busy_iff r]
  simp only [there, true_and, Bool.not_eq_true, and_self]

/-- A call that the receiver of a run makes finds the handle in its place, and free unless the run
was started inside a guarded use of it. -/
theorem Tries.of_callback {l₀ l₁ l : Ledger α} {operation : Operation α} {run : Dispatch α}
    {event : Event α} {call : Call α} {name : Nat} {below : List (Named α)} (h : l.Tries call)
    (r : l₀.Reachable) (starts : l₀.next 0 (.start operation) = some l₁) (reaches : l₁.Reaches l)
    (stack : l.stack 0 = ⟨name, call⟩ :: ⟨l₀.history.length, .dispatch run⟩ :: below)
    (tells : run.stage = .notifying event) (apart : ¬ l₀.UnderGuard) :
    l.connection.slot.present = true ∧ ¬ l.UnderGuard := by
  have hreachable := reaches.reachable (r.next starts)
  have hmem : ⟨l₀.history.length, .dispatch run⟩ ∈ l.stack 0 := by
    rw [stack]
    exact .tail _ (.head _)
  have hunder := mem_calls_of_stack hmem
  have hevent : (Call.dispatch run).event? = some event := Call.event?_eq_some.mpr ⟨run, rfl, tells⟩
  have hthere : l.connection.slot.present = true := by
    have hopen := (hreachable.done_of_event hunder hevent).2
    simpa [Connection.isClosed] using hopen
  refine ⟨hthere, ?_⟩
  have hgoes : l.fate l₀.history.length = some (.goesOn (.dispatch run)) :=
    (hreachable.sound.trail _ hunder).last
  obtain ⟨above, habove⟩ := reaches.standsOn r starts h.alone _ hgoes
  have hstack : l.stack 0 = [⟨name, call⟩] ++ ⟨l₀.history.length, .dispatch run⟩ :: below := stack
  have hbelow := h.alone.below_eq hreachable.sound hstack habove
  rintro ⟨named, hnamed, hguarded⟩
  rw [stack, hbelow] at hnamed
  rcases List.mem_cons.mp hnamed with rfl | hnamed
  · cases (Call.holdsHandle_of_waits h.waits).symm.trans (Call.holdsHandle_of_isGuarded hguarded)
  · rcases List.mem_cons.mp hnamed with rfl | hold
    · simp [Call.isGuarded, Call.request?, tells] at hguarded
    · exact apart ⟨named, hold, hguarded⟩

/-- A call does what it has been started for. -/
theorem Reaches.opens {l₀ l₁ l : Ledger α} {thread : Nat} {operation : Operation α}
    (h : l₁.Reaches l) (r : l₀.Reachable) (starts : l₀.next thread (.start operation) = some l₁) :
    Opens (l.deeds l₀.history.length) operation := by
  obtain ⟨next, _, _, hm, _⟩ := starts_of_next starts
  apply h.opens_of_opens
  rw [hm.deeds_self, r.sound.deeds_fresh]
  exact ⟨next, rfl⟩

/-- A guarded use of the handle goes on while it is in its place. -/
theorem UnderGuard.isOpen {l : Ledger α} (h : l.UnderGuard) (r : l.Reachable) :
    l.connection.isClosed = false := by
  obtain ⟨named, hmem, hguarded⟩ := h
  by_contra hclosed
  have hgone : l.connection.slot.present = false := by simpa [Connection.isClosed] using hclosed
  have hnone := ((r.retired hgone).spent named (mem_calls_of_stack hmem)).request?_eq_none
  rw [Call.isGuarded, hnone] at hguarded
  cases hguarded

/-- A dispatch that was started inside a guarded use of the handle and returns has left the handle
alone. -/
theorem Performs.abandons {l₀ l : Ledger α} {codec : Codec α} {host : Host} {outcome : Outcome}
    (h : l₀.Performs (.dispatch codec host) l) (r : l₀.Reachable) (guarded : l₀.UnderGuard)
    (returned : l.fate l₀.history.length = some (.ends outcome)) :
    l.connection.isClosed = false ∧
    (l.Begun l₀.history.length →
      l.partings l₀.history.length = [.tells, .abandons] ∧ l.closeCalls = 0) ∧
    (¬ l.Begun l₀.history.length → outcome = .dispatched (.error .alreadyRunning) ∨
      outcome = .dispatched (.error .closed)) := by
  have hreachable := h.reachable r
  obtain ⟨l₁, hstart, hreaches⟩ := h.starts
  have htrail := hreachable.sound.trail_of_fate returned
  have hopen : l.connection.isClosed = false := by
    refine UnderGuard.isOpen ?_ hreachable
    rw [UnderGuard, h.stack_eq r]
    exact guarded
  refine ⟨hopen, fun begun => ?_, htrail.refused (hreaches.opens r hstart)⟩
  cases hreachable.settled begun (htrail.parts_of_ended begun) with
  | closed _ _ hclosed => cases hopen.symm.trans hclosed
  | abandoned hpartings _ _ hcalls _ => exact ⟨hpartings, hcalls⟩

/-- On one thread every call, be it done or unwound, leaves the calls under way and the mark of the
handle as it has found them. A call that tries to get the handle can always go on; while the handle
is in its place, the call gets it unless the thread is inside a guarded use of it, and then its time
runs out. So what the receiver of a run does gets the handle at once, if the run was not started
inside such a use. If it was and it returns, it leaves the handle alone. -/
theorem calls_balance {l₀ : Ledger α} (reachable : l₀.Reachable) :
    (∀ operation l, l₀.Performs operation l →
      l.stack 0 = l₀.stack 0 ∧ l.connection.slot.busy = l₀.connection.slot.busy) ∧
    (∀ call, l₀.Tries call → l₀.connection.slot.present = true →
      (∃ l, l₀.next 0 (.goOn .timeUp) = some l) ∧
      ∀ input s, call.step l₀.connection input = some s →
        (Call.Admitted { l₀.connection with slot := { l₀.connection.slot with busy := true } }
          call s ↔ ¬ l₀.UnderGuard) ∧
        (Call.TurnedAway l₀.connection .timedOut call s ↔ l₀.UnderGuard)) ∧
    (∀ operation l₁ l name call run event below, l₀.next 0 (.start operation) = some l₁ →
      l₁.Reaches l → ¬ l₀.UnderGuard → l.Tries call →
      l.stack 0 = ⟨name, call⟩ :: ⟨l₀.history.length, .dispatch run⟩ :: below →
      run.stage = .notifying event →
      (∃ l', l.next 0 (.goOn .proceed) = some l') ∧
      ∀ input s, call.step l.connection input = some s →
        Call.Admitted { l.connection with slot := { l.connection.slot with busy := true } }
          call s) ∧
    (∀ codec host l outcome, l₀.Performs (.dispatch codec host) l → l₀.UnderGuard →
      l.fate l₀.history.length = some (.ends outcome) →
      l.connection.isClosed = false ∧
      (l.Begun l₀.history.length →
        l.partings l₀.history.length = [.tells, .abandons] ∧ l.closeCalls = 0) ∧
      (¬ l.Begun l₀.history.length → outcome = .dispatched (.error .alreadyRunning) ∨
        outcome = .dispatched (.error .closed))) := by
  refine ⟨?_, ?_, ?_, ?_⟩
  · exact fun operation l h => ⟨h.stack_eq reachable, h.busy_eq reachable⟩
  · intro call htries there
    exact ⟨htries.exists_next rfl, fun input s hs => htries.settles reachable there hs⟩
  · intro operation l₁ l name call run event below hstart hreaches apart htries hstack htells
    have hreachable := hreaches.reachable (reachable.next hstart)
    obtain ⟨there, hapart⟩ := htries.of_callback reachable hstart hreaches hstack htells apart
    have hfree : l.connection.slot.busy = false := by
      rw [Bool.eq_false_iff, ne_eq, htries.busy_iff hreachable]
      exact hapart
    refine ⟨htries.exists_next ?_, fun input s hs => ?_⟩
    · simp [Input.mayEndWait, Slot.mustWait, hfree]
    · exact (htries.settles hreachable there hs).1.mpr hapart
  · exact fun codec host l outcome h guarded returned => h.abandons reachable guarded returned

end Ledger

end WorkerLink

namespace WorkerLink.Ledger

attribute [local instance] Memory.kilobyte

/-- A dispatch while the handle cancels its read. Its receiver tries a send, in vain, and the dispatch
leaves the handle alone. Then the handle raises an exception, and the shutdown is unwound. -/
theorem calls_balance_inside_a_cancel : ∃ l₀ l l' : Ledger Unit, l₀.Reachable ∧ l₀.UnderGuard ∧
    l₀.Performs (.dispatch ⟨fun _ => .ok (), fun _ => .ok []⟩ .unserialized) l ∧
    l.fate 9 = some (.ends (.sent (.error (.unavailable .timedOut)))) ∧
    l.connection.slot.busy = true ∧ l.partings 2 = [.tells, .abandons] ∧
    Ledger.Performs { connection := .start 7 {} } .shutdown l' ∧ l'.fate 0 = some .unwinds ∧
    l'.connection.slot.busy = false := by
  obtain ⟨l₁, hcancel, l₀, hl₀, hguarded, hlength, hbusy, l₂, hdispatch, l, hl, hone, hlast, hbegun,
      ⟨outcome, hreturned⟩, hsend, l', hl', hone', hlast', hunwound⟩ : ∃ l₁,
      Ledger.next (α := Unit) { connection := .start 7 {} } 0 (.start .shutdown) = some l₁ ∧
      ∃ l₀, l₁.follow [(0, .goOn .proceed)] = some l₀ ∧ l₀.UnderGuard ∧ l₀.history.length = 2 ∧
        l₀.connection.slot.busy = true ∧
      ∃ l₂, l₀.next 0 (.start (.dispatch ⟨fun _ => .ok (), fun _ => .ok []⟩ .unserialized)) =
        some l₂ ∧
      ∃ l, l₂.follow [(0, .goOn .proceed), (0, .goOn .proceed), (0, .goOn .proceed),
          (0, .goOn (.alive false)), (0, .goOn .proceed), (0, .goOn .proceed),
          (0, .start (.send (.ok []))), (0, .goOn .timeUp), (0, .goOn .returned),
          (0, .goOn .timeUp), (0, .goOn .proceed)] = some l ∧
        l.OneThread ∧ l.history.getLast?.map Prod.fst = some 2 ∧ l.Begun 2 ∧
        (∃ outcome, l.fate 2 = some (.ends outcome)) ∧
        l.fate 9 = some (.ends (.sent (.error (.unavailable .timedOut)))) ∧
      ∃ l', l.follow [(0, .goOn .raised)] = some l' ∧ l'.OneThread ∧
        l'.history.getLast?.map Prod.fst = some 0 ∧ l'.fate 0 = some .unwinds := by
    refine ⟨_, rfl, _, rfl, ⟨_, .head _, rfl⟩, rfl, rfl, _, rfl, _, rfl, rfl, rfl, ?_, ⟨_, rfl⟩, rfl,
      _, rfl, rfl, rfl, rfl⟩
    exact ⟨_, .tail _ (.tail _ (.head _)), _, rfl, nofun⟩
  have start : Ledger.Reachable (α := Unit) { connection := .start 7 {} } := .start 7 {}
  have hr := (start.next hcancel).follow hl₀
  have hinner : l₀.Performs (.dispatch ⟨fun _ => .ok (), fun _ => .ok []⟩ .unserialized) l := by
    refine ⟨⟨l₂, hdispatch, reaches_follow hl⟩, ?_, ?_, hone⟩
    · rw [hlength]
      exact hlast
    · rw [hlength, hreturned]
      simp
  have houter : Ledger.Performs { connection := .start 7 {} } .shutdown l' := by
    refine ⟨⟨l₁, hcancel, ?_⟩, hlast', ?_, hone'⟩
    · have hbefore := ((reaches_follow hl₀).next hdispatch).trans (reaches_follow hl)
      exact hbefore.trans (reaches_follow hl')
    · intro call hgoes
      cases hunwound.symm.trans hgoes
  obtain ⟨hbalance, _, _, habandons⟩ := calls_balance hr
  have hparts := (habandons _ _ _ _ hinner hguarded (by rw [hlength]; exact hreturned)).2.1
  rw [hlength] at hparts
  refine ⟨l₀, l, l', hr, hguarded, hinner, hsend, ?_, (hparts hbegun).1, houter, hunwound, ?_⟩
  · exact (hbalance _ _ hinner).2.trans hbusy
  · exact ((calls_balance start).1 _ _ houter).2

end WorkerLink.Ledger
