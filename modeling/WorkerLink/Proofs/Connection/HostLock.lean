import WorkerLink.Proofs.Connection.Access
import WorkerLink.Proofs.Connection.HostSections

/-!
# The lock of the host

Other threads take the lock of a host, too, and give it back as they like
(`Shared`). What a call shows is the same whatever they do: but for the lock, its
ledger is one that the calls alone have brought about (`Shared.exists_reachable`).

A dispatch enters its host only where the lock is free, and leaves it before
anything else. Where a thread that runs a dispatch under the lock does not take it
for itself (`Hosted`), it has the lock exactly while its receiver is at work.
-/

namespace WorkerLink

variable {α : Type}

/-- What a step of a thread does to the lock, by whether its call is inside before and after. -/
inductive LockStep (thread : Nat) (before after : Bool) (holder holder' : Option Nat) : Prop
  | leaves : before = true → holder' = none → LockStep thread before after holder holder'
  | enters : before = false → after = true → holder = none → holder' = some thread →
      LockStep thread before after holder holder'
  | keeps : before = false → after = false → holder' = holder →
      LockStep thread before after holder holder'

theorem Call.Starts.not_holdsHost {c c' : Connection} {operation : Operation α} {call : Call α}
    (h : Starts c operation c' (.goesOn call)) : Machine.holdsHost call = false := by
  cases h with
  | sends => rfl
  | shutsDown => rfl
  | dispatches _ => exact Machine.not_holdsHost nofun

theorem Call.Starts.locked {c c' : Connection} {operation : Operation α} {run : Dispatch α}
    (h : Starts c operation c' (.goesOn (.dispatch run))) (locked : run.host = .locked) :
    ∃ codec, Cause.start operation = .start (.dispatch codec .locked) := by
  cases h with
  | dispatches _ =>
    obtain rfl := locked
    exact ⟨_, rfl⟩

theorem Deed.name_of_mem_found {d : Deed α} {name : Nat} {named : Named α}
    (h : named ∈ d.found name) : named.name = name := by
  unfold found at h
  split at h
  · cases h
  · rw [List.mem_singleton.mp h]

namespace Machine

theorem isLocked_iff {call : Call α} :
    isLocked call = true ↔ ∃ run, call = .dispatch run ∧ run.host = .locked := by
  cases call <;> simp [isLocked]

theorem hostAfter_eq (m : Machine α) (thread : Nat) (call : Call α) (s : Step α) :
    m.hostAfter thread call s = if holdsHost call then some none
      else if s.next.goesOnWith holdsHost then
        if m.hostHolder.isNone then some (some thread) else none
      else some m.hostHolder := by
  unfold hostAfter Next.goesOnWith
  cases s.next <;> rfl

theorem lockStep_of_hostAfter {m : Machine α} {thread : Nat} {call : Call α} {s : Step α}
    {holder : Option Nat} (h : m.hostAfter thread call s = some holder) :
    LockStep thread (holdsHost call) (s.next.goesOnWith holdsHost) m.hostHolder holder := by
  rw [hostAfter_eq] at h
  split at h
  · next hin =>
    cases h
    exact .leaves hin rfl
  · next hout =>
    rw [Bool.not_eq_true] at hout
    split at h
    · next henters =>
      split at h
      · next hfree =>
        cases h
        exact .enters hout henters (Option.isNone_iff_eq_none.mp hfree) rfl
      · cases h
    · next hstays =>
      cases h
      exact .keeps hout (Bool.not_eq_true _ ▸ hstays) rfl

/-- No call starts inside the lock. -/
theorem start_not_holdsHost (c : Connection) (operation : Operation α) :
    (Call.start c operation).next.goesOnWith holdsHost = false := by
  have hstarts := Call.starts_start c operation
  cases hn : (Call.start c operation).next with
  | goesOn call =>
    rw [hn] at hstarts
    exact hstarts.not_holdsHost
  | ends outcome => rfl
  | unwinds => rfl

/-- Where the lock is free, a step that could be taken can be taken all the same. -/
theorem hostAfter_unlocked {m : Machine α} {thread : Nat} {call : Call α} {s : Step α}
    {holder : Option Nat} (h : m.hostAfter thread call s = some holder) :
    ∃ holder', { m with hostHolder := none }.hostAfter thread call s = some holder' ∧
      (holder' = holder ∨ holder' = none ∧ holder = m.hostHolder) := by
  rw [hostAfter_eq]
  cases lockStep_of_hostAfter h with
  | leaves hin hfree => exact ⟨none, by rw [if_pos hin], .inl hfree.symm⟩
  | enters hout henters _ hholder =>
    refine ⟨some thread, ?_, .inl hholder.symm⟩
    rw [if_neg (by simp [hout]), if_pos henters]
    rfl
  | keeps hout hstays hsame =>
    refine ⟨none, ?_, .inr ⟨rfl, hsame⟩⟩
    rw [if_neg (by simp [hout]), if_neg (by simp [hstays])]

end Machine

/-- The handle or the codec is at work for the call. -/
def Call.isApart (call : Call α) : Bool :=
  call.request?.isSome || match call with
    | .dispatch run => match run.stage with
      | .decoding _ => true
      | _ => false
    | _ => false

theorem Call.event?_of_isApart {call : Call α} (h : call.isApart = true) : call.event? = none := by
  cases call with
  | dispatch run => cases hs : run.stage <;> simp [isApart, request?, event?, hs] at h ⊢
  | awaitingSend _ | framing _ | sending _ | awaitingCancel | cancelling => rfl

namespace Ledger

/-- What one move does to the stacks of the threads and to the lock. -/
structure Shifts (l l' : Ledger α) (thread : Nat) (move : Move α) (name : Nat) (deed : Deed α)
    (below : List (Named α)) : Prop where
  found : l.stack thread = deed.found name ++ below
  left : l'.stack thread = deed.left name ++ below
  others : ∀ t, t ≠ thread → l'.stack t = l.stack t
  lock : LockStep thread (deed.before Machine.holdsHost)
      (deed.after Machine.holdsHost) l.hostHolder l'.hostHolder
  starts : ∀ operation, deed.cause = .start operation → move = .start operation

theorem shifts_of_settle {l : Ledger α} {thread name : Nat} {move : Move α} {deed : Deed α}
    {below : List (Named α)} {m : Machine α} (within : thread < l.callStacks.length)
    (found : l.stack thread = deed.found name ++ below)
    (lock : LockStep thread (deed.before Machine.holdsHost)
      (deed.after Machine.holdsHost) l.hostHolder m.hostHolder)
    (starts : ∀ operation, deed.cause = .start operation → move = .start operation) :
    Shifts l (l.settle thread name below m deed) thread move name deed below where
  found := found
  left := by
    have hset := stack_set l thread thread (deed.left name ++ below)
    rw [if_pos ⟨rfl, within⟩] at hset
    exact hset
  others := by
    intro t ne
    have hset := stack_set l thread t (deed.left name ++ below)
    rw [if_neg fun he => ne he.1.symm] at hset
    exact hset
  lock := lock
  starts := starts

theorem mem_calls_of_stack {l : Ledger α} {thread : Nat} {named : Named α}
    (h : named ∈ l.stack thread) : named ∈ l.calls := by
  by_cases hlt : thread < l.callStacks.length
  · rw [calls_split hlt]
    exact List.mem_append_right _ (List.mem_append_left _ h)
  · rw [stack, List.getElem?_eq_none (by omega)] at h
    cases h

/-- A call of the thread is inside, under the lock. -/
def Inside (l : Ledger α) (thread : Nat) : Prop :=
  ∃ named ∈ l.stack thread, Machine.holdsHost named.call = true

/-- A call under the lock is a dispatch that tells an event. -/
theorem dispatches_of_locked {l : Ledger α} {named : Named α} (under : named ∈ l.calls)
    (locked : Machine.isLocked named.call = true) : ∃ run, l.Dispatches named.name run := by
  obtain ⟨run, hcall, -⟩ := Machine.isLocked_iff.mp locked
  refine ⟨run, ?_⟩
  rw [Dispatches, ← hcall]
  exact under

theorem isLocked_of_holdsHost {call : Call α} (h : Machine.holdsHost call = true) :
    Machine.isLocked call = true := by
  rw [Machine.holdsHost, Bool.and_eq_true] at h
  exact h.1

/-- The thread has the lock and runs no dispatch under it. -/
def HoldsApart (l : Ledger α) (thread : Nat) : Prop :=
  l.hostHolder = some thread ∧ ∀ named ∈ l.stack thread, Machine.isLocked named.call = false

/-- The lock is free, or with a thread that runs no dispatch under it. -/
def LentOut (l : Ledger α) : Prop := ∀ thread, l.hostHolder = some thread → l.HoldsApart thread

def trace (l : Ledger α) (name : Nat) : List (Mark α) := WorkerLink.trace (l.deeds name)

end Ledger

variable [Memory]

namespace Deed

/-- No step goes from one section into another. -/
theorem Does.not_after_holdsHost {c c' : Connection} {d : Deed α} (h : d.Does c c')
    (before : d.before Machine.holdsHost = true) : d.after Machine.holdsHost = false := by
  cases h with
  | starts _ => cases before
  | @goesOn call _ _ next hg =>
    cases next with
    | ends outcome => rfl
    | unwinds => rfl
    | goesOn call' =>
      rw [Bool.eq_false_iff]
      intro hafter
      have hinside : call'.isInsideHost = true := (Bool.and_eq_true _ _ ▸ hafter : _ ∧ _).2
      obtain ⟨event, htells⟩ := Option.isSome_iff_exists.mp hinside
      have hout := hg.outside_of_event htells
      have hin : call.isInsideHost = true := (Bool.and_eq_true _ _ ▸ before : _ ∧ _).2
      rw [hout] at hin
      cases hin

end Deed

/-- No step puts a dispatch under the lock that was not under it. -/
theorem Call.Goes.isLocked {c c' : Connection} {call call' : Call α} {input : Input}
    (h : Goes c call input c' (.goesOn call')) (locked : Machine.isLocked call' = true) :
    Machine.isLocked call = true := by
  cases h with
  | takesHandle _ _ => cases locked
  | frames _ => cases locked
  | cancels _ _ => cases locked
  | @dispatches run _ _ _ hd =>
    obtain ⟨run', rfl, ha⟩ := hd.advances
    rwa [Machine.isLocked, ha.host] at locked

namespace Ledger

theorem shifts_of_next {l l' : Ledger α} {thread : Nat} {move : Move α}
    (h : l.next thread move = some l') : ∃ name deed before after below,
      Moves l l' name deed before after ∧ Shifts l l' thread move name deed below := by
  obtain ⟨name, deed, before, after, hm, _⟩ := moves_of_next_by h
  have hlt := within_of_next h
  have hhistory := hm.history
  cases move with
  | start operation =>
    obtain ⟨_, rfl⟩ := next_start_eq_some_iff.mp h
    cases List.append_cancel_left hhistory
    have hlock := Machine.start_not_holdsHost l.connection operation
    exact ⟨_, _, before, after, l.stack thread, hm,
      shifts_of_settle hlt rfl (.keeps rfl hlock rfl) (by simp)⟩
  | goOn input =>
    obtain ⟨_, call, below, s, holder, hstack, _, hlock, rfl⟩ := next_goOn_eq_some_iff.mp h
    cases List.append_cancel_left hhistory
    exact ⟨_, _, before, after, below, hm,
      shifts_of_settle hlt hstack (Machine.lockStep_of_hostAfter hlock) (by simp)⟩

/-- A start on a thread adds a call to the stack of the thread, unless the call ends at once. -/
theorem starts_of_next {l l' : Ledger α} {thread : Nat} {operation : Operation α}
    (h : l.next thread (.start operation) = some l') : ∃ next before after,
      Moves l l' l.history.length ⟨.start operation, next⟩ before after ∧
      Shifts l l' thread (.start operation) l.history.length ⟨.start operation, next⟩
        (l.stack thread) := by
  obtain ⟨name, deed, before, after, below, hm, hs⟩ := shifts_of_next h
  obtain ⟨name', deed', _, _, hm', hby⟩ := moves_of_next_by h
  have hsame := List.append_cancel_left (hm.history.symm.trans hm'.history)
  cases hsame
  rcases hby with ⟨operation', hmove, hcause⟩ | ⟨_, _, _, hmove, _, _⟩
  · cases hmove
    obtain ⟨cause, next⟩ := deed
    obtain rfl : cause = .start operation := hcause
    obtain rfl := hm.fresh operation rfl
    have hbelow : l.stack thread = below := hs.found
    rw [hbelow]
    exact ⟨next, before, after, hm, hs⟩
  · cases hmove

/-- A thread goes on with the newest call of its stack. -/
theorem goesOn_of_next {l l' : Ledger α} {thread : Nat} {input : Input}
    (h : l.next thread (.goOn input) = some l') : ∃ name call below next before after,
      l.stack thread = ⟨name, call⟩ :: below ∧
      Moves l l' name ⟨.goOn call input, next⟩ before after ∧
      Shifts l l' thread (.goOn input) name ⟨.goOn call input, next⟩ below := by
  obtain ⟨name, deed, before, after, below, hm, hs⟩ := shifts_of_next h
  obtain ⟨name', deed', _, _, hm', hby⟩ := moves_of_next_by h
  have hsame := List.append_cancel_left (hm.history.symm.trans hm'.history)
  cases hsame
  rcases hby with ⟨_, hmove, _⟩ | ⟨input', call, _, hmove, _, hcause⟩
  · cases hmove
  · cases hmove
    obtain ⟨cause, next⟩ := deed
    obtain rfl : cause = .goOn call input := hcause
    exact ⟨name, call, below, next, before, after, hs.found, hm, hs⟩

section Moved

variable {l l' : Ledger α} {thread : Nat} {move : Move α}

def Kept (l : Ledger α) : Prop := ∀ thread, l.hostHolder = some thread ↔ l.Inside thread

/-- After the one dispatch under the lock has left its host, nobody is inside. -/
theorem Moves.nobody_inside {name : Nat} {deed : Deed α} {before after : List (Named α)}
    (m : Moves l l' name deed before after) (sound : Sound l) (single : Single l)
    (leaves : deed.before Machine.holdsHost = true) (thread : Nat) : ¬ l'.Inside thread := by
  rintro ⟨named, hmem, hholds⟩
  rcases m.mem_calls_next.mp (mem_calls_of_stack hmem) with hside | hleft
  · obtain ⟨found, hfound, hlocked⟩ := (Deed.before_iff name).mp leaves
    obtain ⟨_, hself⟩ := dispatches_of_locked (m.mem_calls.mpr (.inr hfound))
      (isLocked_of_holdsHost hlocked)
    obtain ⟨_, hother⟩ := dispatches_of_locked (m.mem_calls.mpr (.inl hside))
      (isLocked_of_holdsHost hholds)
    have hsame := single.one _ _ _ _ hother hself
    exact sound.name_ne m hside (hsame.trans (Deed.name_of_mem_found hfound))
  · have hafter := (Deed.after_iff name).mpr ⟨named, hleft, hholds⟩
    rw [m.does.not_after_holdsHost leaves] at hafter
    cases hafter

theorem Kept.moved (k : Kept l) (sound : Sound l) (single : Single l)
    (h : l.next thread move = some l') : Kept l' := by
  obtain ⟨name, deed, before, after, below, hm, hs⟩ := shifts_of_next h
  intro t
  cases hs.lock with
  | leaves hbefore hfree =>
    rw [hfree]
    exact ⟨nofun, fun hinside => False.elim (hm.nobody_inside sound single hbefore t hinside)⟩
  | enters hbefore hafter hfree hholder =>
    rw [hholder]
    constructor
    · rintro ⟨⟩
      obtain ⟨named, hleft, hholds⟩ := (Deed.after_iff name).mp hafter
      exact ⟨named, by rw [hs.left]; exact List.mem_append_left _ hleft, hholds⟩
    · intro hinside
      by_cases he : t = thread
      · rw [he]
      · rw [Inside, hs.others t he] at hinside
        have hold := (k t).mpr hinside
        rw [hfree] at hold
        cases hold
  | keeps hbefore hafter hsame =>
    rw [hsame, k t]
    by_cases he : t = thread
    · subst he
      have hfound : ¬ ∃ named ∈ deed.found name, Machine.holdsHost named.call = true := by
        rw [← Deed.before_iff, hbefore]
        exact Bool.false_ne_true
      have hleft : ¬ ∃ named ∈ deed.left name, Machine.holdsHost named.call = true := by
        rw [← Deed.after_iff, hafter]
        exact Bool.false_ne_true
      simp only [Inside, hs.found, hs.left, List.mem_append, or_and_right, exists_or,
        or_iff_right hfound, or_iff_right hleft]
    · rw [Inside, Inside, hs.others t he]

theorem Reachable.kept (r : l.Reachable) : Kept l := by
  induction r with
  | start pid tuning =>
    intro t
    refine ⟨nofun, ?_⟩
    rintro ⟨named, hmem, -⟩
    cases mem_calls_of_stack hmem
  | @spawn l _ ih =>
    intro t
    rw [Inside, stack_spawn]
    exact ih t
  | next hr hn ih => exact ih.moved hr.sound hr.single hn

end Moved

theorem next_unlocked {l l' : Ledger α} {thread : Nat} {move : Move α}
    (h : l.next thread move = some l') :
    ∃ holder, { l with hostHolder := none }.next thread move =
        some { l' with hostHolder := holder } ∧
      (holder = l'.hostHolder ∨ holder = none ∧ l'.hostHolder = l.hostHolder) := by
  cases move with
  | start operation =>
    obtain ⟨hmay, rfl⟩ := next_start_eq_some_iff.mp h
    exact ⟨none, next_start_eq_some_iff.mpr ⟨hmay, rfl⟩, .inr ⟨rfl, rfl⟩⟩
  | goOn input =>
    obtain ⟨name, call, below, s, holder, hstack, hstep, hlock, rfl⟩ := next_goOn_eq_some_iff.mp h
    obtain ⟨holder', hlock', hholder⟩ := Machine.hostAfter_unlocked hlock
    refine ⟨holder', ?_, hholder⟩
    exact next_goOn_eq_some_iff.mpr ⟨name, call, below, s, holder', hstack, hstep, hlock', rfl⟩

/-- The newest call of a thread goes on with a step that the lock allows. -/
theorem exists_goOn {l : Ledger α} {thread name : Nat} {call : Call α} {below : List (Named α)}
    {input : Input} {s : Step α} {holder : Option Nat}
    (stack : l.stack thread = ⟨name, call⟩ :: below)
    (step : call.step l.connection input = some s)
    (lock : l.machine.hostAfter thread call s = some holder) :
    ∃ l', l.next thread (.goOn input) = some l' ∧ l'.connection = s.connection ∧
      l'.hostHolder = holder ∧
      l'.stack thread = Deed.left name ⟨.goOn call input, s.next⟩ ++ below ∧
      l'.history = l.history ++ [(name, ⟨.goOn call input, s.next⟩)] := by
  have hwithin : thread < l.callStacks.length := within_of_stack (by simp [stack])
  have hnext := next_goOn_eq_some_iff.mpr ⟨name, call, below, s, holder, stack, step, lock, rfl⟩
  have hset := stack_set l thread thread (Deed.left name ⟨.goOn call input, s.next⟩ ++ below)
  rw [if_pos ⟨rfl, hwithin⟩] at hset
  exact ⟨_, hnext, rfl, rfl, hset, rfl⟩

/-- A wait for the handle has nothing to do with a host, nor has what follows it. -/
theorem apart_from_host_of_wait {c : Connection} {call : Call α} {input : Input} {s : Step α}
    (waits : (call.wait? c.tuning).isSome = true) (step : call.step c input = some s) :
    Machine.holdsHost call = false ∧ s.next.goesOnWith Machine.holdsHost = false := by
  have hsettled := Call.settled_of_step waits step
  unfold Call.Settled at hsettled
  split at hsettled
  · cases hsettled with
    | send | cancel => exact ⟨rfl, rfl⟩
    | close hs => exact ⟨Machine.not_holdsHost (by simp [hs]), Machine.not_holdsHost nofun⟩
  · cases hsettled with
    | send | cancelClosed | cancelBusy => exact ⟨rfl, rfl⟩
    | closeClosed hs | closeBusy hs =>
      exact ⟨Machine.not_holdsHost (by simp [hs]), Machine.not_holdsHost nofun⟩

/-- The newest call of a thread, which waits for the handle, is no longer made to wait. -/
theorem exists_next_of_wait {l : Ledger α} {thread name : Nat} {call : Call α}
    {below : List (Named α)} {input : Input} {s : Step α}
    (stack : l.stack thread = ⟨name, call⟩ :: below)
    (waits : (call.wait? l.connection.tuning).isSome = true)
    (step : call.step l.connection input = some s) :
    ∃ l', l.next thread (.goOn input) = some l' ∧
      l'.stack thread = Deed.left name ⟨.goOn call input, s.next⟩ ++ below ∧
      l'.history = l.history ++ [(name, ⟨.goOn call input, s.next⟩)] := by
  obtain ⟨hbefore, hafter⟩ := apart_from_host_of_wait waits step
  have hlock : l.machine.hostAfter thread call s = some l.hostHolder := by
    rw [Machine.hostAfter_eq, hbefore, hafter]
    rfl
  obtain ⟨l', hnext, _, _, hstack, hhistory⟩ := exists_goOn stack step hlock
  exact ⟨l', hnext, hstack, hhistory⟩

/-- A thread without a call starts one. -/
theorem exists_start {l : Ledger α} {thread : Nat} (operation : Operation α)
    (within : thread < l.callStacks.length) (idle : l.stack thread = []) :
    ∃ l', l.next thread (.start operation) = some l' ∧
      l'.connection = (Call.start l.connection operation).connection ∧
      l'.hostHolder = l.hostHolder ∧
      l'.stack thread = Deed.left l.history.length
        ⟨.start operation, (Call.start l.connection operation).next⟩ ∧
      l'.history = l.history ++
        [(l.history.length, ⟨.start operation, (Call.start l.connection operation).next⟩)] := by
  have hmay : l.machine.mayStart thread = true := machine_mayStart.mpr ⟨within, by simp [idle]⟩
  have hset := stack_set l thread thread (Deed.left l.history.length
    ⟨.start operation, (Call.start l.connection operation).next⟩ ++ l.stack thread)
  rw [if_pos ⟨rfl, within⟩] at hset
  refine ⟨_, next_start_eq_some_iff.mpr ⟨hmay, rfl⟩, rfl, rfl, hset.trans ?_, rfl⟩
  rw [idle, List.append_nil]

/-- Where nobody else takes the lock, it is with a dispatch. -/
theorem Reachable.not_holdsApart {l : Ledger α} (r : l.Reachable) (thread : Nat) :
    ¬ l.HoldsApart thread := by
  rintro ⟨hholder, hnone⟩
  obtain ⟨named, hmem, hholds⟩ := (r.kept thread).mp hholder
  have hlocked := isLocked_of_holdsHost hholds
  rw [hnone named hmem] at hlocked
  cases hlocked

/-- There is one dispatch under the lock at most. -/
theorem Reachable.locked_unique {l : Ledger α} (r : l.Reachable) {a b : Named α}
    (ha : a ∈ l.calls) (hb : b ∈ l.calls) (locked_a : Machine.isLocked a.call = true)
    (locked_b : Machine.isLocked b.call = true) : a = b := by
  obtain ⟨_, hdispatches⟩ := dispatches_of_locked ha locked_a
  obtain ⟨_, hdispatches'⟩ := dispatches_of_locked hb locked_b
  have hname := r.single.one _ _ _ _ hdispatches hdispatches'
  exact List.inj_on_of_nodup_map r.sound.distinct ha hb hname

/-- What can come about where anybody may take the lock of the host or give it back in between,
whatever runs on the threads. -/
inductive Shared : Ledger α → Prop
  | start (pid : Nat) (tuning : Tuning) : Shared { connection := .start pid tuning }
  | spawn {l : Ledger α} : Shared l → Shared l.spawn
  | next {l l' : Ledger α} {thread : Nat} {move : Move α} :
      Shared l → l.next thread move = some l' → Shared l'
  | passes {l : Ledger α} (holder : Option Nat) :
      Shared l → Shared { l with hostHolder := holder }

/-- While a dispatch has the lock, it would be the one that enters. -/
theorem Reachable.not_enters {l : Ledger α} (r : l.Reachable) {thread other name : Nat}
    {call : Call α} {below : List (Named α)} {input : Input} {s : Step α}
    (holder : l.hostHolder = some other) (stack : l.stack thread = ⟨name, call⟩ :: below)
    (step : call.step l.connection input = some s) (outside : Machine.holdsHost call = false)
    (enters : s.next.goesOnWith Machine.holdsHost = true) : False := by
  obtain ⟨named, hmem, hholds⟩ := (r.kept other).mp holder
  have hgoes := Call.goes_of_step step
  cases hnext : s.next with
  | ends outcome =>
    rw [hnext] at enters
    cases enters
  | unwinds =>
    rw [hnext] at enters
    cases enters
  | goesOn call' =>
    rw [hnext] at hgoes enters
    have hself : (⟨name, call⟩ : Named α) ∈ l.stack thread := by simp [stack]
    have hlocked := hgoes.isLocked (isLocked_of_holdsHost enters)
    have hsame := r.locked_unique (mem_calls_of_stack hmem) (mem_calls_of_stack hself)
      (isLocked_of_holdsHost hholds) hlocked
    rw [hsame, outside] at hholds
    cases hholds

/-- A move that the lock allows is allowed as well where only the calls themselves have used it. -/
theorem next_relocked {l l' : Ledger α} {thread : Nat} {move : Move α} {holder : Option Nat}
    (r : Reachable { l with hostHolder := holder }) (h : l.next thread move = some l') :
    ∃ holder', { l with hostHolder := holder }.next thread move =
      some { l' with hostHolder := holder' } := by
  cases move with
  | start operation =>
    obtain ⟨hmay, rfl⟩ := next_start_eq_some_iff.mp h
    exact ⟨holder, next_start_eq_some_iff.mpr ⟨hmay, rfl⟩⟩
  | goOn input =>
    obtain ⟨name, call, below, s, _, hstack, hstep, hlock, rfl⟩ := next_goOn_eq_some_iff.mp h
    have hallowed : ∃ holder',
        { l.machine with hostHolder := holder }.hostAfter thread call s = some holder' := by
      rw [Machine.hostAfter_eq]
      cases Machine.lockStep_of_hostAfter hlock with
      | leaves hin _ => exact ⟨none, by rw [if_pos hin]⟩
      | keeps hout hstays _ =>
        exact ⟨holder, by rw [if_neg (by simp [hout]), if_neg (by simp [hstays])]⟩
      | enters hout henters _ _ =>
        rw [if_neg (by simp [hout]), if_pos henters]
        cases holder with
        | none => exact ⟨some thread, rfl⟩
        | some other => exact False.elim (r.not_enters rfl hstack hstep hout henters)
    obtain ⟨holder', hlock'⟩ := hallowed
    exact ⟨holder', next_goOn_eq_some_iff.mpr
      ⟨name, call, below, s, holder', hstack, hstep, hlock', rfl⟩⟩

/-- But for the lock, a ledger is one that its own calls have brought about. -/
theorem Shared.exists_reachable {l : Ledger α} (h : l.Shared) :
    ∃ holder, Reachable { l with hostHolder := holder } := by
  induction h with
  | start pid tuning => exact ⟨none, .start pid tuning⟩
  | spawn _ ih =>
    obtain ⟨holder, hr⟩ := ih
    exact ⟨holder, hr.spawn⟩
  | next _ hn ih =>
    obtain ⟨holder, hr⟩ := ih
    obtain ⟨holder', hn'⟩ := next_relocked hr hn
    exact ⟨holder', hr.next hn'⟩
  | passes _ _ ih => exact ih

theorem Shared.sound {l : Ledger α} (h : l.Shared) : Sound l := by
  obtain ⟨_, hr⟩ := h.exists_reachable
  have hs := hr.sound
  exact ⟨hs.named, hs.distinct, hs.trail, hs.underWay⟩

/-- The contract of those who use the lock of a host. A thread that has it does not start a dispatch
under it, and one that runs such a dispatch does not take it. -/
inductive Hosted : Ledger α → Prop
  | start (pid : Nat) (tuning : Tuning) : Hosted { connection := .start pid tuning }
  | spawn {l : Ledger α} : Hosted l → Hosted l.spawn
  | next {l l' : Ledger α} {thread : Nat} {move : Move α} : Hosted l →
      l.next thread move = some l' →
      (∀ codec, move = .start (.dispatch codec .locked) → ¬ l.HoldsApart thread) → Hosted l'
  | takes {l : Ledger α} {thread : Nat} : Hosted l → l.hostHolder = none →
      (∀ named ∈ l.stack thread, Machine.isLocked named.call = false) →
      Hosted { l with hostHolder := some thread }
  | gives {l : Ledger α} {thread : Nat} : Hosted l → l.HoldsApart thread →
      Hosted { l with hostHolder := none }

/-- A dispatch under the lock is one from its start on. -/
theorem Moves.locked_of_left {l l' : Ledger α} {name : Nat} {deed : Deed α}
    {before after : List (Named α)} (m : Moves l l' name deed before after) {named : Named α}
    (left : named ∈ deed.left name) (locked : Machine.isLocked named.call = true) :
    (∃ codec, deed.cause = .start (.dispatch codec .locked)) ∨
      ∃ found ∈ deed.found name, Machine.isLocked found.call = true := by
  obtain ⟨-, hnext⟩ := Deed.mem_left.mp left
  obtain ⟨cause, next⟩ := deed
  obtain rfl : next = .goesOn named.call := hnext
  cases m.does with
  | starts hs =>
    obtain ⟨run, hcall, hhost⟩ := Machine.isLocked_iff.mp locked
    rw [hcall] at hs
    exact .inl (hs.locked hhost)
  | goesOn hg => exact .inr ⟨_, List.mem_singleton_self _, hg.isLocked locked⟩

/-- A lock that is lent out stays so: who has it starts no dispatch under it. -/
theorem LentOut.moved {l l' : Ledger α} {thread : Nat} {move : Move α} (lent : l.LentOut)
    (h : l.next thread move = some l') (same : l'.hostHolder = l.hostHolder)
    (free : ∀ codec, move = .start (.dispatch codec .locked) → ¬ l.HoldsApart thread) :
    l'.LentOut := by
  intro t ht
  refine ⟨ht, ?_⟩
  rw [same] at ht
  obtain ⟨-, hnone⟩ := lent t ht
  obtain ⟨name, deed, before, after, below, hm, hs⟩ := shifts_of_next h
  by_cases he : t = thread
  · subst he
    rw [hs.found] at hnone
    rw [hs.left]
    intro named hmem
    rcases List.mem_append.mp hmem with hleft | hbelow
    · rw [Bool.eq_false_iff]
      intro hlocked
      rcases hm.locked_of_left hleft hlocked with ⟨codec, hcause⟩ | ⟨found, hfound, hlocked'⟩
      · exact free codec (hs.starts _ hcause) (lent t ht)
      · rw [hnone found (List.mem_append_left _ hfound)] at hlocked'
        cases hlocked'
    · exact hnone named (List.mem_append_right _ hbelow)
  · rw [hs.others t he]
    exact hnone

/-- What other threads do with the lock makes no difference but to who has it. -/
theorem Hosted.transfer {l : Ledger α} (h : l.Hosted) :
    l.Reachable ∨ Reachable { l with hostHolder := none } ∧ l.LentOut := by
  induction h with
  | start pid tuning => exact .inl (.start pid tuning)
  | @spawn l _ ih =>
    rcases ih with hr | ⟨hr, hlent⟩
    · exact .inl hr.spawn
    · refine .inr ⟨hr.spawn, fun thread hholder => ⟨hholder, ?_⟩⟩
      rw [stack_spawn]
      exact (hlent thread hholder).2
  | @next l l' thread move _ hn hfree ih =>
    rcases ih with hr | ⟨hr, hlent⟩
    · exact .inl (hr.next hn)
    · obtain ⟨holder, hn', hholder⟩ := next_unlocked hn
      have hr' := hr.next hn'
      rcases hholder with rfl | ⟨rfl, hsame⟩
      · exact .inl hr'
      · exact .inr ⟨hr', hlent.moved hn hsame hfree⟩
  | @takes l thread _ hholder hnone ih =>
    have hr : Reachable { l with hostHolder := none } := by
      rcases ih with hr | ⟨hr, -⟩
      · rw [← hholder]
        exact hr
      · exact hr
    refine .inr ⟨hr, ?_⟩
    rintro _ ⟨⟩
    exact ⟨rfl, hnone⟩
  | @gives l thread _ hapart ih =>
    rcases ih with hr | ⟨hr, -⟩
    · exact False.elim (hr.not_holdsApart thread hapart)
    · exact .inl hr

/-- A thread that runs a dispatch under the lock has it exactly while the receiver is at work. -/
theorem Hosted.locked_iff {l : Ledger α} (h : l.Hosted) {thread : Nat} {named : Named α}
    (mem : named ∈ l.stack thread) (locked : Machine.isLocked named.call = true) :
    l.hostHolder = some thread ↔ named.call.event?.isSome = true := by
  have holds : Machine.holdsHost named.call = named.call.event?.isSome := by
    rw [Machine.holdsHost, locked, Bool.true_and, Call.isInsideHost]
  rcases h.transfer with hr | ⟨hr, hlent⟩
  · rw [hr.kept thread, ← holds]
    refine ⟨?_, fun hh => ⟨named, mem, hh⟩⟩
    rintro ⟨other, hother, hh⟩
    have hsame := hr.locked_unique (mem_calls_of_stack hother) (mem_calls_of_stack mem)
      (isLocked_of_holdsHost hh) locked
    rw [← hsame]
    exact hh
  · constructor
    · intro hholder
      rw [(hlent thread hholder).2 named mem] at locked
      cases locked
    · intro htells
      have hinside : Inside { l with hostHolder := none } thread :=
        ⟨named, mem, holds.trans htells⟩
      cases (hr.kept thread).mpr hinside

theorem Hosted.shared {l : Ledger α} (h : l.Hosted) : l.Shared := by
  induction h with
  | start pid tuning => exact .start pid tuning
  | spawn _ ih => exact .spawn ih
  | next _ hn _ ih => exact .next ih hn
  | takes _ _ _ ih => exact .passes _ ih
  | gives _ _ ih => exact .passes _ ih

/-- A host that nobody else uses is a case of one that others use. -/
theorem Reachable.hosted {l : Ledger α} (h : l.Reachable) : l.Hosted := by
  induction h with
  | start pid tuning => exact .start pid tuning
  | spawn _ ih => exact .spawn ih
  | next hr hn ih => exact .next ih hn fun _ _ => hr.not_holdsApart _

/-- In the trace of a call each event is told in a section of its own, and what the handle is asked
for or is decoded stands outside of them; the last section is open while the receiver is at work.
This is so whatever is done with the lock of the host. Where its users keep to their contract, the
thread of a dispatch under the lock has it while the receiver is at work, and not while the handle
or the codec is. -/
theorem callbacks_serialized {l : Ledger α} (shared : l.Shared) :
    (∀ name next, l.fate name = some next → Shows (l.trace name) next.event?) ∧
    (∀ name, (l.trace name).filterMap Mark.event? = l.told name ∧
      (l.trace name).filterMap Mark.request? = (l.deeds name).filterMap Deed.request? ∧
      (l.trace name).filterMap Mark.frame? = (l.deeds name).filterMap Deed.decoded?) ∧
    (l.Hosted → ∀ thread, ∀ named ∈ l.stack thread, Machine.isLocked named.call = true →
      (l.hostHolder = some thread ↔ named.call.event?.isSome = true) ∧
      (named.call.isApart = true → l.hostHolder ≠ some thread)) := by
  refine ⟨?_, fun name => contents_of_trace _, ?_⟩
  · intro name next hfate
    exact (shared.sound.trail_of_fate hfate).shows
  · intro hosted thread named hmem hlocked
    have hiff := hosted.locked_iff hmem hlocked
    refine ⟨hiff, fun hapart hholder => ?_⟩
    have htells := hiff.mp hholder
    rw [Call.event?_of_isApart hapart] at htells
    cases htells

theorem Hosted.follow {l l' : Ledger α} {moves : List (Nat × Move α)} (h : l.Hosted)
    (hf : l.follow moves = some l')
    (goOn : ∀ entry ∈ moves, ∀ operation, entry.2 ≠ .start operation) : l'.Hosted := by
  induction moves generalizing l with
  | nil =>
    cases hf
    exact h
  | cons entry moves ih =>
    rw [Ledger.follow] at hf
    split at hf
    · next hn =>
      have hnext := h.next hn fun codec hmove => False.elim (goOn entry List.mem_cons_self _ hmove)
      exact ih hnext hf fun other ho => goOn other (List.mem_cons_of_mem entry ho)
    · cases hf

end Ledger

end WorkerLink

namespace WorkerLink.Ledger

attribute [local instance] Memory.kilobyte

/-- A dispatch under the lock gets a message and the end of the stream, while another thread takes
the lock in between. -/
theorem callbacks_serialized_beside_another : ∃ (l l' : Ledger Unit) (run run' : Dispatch Unit)
    (frame : Frame), l.Hosted ∧ l'.Hosted ∧
    (⟨0, .dispatch run⟩ ∈ l.stack 0 ∧ run.stage = .decoding frame ∧ l.hostHolder = some 1 ∧
      l.hostHolder ≠ some 0) ∧
    (⟨0, .dispatch run'⟩ ∈ l'.stack 0 ∧ run'.stage = .notifying .endOfStream ∧
      l'.hostHolder = some 0) ∧
    Open (l'.trace 0) .endOfStream ∧
    l'.trace 0 = [.asks .isAlive, .asks .receive, .decodes frame, .enters, .tells (.message ()),
      .leaves, .asks .isAlive, .enters, .tells .endOfStream] := by
  obtain ⟨l₁, h₁, l₂, h₂, hnone, hstack, l₃, h₃, run, hrun, hholder, hstage, hhost, l₄, h₄,
      hholder', hstack', l₅, h₅, run', hrun', hstage', hhost', hfate, htrace⟩ : ∃ l₁,
      Ledger.next (α := Unit) { connection := .start 7 {} } 0
        (.start (.dispatch ⟨fun _ => .ok (), fun _ => .ok []⟩ .locked)) = some l₁ ∧
      ∃ l₂, l₁.follow [(0, .goOn .proceed), (0, .goOn .proceed), (0, .goOn .proceed)] = some l₂ ∧
        l₂.hostHolder = none ∧ l₂.stack 1 = [] ∧
      ∃ l₃, Ledger.follow { l₂ with hostHolder := some 1 } [(0, .goOn (.alive true)),
          (0, .goOn (.read [] (.ok (Frame.marker ++ [49, 13, 10, 13, 10, 55]))))] = some l₃ ∧
      ∃ run, ⟨0, .dispatch run⟩ ∈ l₃.stack 0 ∧ l₃.hostHolder = some 1 ∧
        run.stage = .decoding ⟨[55]⟩ ∧ run.host = .locked ∧
      ∃ l₄, l₃.follow [(0, .goOn .proceed)] = some l₄ ∧
        l₄.hostHolder = some 1 ∧ l₄.stack 1 = [] ∧
      ∃ l₅, Ledger.follow { l₄ with hostHolder := none } [(0, .goOn .proceed), (0, .goOn .returned),
          (0, .goOn .proceed), (0, .goOn (.alive false)), (0, .goOn .proceed),
          (0, .goOn .proceed)] = some l₅ ∧
      ∃ run', ⟨0, .dispatch run'⟩ ∈ l₅.stack 0 ∧ run'.stage = .notifying .endOfStream ∧
        run'.host = .locked ∧ l₅.fate 0 = some (.goesOn (.dispatch run')) ∧
        l₅.trace 0 = [.asks .isAlive, .asks .receive, .decodes ⟨[55]⟩, .enters,
          .tells (.message ()), .leaves, .asks .isAlive, .enters, .tells .endOfStream] :=
    ⟨_, rfl, _, rfl, rfl, rfl, _, rfl, _, .head _, rfl, rfl, rfl, _, rfl, rfl, rfl, _, rfl,
      _, .head _, rfl, rfl, rfl, rfl⟩
  have hosted₂ : l₂.Hosted :=
    ((Hosted.start 7 {}).next h₁ fun _ _ hapart => nomatch hapart.1).follow h₂ (by simp)
  have hosted₃ : l₃.Hosted := (hosted₂.takes hnone (by simp [hstack])).follow h₃ (by simp)
  have apart₄ : l₄.HoldsApart 1 := ⟨hholder', by simp [hstack']⟩
  have hosted₅ : l₅.Hosted := ((hosted₃.follow h₄ (by simp)).gives apart₄).follow h₅ (by simp)
  have hlocked : Machine.isLocked (.dispatch run) = true := by simp [Machine.isLocked, hhost]
  have hlocked' : Machine.isLocked (.dispatch run') = true := by simp [Machine.isLocked, hhost']
  obtain ⟨-, -, hwith₃⟩ := callbacks_serialized hosted₃.shared
  obtain ⟨hshows, -, hwith₅⟩ := callbacks_serialized hosted₅.shared
  have hnot := (hwith₃ hosted₃ 0 _ hrun hlocked).2 (by simp [Call.isApart, hstage])
  have hheld := (hwith₅ hosted₅ 0 _ hrun' hlocked').1.mpr (by simp [Call.event?, hstage'])
  have hopen := hshows 0 _ hfate
  rw [Next.event?, Call.event?] at hopen
  simp only [hstage'] at hopen
  exact ⟨l₃, l₅, run, run', ⟨[55]⟩, hosted₃, hosted₅, ⟨hrun, hstage, hholder, hnot⟩,
    ⟨hrun', hstage', hheld⟩, hopen, htrace⟩

end WorkerLink.Ledger
