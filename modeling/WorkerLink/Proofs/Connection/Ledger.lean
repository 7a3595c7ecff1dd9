import WorkerLink.Proofs.Connection.Transitions
import Mathlib.Data.List.Nodup

/-!
# Runs with a record of what each call has done

A ledger is a machine whose calls bear names, together with the deeds of all its
calls so far. It moves exactly when its machine does (`machine_of_next`,
`next_of_machine`), so a theorem about reachable ledgers is one about every run
of a machine. A move starts a call or goes on with the newest one, and what it takes
for either is said once (`next_start_eq_some_iff`, `next_goOn_eq_some_iff`). A call is
named after the move that started it.

The deeds of one call are a `Trail`: what the call has done on its own, whatever
happened to the connection between two of its steps.
-/

namespace WorkerLink

variable {α : Type}

inductive Cause (α : Type)
  | start (operation : Operation α)
  | goOn (call : Call α) (input : Input)

/-- What moved a call, and what became of it. -/
structure Deed (α : Type) where
  cause : Cause α
  next : Next α

/-- A call under way and its name. -/
structure Named (α : Type) where
  name : Nat
  call : Call α

structure Ledger (α : Type) where
  connection : Connection
  callStacks : List (List (Named α)) := [[]]
  hostHolder : Option Nat := none
  /-- Every deed so far, after the name of its call, oldest first. -/
  history : List (Nat × Deed α) := []

namespace Deed

def found (name : Nat) (d : Deed α) : List (Named α) :=
  match d.cause with
  | .start _ => []
  | .goOn call _ => [⟨name, call⟩]

def left (name : Nat) (d : Deed α) : List (Named α) :=
  match d.next with
  | .goesOn call => [⟨name, call⟩]
  | .ends _ | .unwinds => []

end Deed

theorem Deed.found_start {name : Nat} {operation : Operation α} {next : Next α} :
    Deed.found name ⟨.start operation, next⟩ = [] := rfl

theorem Deed.found_goOn {name : Nat} {call : Call α} {input : Input} {next : Next α} :
    Deed.found name ⟨.goOn call input, next⟩ = [⟨name, call⟩] := rfl

theorem Deed.mem_left {name : Nat} {d : Deed α} {named : Named α} :
    named ∈ d.left name ↔ named.name = name ∧ d.next = .goesOn named.call := by
  cases named
  cases hd : d.next <;> simp [left, hd, eq_comm]

theorem Deed.names_left (name : Nat) (d : Deed α) :
    ((d.left name).map Named.name).Sublist [name] := by
  cases hd : d.next <;> simp [left, hd]

theorem Machine.mayStart_iff {m : Machine α} {thread : Nat} : m.mayStart thread = true ↔
    thread < m.callStacks.length ∧ ∀ call ∈ (m.stack thread).head?, call.isOutside = true := by
  rw [mayStart, Bool.and_eq_true, decide_eq_true_eq]
  cases m.stack thread <;> simp

namespace Ledger

def stack (l : Ledger α) (thread : Nat) : List (Named α) := (l.callStacks[thread]?).getD []

def calls (l : Ledger α) : List (Named α) := l.callStacks.flatten

def machine (l : Ledger α) : Machine α :=
  ⟨l.connection, l.callStacks.map (List.map Named.call), l.hostHolder⟩

def spawn (l : Ledger α) : Ledger α := { l with callStacks := l.callStacks ++ [[]] }

/-- A thread does a deed on top of the calls `below`, and the machine becomes `m`. -/
def settle (l : Ledger α) (thread name : Nat) (below : List (Named α)) (m : Machine α)
    (deed : Deed α) : Ledger α where
  connection := m.connection
  callStacks := l.callStacks.set thread (deed.left name ++ below)
  hostHolder := m.hostHolder
  history := l.history ++ [(name, deed)]

def deeds (l : Ledger α) (name : Nat) : List (Deed α) :=
  l.history.filterMap fun entry => if entry.1 = name then some entry.2 else none

def fate (l : Ledger α) (name : Nat) : Option (Next α) := (l.deeds name).getLast?.map Deed.next

theorem machine_stack (l : Ledger α) (thread : Nat) :
    l.machine.stack thread = (l.stack thread).map Named.call := by
  unfold machine Machine.stack stack
  rw [List.getElem?_map]
  cases l.callStacks[thread]? with
  | none => rfl
  | some calls => rfl

theorem map_left (name : Nat) (d : Deed α) (below : List (Named α)) :
    (d.left name ++ below).map Named.call = Machine.push d.next (below.map Named.call) := by
  cases hd : d.next <;> simp [Deed.left, Machine.push, hd]

theorem machine_settle {l : Ledger α} {thread name : Nat} {below : List (Named α)}
    {m : Machine α} {deed : Deed α}
    (h : m.callStacks =
      l.machine.callStacks.set thread (Machine.push deed.next (below.map Named.call))) :
    (l.settle thread name below m deed).machine = m := by
  cases m with
  | mk connection callStacks hostHolder =>
    simp only at h
    simp only [settle, machine, List.map_set, map_left, h]

theorem machine_mayStart {l : Ledger α} {thread : Nat} : l.machine.mayStart thread = true ↔
    thread < l.callStacks.length ∧ ∀ top ∈ (l.stack thread).head?, top.call.isOutside = true := by
  rw [Machine.mayStart_iff, machine_stack]
  cases l.stack thread <;> simp [machine]

theorem within_of_stack {l : Ledger α} {thread : Nat} (h : l.stack thread ≠ []) :
    thread < l.callStacks.length := by
  by_contra hle
  rw [stack, List.getElem?_eq_none (by omega)] at h
  exact h rfl

theorem calls_split {l : Ledger α} {thread : Nat} (h : thread < l.callStacks.length) :
    l.calls = (l.callStacks.take thread).flatten ++ (l.stack thread ++
      (l.callStacks.drop (thread + 1)).flatten) := by
  have here : l.stack thread = l.callStacks[thread] := by
    rw [stack, List.getElem?_eq_getElem h, Option.getD_some]
  rw [here, calls, ← List.flatten_cons, ← List.flatten_append, ← List.drop_eq_getElem_cons h,
    List.take_append_drop]

theorem calls_settle {l : Ledger α} {thread name : Nat} {below : List (Named α)} {m : Machine α}
    {deed : Deed α} (h : thread < l.callStacks.length) :
    (l.settle thread name below m deed).calls = (l.callStacks.take thread).flatten ++
      (deed.left name ++ below ++ (l.callStacks.drop (thread + 1)).flatten) := by
  rw [calls, settle, List.set_eq_take_append_cons_drop, if_pos h, List.flatten_append,
    List.flatten_cons]

theorem mem_deeds {l : Ledger α} {name : Nat} {d : Deed α} :
    d ∈ l.deeds name ↔ (name, d) ∈ l.history := by
  simp only [deeds, List.mem_filterMap]
  constructor
  · rintro ⟨⟨m, e⟩, hmem, he⟩
    simp only [Option.ite_none_right_eq_some, Option.some.injEq] at he
    obtain ⟨rfl, rfl⟩ := he
    exact hmem
  · intro hmem
    exact ⟨(name, d), hmem, by simp⟩

theorem calls_spawn (l : Ledger α) : l.spawn.calls = l.calls := by
  simp [spawn, calls]

/-- The calls of a thread below its newest one wait for a collaborator. -/
def Nested (l : Ledger α) : Prop :=
  ∀ thread, ∀ named ∈ (l.stack thread).tail, named.call.isOutside = true

theorem stack_set (l : Ledger α) (thread other : Nat) (calls : List (Named α)) :
    { l with callStacks := l.callStacks.set thread calls }.stack other =
      if thread = other ∧ thread < l.callStacks.length then calls else l.stack other := by
  simp only [stack, List.getElem?_set]
  by_cases ht : thread = other
  · subst ht
    by_cases hlt : thread < l.callStacks.length
    · simp [hlt]
    · simp [hlt]
  · simp [ht]

theorem stack_spawn (l : Ledger α) (thread : Nat) : l.spawn.stack thread = l.stack thread := by
  unfold stack spawn
  by_cases hlt : thread < l.callStacks.length
  · rw [List.getElem?_append_left hlt]
  · rw [List.getElem?_append_right (by omega), List.getElem?_eq_none (l := l.callStacks) (by omega),
      List.getElem?_singleton]
    split <;> rfl

/-- Below the newest call of a thread there are only calls that its move has found there. -/
theorem mem_of_mem_tail_left {name : Nat} {deed : Deed α} {below : List (Named α)}
    {named : Named α} (h : named ∈ (deed.left name ++ below).tail) : named ∈ below := by
  cases hd : deed.next with
  | goesOn call => simpa [Deed.left, hd] using h
  | ends outcome => exact List.mem_of_mem_tail (by simpa [Deed.left, hd] using h)
  | unwinds => exact List.mem_of_mem_tail (by simpa [Deed.left, hd] using h)

/-- A call under way that waits for no collaborator is the newest of its thread. -/
theorem Nested.newest {l : Ledger α} (h : Nested l) {named : Named α} (hmem : named ∈ l.calls)
    (inside : named.call.isOutside = false) :
    ∃ thread below, thread < l.callStacks.length ∧ l.stack thread = named :: below := by
  obtain ⟨calls, hcalls, hnamed⟩ := List.mem_flatten.mp hmem
  obtain ⟨thread, hlt, rfl⟩ := List.getElem_of_mem hcalls
  have hstack : l.stack thread = l.callStacks[thread] := by
    rw [stack, List.getElem?_eq_getElem hlt, Option.getD_some]
  rw [← hstack] at hnamed
  cases hs : l.stack thread with
  | nil => simp [hs] at hnamed
  | cons top below =>
    rw [hs] at hnamed
    rcases List.mem_cons.mp hnamed with rfl | hbelow
    · exact ⟨thread, below, hlt, hs⟩
    · have hout := h thread named (by rw [hs]; exact hbelow)
      rw [inside] at hout
      cases hout

end Ledger

variable [Memory]

/-- The deed takes the connection from `c` to `c'`. -/
inductive Deed.Does (c : Connection) : Deed α → Connection → Prop
  | starts {operation : Operation α} {c' : Connection} {next : Next α} :
      Call.Starts c operation c' next → Does c ⟨.start operation, next⟩ c'
  | goesOn {call : Call α} {input : Input} {c' : Connection} {next : Next α} :
      Call.Goes c call input c' next → Does c ⟨.goOn call input, next⟩ c'

/-- What one call does from its start on, and what becomes of it. -/
inductive Trail : List (Deed α) → Next α → Prop
  | start {operation : Operation α} {c c' : Connection} {next : Next α} :
      Call.Starts c operation c' next → Trail [⟨.start operation, next⟩] next
  | goOn {deeds : List (Deed α)} {call : Call α} {input : Input} {c c' : Connection}
      {next : Next α} : Trail deeds (.goesOn call) → Call.Goes c call input c' next →
      Trail (deeds ++ [⟨.goOn call input, next⟩]) next

theorem Trail.last {deeds : List (Deed α)} {next : Next α} (h : Trail deeds next) :
    deeds.getLast?.map Deed.next = some next := by
  cases h with
  | start _ => rfl
  | goOn _ _ => simp

theorem Trail.ne_nil {deeds : List (Deed α)} {next : Next α} (h : Trail deeds next) :
    deeds ≠ [] := by
  cases h with
  | start _ => simp
  | goOn _ _ => simp

namespace Machine

variable {m : Machine α} {thread : Nat} {moved : Machine α × Effect α}

theorem next_start_eq_some_iff {operation : Operation α} :
    m.next thread (.start operation) = some moved ↔ m.mayStart thread = true ∧
      moved = m.settle thread (m.stack thread) m.hostHolder
        (Call.start m.connection operation) := by
  rw [next, Option.ite_none_right_eq_some, Option.some_inj, eq_comm (b := moved)]

theorem next_goOn_eq_some_iff {input : Input} :
    m.next thread (.goOn input) = some moved ↔ ∃ call below s holder,
      m.stack thread = call :: below ∧ call.step m.connection input = some s ∧
      m.hostAfter thread call s = some holder ∧ moved = m.settle thread below holder s := by
  constructor
  · intro h
    simp only [next] at h
    split at h
    · cases h
    · next call below hstack =>
      split at h
      · cases h
      · next s hstep =>
        obtain ⟨holder, hlock, rfl⟩ := Option.map_eq_some_iff.mp h
        exact ⟨call, below, s, holder, hstack, hstep, hlock, rfl⟩
  · rintro ⟨call, below, s, holder, hstack, hstep, hlock, rfl⟩
    simp only [next, hstack, hstep, hlock, Option.map_some]

end Machine

namespace Ledger

def next (l : Ledger α) (thread : Nat) (move : Move α) : Option (Ledger α) :=
  match l.machine.next thread move with
  | none => none
  | some (m, effect) =>
    match move, l.stack thread with
    | .start operation, below =>
      some (l.settle thread l.history.length below m ⟨.start operation, effect.next⟩)
    | .goOn input, ⟨name, call⟩ :: below =>
      some (l.settle thread name below m ⟨.goOn call input, effect.next⟩)
    | .goOn _, [] => none

/-- What can come about over a fresh handle, on any number of threads. -/
inductive Reachable : Ledger α → Prop
  | start (pid : Nat) (tuning : Tuning) : Reachable { connection := .start pid tuning }
  | spawn {l : Ledger α} : Reachable l → Reachable l.spawn
  | next {l l' : Ledger α} {thread : Nat} {move : Move α} :
      Reachable l → l.next thread move = some l' → Reachable l'

def follow (l : Ledger α) : List (Nat × Move α) → Option (Ledger α)
  | [] => some l
  | (thread, move) :: moves =>
    match l.next thread move with
    | some l' => l'.follow moves
    | none => none

theorem Reachable.follow {l l' : Ledger α} {moves : List (Nat × Move α)} (h : Reachable l)
    (hf : l.follow moves = some l') : Reachable l' := by
  induction moves generalizing l with
  | nil =>
    cases hf
    exact h
  | cons move moves ih =>
    rw [Ledger.follow] at hf
    split at hf
    · next hn => exact ih (.next h hn) hf
    · cases hf

/-- A call is started over those of its thread. -/
theorem next_start_eq_some_iff {l l' : Ledger α} {thread : Nat} {operation : Operation α} :
    l.next thread (.start operation) = some l' ↔ l.machine.mayStart thread = true ∧
      l' = l.settle thread l.history.length (l.stack thread)
        (l.machine.settle thread (l.machine.stack thread) l.hostHolder
          (Call.start l.connection operation)).1
        ⟨.start operation, (Call.start l.connection operation).next⟩ := by
  constructor
  · intro h
    simp only [next] at h
    split at h
    · cases h
    · next m effect hm =>
      obtain ⟨hmay, hmoved⟩ := Machine.next_start_eq_some_iff.mp hm
      cases hmoved
      cases h
      exact ⟨hmay, rfl⟩
  · rintro ⟨hmay, rfl⟩
    have hmachine : l.machine.next thread (.start operation) = some (l.machine.settle thread
        (l.machine.stack thread) l.hostHolder (Call.start l.connection operation)) :=
      Machine.next_start_eq_some_iff.mpr ⟨hmay, rfl⟩
    simp only [next, hmachine]
    rfl

/-- The newest call of a thread goes on, where the lock of the host allows it. -/
theorem next_goOn_eq_some_iff {l l' : Ledger α} {thread : Nat} {input : Input} :
    l.next thread (.goOn input) = some l' ↔ ∃ name call below s holder,
      l.stack thread = ⟨name, call⟩ :: below ∧ call.step l.connection input = some s ∧
      l.machine.hostAfter thread call s = some holder ∧
      l' = l.settle thread name below
        (l.machine.settle thread (below.map Named.call) holder s).1
        ⟨.goOn call input, s.next⟩ := by
  constructor
  · intro h
    simp only [next] at h
    split at h
    · cases h
    · next m effect hm =>
      obtain ⟨call, below, s, holder, hstack, hstep, hlock, hmoved⟩ :=
        Machine.next_goOn_eq_some_iff.mp hm
      cases hmoved
      cases hl : l.stack thread with
      | nil => simp [hl] at h
      | cons named rest =>
        rw [machine_stack, hl, List.map_cons] at hstack
        cases hstack
        simp only [hl] at h
        cases h
        exact ⟨_, _, _, s, holder, rfl, hstep, hlock, rfl⟩
  · rintro ⟨name, call, below, s, holder, hstack, hstep, hlock, rfl⟩
    have hcalls : l.machine.stack thread = call :: below.map Named.call := by
      rw [machine_stack, hstack, List.map_cons]
    have hmachine := Machine.next_goOn_eq_some_iff.mpr ⟨_, _, s, holder, hcalls, hstep, hlock, rfl⟩
    simp only [next, hmachine, hstack]
    rfl

/-- A ledger moves as its machine does. -/
theorem machine_of_next {l l' : Ledger α} {thread : Nat} {move : Move α}
    (h : l.next thread move = some l') :
    ∃ effect, l.machine.next thread move = some (l'.machine, effect) := by
  cases move with
  | start operation =>
    obtain ⟨hmay, rfl⟩ := next_start_eq_some_iff.mp h
    rw [machine_settle (by rw [machine_stack]; rfl)]
    exact ⟨_, Machine.next_start_eq_some_iff.mpr ⟨hmay, rfl⟩⟩
  | goOn input =>
    obtain ⟨name, call, below, s, holder, hstack, hstep, hlock, rfl⟩ :=
      next_goOn_eq_some_iff.mp h
    have hcalls : l.machine.stack thread = call :: below.map Named.call := by
      rw [machine_stack, hstack, List.map_cons]
    rw [machine_settle rfl]
    exact ⟨_, Machine.next_goOn_eq_some_iff.mpr ⟨_, _, s, holder, hcalls, hstep, hlock, rfl⟩⟩

/-- Every move of a machine is one of its ledger. -/
theorem next_of_machine {l : Ledger α} {m : Machine α} {thread : Nat} {move : Move α}
    {effect : Effect α} (h : l.machine.next thread move = some (m, effect)) :
    ∃ l', l.next thread move = some l' ∧ l'.machine = m := by
  have defined : ∃ l', l.next thread move = some l' := by
    cases move with
    | start operation =>
      exact ⟨_, next_start_eq_some_iff.mpr ⟨(Machine.next_start_eq_some_iff.mp h).1, rfl⟩⟩
    | goOn input =>
      obtain ⟨call, below, s, holder, hcalls, hstep, hlock, _⟩ :=
        Machine.next_goOn_eq_some_iff.mp h
      rw [machine_stack] at hcalls
      obtain ⟨named, rest, hstack, rfl, _⟩ := List.map_eq_cons_iff.mp hcalls
      exact ⟨_, next_goOn_eq_some_iff.mpr ⟨_, _, rest, s, holder, hstack, hstep, hlock, rfl⟩⟩
  obtain ⟨l', hl'⟩ := defined
  obtain ⟨effect', he⟩ := machine_of_next hl'
  rw [h] at he
  cases he
  exact ⟨l', hl', rfl⟩

theorem within_of_next {l l' : Ledger α} {thread : Nat} {move : Move α}
    (h : l.next thread move = some l') : thread < l.callStacks.length := by
  cases move with
  | start operation => exact (machine_mayStart.mp (next_start_eq_some_iff.mp h).1).1
  | goOn input =>
    obtain ⟨_, _, _, _, _, hstack, _⟩ := next_goOn_eq_some_iff.mp h
    exact within_of_stack (by simp [hstack])

/-- What one move does to the stack of its thread. A call is started with nothing below it, or on
top of a call that waits for a collaborator. -/
theorem stacks_of_next {l l' : Ledger α} {thread : Nat} {move : Move α}
    (h : l.next thread move = some l') : ∃ name deed below,
      l'.callStacks = l.callStacks.set thread (Deed.left name deed ++ below) ∧
      ((below = l.stack thread ∧ ∀ top ∈ below.head?, top.call.isOutside = true) ∨
        ∃ top, l.stack thread = top :: below) := by
  cases move with
  | start operation =>
    obtain ⟨hmay, rfl⟩ := next_start_eq_some_iff.mp h
    exact ⟨_, _, _, rfl, .inl ⟨rfl, (machine_mayStart.mp hmay).2⟩⟩
  | goOn input =>
    obtain ⟨_, _, _, _, _, hstack, _, _, rfl⟩ := next_goOn_eq_some_iff.mp h
    exact ⟨_, _, _, rfl, .inr ⟨_, hstack⟩⟩

/-- A move adds no thread. -/
theorem callStacks_length {l l' : Ledger α} {thread : Nat} {move : Move α}
    (h : l.next thread move = some l') : l'.callStacks.length = l.callStacks.length := by
  obtain ⟨_, _, _, hstacks, _⟩ := stacks_of_next h
  rw [hstacks, List.length_set]

/-- What one move does to the calls under way, wherever they stand: the call `name` does a deed. -/
structure Moves (l l' : Ledger α) (name : Nat) (deed : Deed α) (before after : List (Named α)) :
    Prop where
  calls : l.calls = before ++ deed.found name ++ after
  calls_next : l'.calls = before ++ deed.left name ++ after
  does : deed.Does l.connection l'.connection
  history : l'.history = l.history ++ [(name, deed)]
  fresh : ∀ operation, deed.cause = .start operation → name = l.history.length

/-- The move of a thread starts a call, or it is its newest call that moves. -/
theorem moves_of_next_by {l l' : Ledger α} {thread : Nat} {move : Move α}
    (h : l.next thread move = some l') : ∃ name deed before after,
      Moves l l' name deed before after ∧
      ((∃ operation, move = .start operation ∧ deed.cause = .start operation) ∨
        ∃ input call below, move = .goOn input ∧ l.stack thread = ⟨name, call⟩ :: below ∧
          deed.cause = .goOn call input) := by
  have hlt := within_of_next h
  have hsplit := calls_split hlt
  cases move with
  | start operation =>
    obtain ⟨_, rfl⟩ := next_start_eq_some_iff.mp h
    refine ⟨_, _, (l.callStacks.take thread).flatten, l.stack thread ++
      (l.callStacks.drop (thread + 1)).flatten, ⟨?_, ?_, ?_, rfl, fun _ _ => rfl⟩,
      .inl ⟨operation, rfl, rfl⟩⟩
    · simpa [Deed.found] using hsplit
    · simpa using calls_settle hlt
    · exact .starts (Call.starts_start l.connection operation)
  | goOn input =>
    obtain ⟨name, call, below, s, holder, hstack, hstep, _, rfl⟩ := next_goOn_eq_some_iff.mp h
    rw [hstack] at hsplit
    refine ⟨name, _, (l.callStacks.take thread).flatten, below ++
      (l.callStacks.drop (thread + 1)).flatten, ⟨?_, ?_, ?_, rfl, ?_⟩,
      .inr ⟨input, call, below, rfl, hstack, rfl⟩⟩
    · simpa [Deed.found] using hsplit
    · simpa using calls_settle hlt
    · exact .goesOn (Call.goes_of_step hstep)
    · intro operation hop
      cases hop

theorem moves_of_next {l l' : Ledger α} {thread : Nat} {move : Move α}
    (h : l.next thread move = some l') :
    ∃ name deed before after, Moves l l' name deed before after := by
  obtain ⟨name, deed, before, after, hm, _⟩ := moves_of_next_by h
  exact ⟨name, deed, before, after, hm⟩

section Moved

variable {l l' : Ledger α} {name : Nat} {deed : Deed α} {before after : List (Named α)}

theorem Moves.mem_calls (h : Moves l l' name deed before after) {named : Named α} :
    named ∈ l.calls ↔ (named ∈ before ∨ named ∈ after) ∨ named ∈ deed.found name := by
  rw [h.calls, List.append_assoc, List.mem_append, List.mem_append]
  tauto

theorem Moves.mem_calls_next (h : Moves l l' name deed before after) {named : Named α} :
    named ∈ l'.calls ↔ (named ∈ before ∨ named ∈ after) ∨ named ∈ deed.left name := by
  rw [h.calls_next, List.append_assoc, List.mem_append, List.mem_append]
  tauto

theorem Moves.self_mem {call : Call α} {input : Input} {next : Next α}
    (h : Moves l l' name ⟨.goOn call input, next⟩ before after) : ⟨name, call⟩ ∈ l.calls := by
  rw [h.mem_calls, Deed.found_goOn]
  exact .inr (List.mem_singleton_self _)

theorem Moves.deeds_self (h : Moves l l' name deed before after) :
    l'.deeds name = l.deeds name ++ [deed] := by
  simp [deeds, h.history]

theorem Moves.deeds_other (h : Moves l l' name deed before after) {other : Nat}
    (ne : other ≠ name) : l'.deeds other = l.deeds other := by
  simp [deeds, h.history, Ne.symm ne]

end Moved

/-- The calls under way have names of their own, and each has behaved as a call does. -/
structure Sound (l : Ledger α) : Prop where
  named : ∀ entry ∈ l.history, entry.1 < l.history.length
  distinct : (l.calls.map Named.name).Nodup
  trail : ∀ named ∈ l.calls, Trail (l.deeds named.name) (.goesOn named.call)
  /-- A call that goes on is under way. -/
  underWay : ∀ name, l.deeds name ≠ [] → ∃ next, Trail (l.deeds name) next ∧
    ∀ call, next = .goesOn call → ⟨name, call⟩ ∈ l.calls

theorem Sound.name_lt {l : Ledger α} (h : Sound l) {name : Nat} (hd : l.deeds name ≠ []) :
    name < l.history.length := by
  obtain ⟨d, hmem⟩ := List.exists_mem_of_ne_nil _ hd
  exact h.named _ (mem_deeds.mp hmem)

theorem Sound.deeds_fresh {l : Ledger α} (h : Sound l) : l.deeds l.history.length = [] := by
  by_contra hd
  exact Nat.lt_irrefl _ (h.name_lt hd)

theorem Sound.trail_of_fate {l : Ledger α} (h : Sound l) {name : Nat} {next : Next α}
    (fate : l.fate name = some next) : Trail (l.deeds name) next := by
  have hne : l.deeds name ≠ [] := by
    intro hd
    rw [Ledger.fate, hd] at fate
    cases fate
  obtain ⟨next', ht, _⟩ := h.underWay name hne
  have hlast := ht.last
  rw [Ledger.fate, hlast] at fate
  cases fate
  exact ht

section Preservation

variable {l l' : Ledger α} {name : Nat} {deed : Deed α} {before after : List (Named α)}

/-- The names with the one that moves, be it new or not. -/
theorem Sound.distinct_with (s : Sound l) (h : Moves l l' name deed before after) :
    (before.map Named.name ++ ([name] ++ after.map Named.name)).Nodup := by
  have hdistinct := s.distinct
  rw [h.calls, List.map_append, List.map_append, List.append_assoc] at hdistinct
  cases h.does with
  | goesOn _ => exact hdistinct
  | starts _ =>
    rw [Deed.found_start, List.map_nil, List.nil_append, ← List.map_append] at hdistinct
    have hnew : ∀ named ∈ before ++ after, named.name ≠ name := by
      intro named hmem he
      have hcalls : named ∈ l.calls := h.mem_calls.mpr (.inl (List.mem_append.mp hmem))
      have hlt := s.name_lt (s.trail named hcalls).ne_nil
      rw [he, h.fresh _ rfl] at hlt
      exact Nat.lt_irrefl _ hlt
    rw [List.singleton_append, List.nodup_middle, List.nodup_cons, ← List.map_append]
    refine ⟨?_, hdistinct⟩
    rw [List.mem_map]
    rintro ⟨named, hmem, he⟩
    exact hnew named hmem he

theorem Sound.trail_moved (s : Sound l) (h : Moves l l' name deed before after) :
    Trail (l'.deeds name) deed.next := by
  rw [h.deeds_self]
  cases h.does with
  | starts hs =>
    have hd := s.deeds_fresh
    rw [← h.fresh _ rfl] at hd
    rw [hd]
    exact .start hs
  | goesOn hg =>
    exact .goOn (s.trail ⟨name, _⟩ h.self_mem) hg

/-- The calls that do not move keep their names, and so their deeds. -/
theorem Sound.name_ne (s : Sound l) (h : Moves l l' name deed before after) {named : Named α}
    (hmem : named ∈ before ∨ named ∈ after) : named.name ≠ name := by
  have hdistinct := s.distinct_with h
  rw [List.singleton_append] at hdistinct
  have hnot := (List.nodup_cons.mp (List.nodup_middle.mp hdistinct)).1
  intro he
  apply hnot
  rw [← he, ← List.map_append]
  exact List.mem_map_of_mem (List.mem_append.mpr hmem)

theorem Sound.moved (s : Sound l) (h : Moves l l' name deed before after) : Sound l' := by
  have htrail := s.trail_moved h
  refine ⟨?_, ?_, ?_, ?_⟩
  · intro entry hmem
    rw [h.history, List.mem_append, List.mem_singleton] at hmem
    rw [h.history, List.length_append, List.length_singleton]
    rcases hmem with hold | rfl
    · have := s.named entry hold
      omega
    · cases h.does with
      | starts _ =>
        have := h.fresh _ rfl
        simp only
        omega
      | goesOn _ =>
        have := s.name_lt (s.trail _ h.self_mem).ne_nil
        simp only at this ⊢
        omega
  · have hsub := (List.Sublist.refl (before.map Named.name)).append
      ((deed.names_left name).append (List.Sublist.refl (after.map Named.name)))
    rw [h.calls_next, List.map_append, List.map_append, List.append_assoc]
    exact (s.distinct_with h).sublist hsub
  · intro named hmem
    rcases h.mem_calls_next.mp hmem with hside | hleft
    · rw [h.deeds_other (s.name_ne h hside)]
      exact s.trail named (h.mem_calls.mpr (.inl hside))
    · obtain ⟨rfl, hnext⟩ := Deed.mem_left.mp hleft
      rw [← hnext]
      exact htrail
  · intro other hother
    by_cases he : other = name
    · subst he
      refine ⟨deed.next, htrail, fun call hnext => ?_⟩
      exact h.mem_calls_next.mpr (.inr (Deed.mem_left.mpr ⟨rfl, hnext⟩))
    · rw [h.deeds_other he] at hother ⊢
      obtain ⟨next, ht, hcalls⟩ := s.underWay other hother
      refine ⟨next, ht, fun call hnext => ?_⟩
      rcases h.mem_calls.mp (hcalls call hnext) with hside | hfound
      · exact h.mem_calls_next.mpr (.inl hside)
      · cases h.does with
        | starts _ => cases hfound
        | goesOn _ =>
          rw [Deed.found_goOn, List.mem_singleton, Named.mk.injEq] at hfound
          exact False.elim (he hfound.1)

end Preservation

theorem Reachable.sound {l : Ledger α} (h : Reachable l) : Sound l := by
  induction h with
  | start pid tuning =>
    refine ⟨?_, ?_, ?_, ?_⟩ <;> simp [calls, deeds]
  | @spawn l _ ih =>
    refine ⟨ih.named, ?_, ?_, ?_⟩
    · rw [calls_spawn]
      exact ih.distinct
    · rw [calls_spawn]
      exact ih.trail
    · rw [calls_spawn]
      exact ih.underWay
  | next _ hn ih =>
    obtain ⟨_, _, _, _, hm⟩ := moves_of_next hn
    exact ih.moved hm

theorem Nested.moved {l l' : Ledger α} {thread : Nat} {move : Move α} (nested : Nested l)
    (h : l.next thread move = some l') : Nested l' := by
  intro other named hmem
  obtain ⟨name, deed, below, hstacks, hbelow⟩ := stacks_of_next h
  have hstack : l'.stack other = { l with callStacks := l'.callStacks }.stack other := rfl
  rw [hstack, hstacks, stack_set] at hmem
  split at hmem
  · have hin : named ∈ below := mem_of_mem_tail_left hmem
    rcases hbelow with ⟨rfl, hout⟩ | ⟨top, htop⟩
    · -- The call below a started one is at the collaborator that has started it.
      cases hs : l.stack thread with
      | nil => simp [hs] at hin
      | cons top rest =>
        rw [hs] at hin hout
        rcases List.mem_cons.mp hin with rfl | hrest
        · exact hout named rfl
        · exact nested thread named (by rw [hs]; exact hrest)
    · exact nested thread named (by rw [htop]; exact hin)
  · exact nested other named hmem

theorem Reachable.nested {l : Ledger α} (h : Reachable l) : Nested l := by
  induction h with
  | start pid tuning =>
    intro thread named hmem
    cases thread <;> simp [stack] at hmem
  | spawn _ ih =>
    intro thread named hmem
    rw [stack_spawn] at hmem
    exact ih thread named hmem
  | next _ hn ih => exact ih.moved hn

end Ledger

end WorkerLink
