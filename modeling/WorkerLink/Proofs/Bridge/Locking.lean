import WorkerLink.Proofs.Bridge.Crossing

/-!
# Who has the lock of a bridge

The lock is with the host while it does a task, with the dispatch while the
receiver has an event, and with nobody else (`lock_discipline`). So neither of
them waits with the lock: the host has let go of it wherever it waits, and the
receiver comes back by itself. A dispatch that has an event and does not get the
lock waits for a task of the host, which needs neither the dispatch nor the
handle.
-/

namespace WorkerLink.Bridge

variable {α : Type}

/-- The host waits: for a line, for its call, for the time to pass, or for the dispatch. -/
inductive Relay.Waits : Relay α → Prop
  | listening : Waits .listening
  | sending (message : α) : Waits (.sending message)
  | resting : Waits .resting
  | shuttingDown : Waits .shuttingDown
  | joining : Waits .joining

theorem Relay.Waits.holdsLock {relay : Relay α} (h : relay.Waits) : relay.holdsLock = false := by
  cases h <;> rfl

namespace Crossing

/-- The dispatch has an event and wants the lock for it. -/
def Wants (c : Crossing α) (event : Event α) : Prop :=
  ∃ name run, c.ledger.stack dispatchThread = [⟨name, .dispatch run⟩] ∧
    run.stage = .entering event

variable [Format α] [Memory]

section Discipline

variable {c : Crossing α}

/-- While a call of the host is under way, the host does not have the lock. -/
theorem Orderly.holdsLock_of_call (o : c.Orderly) (call : c.ledger.stack hostThread ≠ []) :
    c.relay.holdsLock = false := by
  cases o.atCall with
  | idle _ h => exact False.elim (call h)
  | unheard _ h _ _ _ => exact False.elim (call h)
  | underWay _ _ hoperation _ => exact holdsLock_of_operation hoperation

/-- One task of the host. -/
theorem does_task {task : Task} (holding : c.relay = .holding task) :
    ∃ c', c.Moves c' ∧ Relay.Goes c.ledger.connection (.holding task) .proceed c'.relay ∧
      c'.ledger = { c.ledger with
        hostHolder := if c'.relay.holdsLock then some hostThread else none } ∧
      c'.lines = c.lines := by
  obtain ⟨m, relay, records, hstep⟩ := Relay.step_holding hostThread c.ledger.machine task
  have hgoes := Relay.goes_of_step hstep
  obtain ⟨hholder, -⟩ := Relay.holder_of_step hstep
  rw [← holding] at hstep
  refine ⟨_, .relays .proceed hstep, hgoes, ?_, rfl⟩
  rw [hholder]
  rfl

/-- The host lets go of the lock by itself. -/
theorem lets_go {task : Task} (holding : c.relay = .holding task) :
    ∃ c', c.Reaches c' ∧ c'.ledger = { c.ledger with hostHolder := none } := by
  obtain ⟨c₁, hmoves, hgoes, hledger, -⟩ := does_task holding
  rcases hgoes.lets_go with hfree | ⟨task', hholding, hlast⟩
  · rw [hfree] at hledger
    exact ⟨c₁, .moves .refl hmoves, hledger⟩
  · obtain ⟨c₂, hmoves', hgoes', hledger', -⟩ := does_task hholding
    rw [hlast _ _ hgoes', hledger] at hledger'
    exact ⟨c₂, .moves (.moves .refl hmoves) hmoves', hledger'⟩

/-- Where the lock is free, the receiver gets the event. -/
theorem Orderly.enters (o : c.Orderly) {event : Event α} (wants : c.Wants event)
    (free : c.ledger.hostHolder = none) : ∃ c', c.Moves c' ∧ c'.telling? = some event := by
  obtain ⟨name, run, hstack, hstage⟩ := wants
  have hlocked : run.host = .locked := by
    cases o.atDispatch with
    | away h => rw [h] at hstack; cases hstack
    | underWay _ h hlocked =>
      rw [h] at hstack
      cases hstack
      exact hlocked
  have hnone : c.telling? = none := o.not_telling_of_free free
  have hstep : (Call.dispatch run).step c.ledger.connection .proceed =
      some (run.goesTo c.ledger.connection (.notifying event)) := by
    simp only [Call.step, Dispatch.step, hstage]
  have hout : Machine.holdsHost (.dispatch run) = false :=
    Machine.not_holdsHost (by simp [hstage])
  have hin : (run.goesTo c.ledger.connection (.notifying event)).next.goesOnWith
      Machine.holdsHost = true := by
    simp [Dispatch.goesTo, Next.goesOnWith, Machine.holdsHost, Machine.isLocked, hlocked,
      Call.isInsideHost, Call.event?]
  have hholder : c.ledger.machine.hostHolder = none := free
  have hlock : c.ledger.machine.hostAfter dispatchThread (.dispatch run)
      (run.goesTo c.ledger.connection (.notifying event)) = some (some dispatchThread) := by
    rw [Machine.hostAfter_eq, if_neg (by simp [hout]), if_pos hin, hholder]
    rfl
  obtain ⟨l, hnext, -, -, hleft, -⟩ := Ledger.exists_goOn hstack hstep hlock
  refine ⟨_, .dispatches hnone hnext, ?_⟩
  rw [telling?_of_stack hleft]
  rfl

/-- A dispatch that cannot have the lock waits for a host that does a task outside of any call. -/
theorem Orderly.holding_of_wants (o : c.Orderly) {event : Event α}
    (wants : c.Wants event) (held : c.ledger.hostHolder ≠ none) :
    (∃ task, c.relay = .holding task) ∧ c.ledger.stack hostThread = [] := by
  have hnone : c.telling? = none := by
    obtain ⟨name, run, hstack, hstage⟩ := wants
    rw [telling?_of_stack hstack]
    simp [Call.event?, hstage]
  obtain ⟨thread, hholder⟩ := Option.ne_none_iff_exists'.mp held
  have hholds : c.relay.holdsLock = true := by
    rcases (o.lock _).mp hholder with ⟨-, h⟩ | ⟨-, h⟩
    · exact h
    · rw [hnone] at h
      cases h
  constructor
  · cases hrelay : c.relay with
    | holding task => exact ⟨task, rfl⟩
    | locking _ | listening | sending _ | resting | shuttingDown | joining =>
      rw [hrelay] at hholds
      cases hholds
  · by_contra hcall
    rw [o.holdsLock_of_call hcall] at hholds
    cases hholds

end Discipline

/-- The lock is with the host exactly while it does a task and with the dispatch exactly while the
receiver has an event, so never with both. The host does not have it while it waits, nor while a
call of it is under way. Where the dispatch wants the lock and cannot have it, the host does a task
outside of any call; it lets go of the lock by steps of its own, and the receiver gets the event. -/
theorem lock_discipline {c : Crossing α} (reachable : c.Reachable) :
    (∀ thread, c.ledger.hostHolder = some thread ↔
      thread = hostThread ∧ c.relay.holdsLock = true ∨
        thread = dispatchThread ∧ c.telling?.isSome = true) ∧
    (∀ event, c.telling? = some event →
      c.ledger.hostHolder = some dispatchThread ∧ c.relay.holdsLock = false) ∧
    (c.relay.Waits ∨ c.ledger.stack hostThread ≠ [] → c.ledger.hostHolder ≠ some hostThread) ∧
    (∀ event, c.Wants event → c.ledger.hostHolder ≠ none →
      (∃ task, c.relay = .holding task) ∧ c.ledger.stack hostThread = [] ∧
        ∃ c' c'', c.Reaches c' ∧ c'.ledger = { c.ledger with hostHolder := none } ∧
          c'.Moves c'' ∧ c''.telling? = some event) := by
  have o := reachable.orderly
  refine ⟨o.lock, ?_, ?_, ?_⟩
  · intro event htelling
    refine ⟨(o.lock _).mpr (.inr ⟨rfl, by rw [htelling]; rfl⟩), ?_⟩
    by_contra hholds
    rw [Bool.not_eq_false] at hholds
    rw [o.not_telling hholds] at htelling
    cases htelling
  · intro hwaits hholder
    have hno : c.relay.holdsLock = false := hwaits.elim Relay.Waits.holdsLock o.holdsLock_of_call
    rcases (o.lock _).mp hholder with ⟨-, h⟩ | ⟨h, -⟩
    · rw [hno] at h
      cases h
    · exact threads_differ h
  · intro event hwants hheld
    obtain ⟨⟨task, htask⟩, hcall⟩ := o.holding_of_wants hwants hheld
    obtain ⟨c', hreaches, hledger⟩ := lets_go htask
    have hwants' : c'.Wants event := by
      rw [Wants, hledger]
      exact hwants
    obtain ⟨c'', hmoves, htells⟩ := (o.reaches hreaches).enters hwants' (by rw [hledger])
    exact ⟨⟨task, htask⟩, hcall, c', c'', hreaches, hledger, hmoves, htells⟩

end Crossing

end WorkerLink.Bridge

namespace WorkerLink.Bridge.Crossing

attribute [local instance] Memory.kilobyte

/-- The worker ends while the host is about to look for input: the dispatch waits with the last
event. -/
theorem lock_discipline_at_end_of_stream : ∃ c : Crossing Json.Value,
    c.Reachable ∧ c.Wants .endOfStream ∧ c.ledger.hostHolder = some hostThread ∧
    c.relay = .holding .check ∧ c.ledger.stack hostThread = [] ∧
    ∃ c' c'', c.Reaches c' ∧ c'.ledger = { c.ledger with hostHolder := none } ∧
      c'.Moves c'' ∧ c''.telling? = some .endOfStream := by
  let opened : Crossing Json.Value := opening 7 {} ["1"] {}
  obtain ⟨m, records, hstep, hheld⟩ : ∃ m records,
      opened.relay.step hostThread opened.ledger.machine .proceed =
        some (m, .holding .check, records) ∧ m.hostHolder = some hostThread := ⟨_, _, rfl, rfl⟩
  let locked : Crossing Json.Value := { opened with
    ledger := { opened.ledger with hostHolder := some hostThread }, relay := .holding .check }
  obtain ⟨l, c, hopens, hfollow, hwants, hholder, hrelay⟩ : ∃ l c,
      locked.ledger.next dispatchThread
        (.start (.dispatch (.ofFormat Json.Value) .locked)) = some l ∧
      follow { locked with ledger := l, opened := true }
        [.proceed, .proceed, .proceed, .alive false, .proceed] = some c ∧
      c.Wants .endOfStream ∧ c.ledger.hostHolder = some hostThread ∧ c.relay = .holding .check :=
    ⟨_, _, rfl, rfl, ⟨_, _, rfl, rfl⟩, rfl, rfl⟩
  have hreachable : c.Reachable := by
    have hlocked := (Reachable.start 7 {} ["1"] {}).moves (.relays .proceed hstep)
    rw [hheld] at hlocked
    exact (hlocked.moves (.opens rfl hopens)).follow hfollow
  obtain ⟨-, -, -, hblocked⟩ := lock_discipline hreachable
  obtain ⟨-, hcall, hrest⟩ := hblocked .endOfStream hwants (by simp [hholder])
  exact ⟨c, hreachable, hwants, hholder, hrelay, hcall, hrest⟩

end WorkerLink.Bridge.Crossing
