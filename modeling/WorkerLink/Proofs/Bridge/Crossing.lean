import WorkerLink.Proofs.Bridge.Stages
import WorkerLink.Proofs.Connection.HostLock
import WorkerLink.Proofs.Connection.Turns

/-!
# A bridge at work

A crossing is a bridge in the middle of its work: the host on one thread, the
dispatch on another, a connection that both use, the lines that the host has not
heard yet, and the output. Any order of their steps is a possible run, whatever
the handle answers and when.

The receiver of the dispatch writes to the output and comes back, whatever the
output takes. `Orderly` says how the two threads stand to each other at every
moment.
-/

namespace WorkerLink.Bridge

def hostThread : Nat := 0

def dispatchThread : Nat := 1

structure Crossing (α : Type) where
  ledger : Ledger α
  relay : Relay α := .start
  /-- The call that the host has asked for and whose end it has not heard. -/
  call? : Option Nat := none
  /-- The dispatch has been started. -/
  opened : Bool := false
  /-- The lines that the host has not heard. -/
  lines : List String
  output : Output

namespace Crossing

variable {α : Type}

/-- A bridge over a fresh handle, before its first step. -/
def opening (pid : Nat) (tuning : Tuning) (lines : List String) (output : Output) : Crossing α where
  ledger := Ledger.spawn { connection := .start pid tuning }
  lines
  output

def telling? (c : Crossing α) : Option (Event α) :=
  (c.ledger.stack dispatchThread).head?.bind fun named => named.call.event?

/-- What may make the host go on, and the lines that are left then. The input has ended for the host
once it has heard all lines. -/
inductive Offers (c : Crossing α) : RelayInput → List String → Prop
  | proceed : Offers c .proceed c.lines
  | timeUp : Offers c .timeUp c.lines
  | line {text : String} {rest : List String} : c.lines = text :: rest →
      Offers c (.heard (.line text)) rest
  | nothing : Offers c (.heard .nothing) c.lines
  | inputEnded : c.lines = [] → Offers c (.heard .inputEnded) []
  | called {name : Nat} {outcome : Outcome} : c.call? = some name →
      c.ledger.fate name = some (.ends outcome) → Offers c (.called outcome) c.lines

/-- Where the dispatch stands: it is not under way, or it is, under the lock. -/
inductive AtDispatch (c : Crossing α) : Prop
  | away : c.ledger.stack dispatchThread = [] → AtDispatch c
  | underWay {name : Nat} {run : Dispatch α} : c.opened = true →
      c.ledger.stack dispatchThread = [⟨name, .dispatch run⟩] → run.host = .locked → AtDispatch c

theorem threads_differ : hostThread ≠ dispatchThread := by decide

theorem telling?_of_stack {c : Crossing α} {named : Named α}
    (h : c.ledger.stack dispatchThread = [named]) : c.telling? = named.call.event? := by
  rw [telling?, h]
  rfl

theorem telling?_of_away {c : Crossing α} (h : c.ledger.stack dispatchThread = []) :
    c.telling? = none := by
  rw [telling?, h]
  rfl

theorem before_holdsHost {input : Input} {call : Call α} {next : Next α}
    (h : Machine.isLocked call = false) :
    Deed.before Machine.holdsHost ⟨.goOn call input, next⟩ = false := by
  simp only [Deed.before, Machine.holdsHost, h, Bool.false_and]

theorem after_holdsHost {cause : Cause α} {next : Next α}
    (h : ∀ call, next = .goesOn call → Machine.isLocked call = false) :
    Deed.after Machine.holdsHost ⟨cause, next⟩ = false := by
  cases next with
  | goesOn call =>
    simp only [Deed.after, Next.goesOnWith, Machine.holdsHost, h call rfl, Bool.false_and]
  | ends outcome => rfl
  | unwinds => rfl

/-- A call under the lock uses it while its receiver has an event. -/
theorem holdsHost_of_isLocked {call : Call α} (h : Machine.isLocked call = true) :
    Machine.holdsHost call = call.event?.isSome := by
  rw [Machine.holdsHost, h, Bool.true_and, Call.isInsideHost]

/-- What a deed of the dispatch leaves is all that the thread runs, and runs under the lock. -/
theorem telling?_of_left {c : Crossing α} {name : Nat} {deed : Deed α}
    (stack : c.ledger.stack dispatchThread = deed.left name)
    (locked : ∀ call, deed.next = .goesOn call → Machine.isLocked call = true) :
    c.telling?.isSome = deed.after Machine.holdsHost := by
  obtain ⟨cause, next⟩ := deed
  cases next with
  | goesOn call =>
    rw [telling?_of_stack stack, Deed.after, Next.goesOnWith,
      holdsHost_of_isLocked (locked call rfl)]
  | ends outcome =>
    rw [telling?_of_away stack]
    rfl
  | unwinds =>
    rw [telling?_of_away stack]
    rfl

variable [Format α]

/-- Where the host stands with its call: it has none, or one is under way for the operation of its
stage, or that one is over and the host has not heard of it. -/
inductive AtCall (c : Crossing α) : Prop
  | idle : c.call? = none → c.ledger.stack hostThread = [] → AtCall c
  | underWay {name : Nat} {call : Call α} {operation : Operation α} :
      c.call? = some name → c.ledger.stack hostThread = [⟨name, call⟩] →
      c.relay.operation? = some operation → call.Serves operation → AtCall c
  | unheard {name : Nat} {next : Next α} {operation : Operation α} :
      c.call? = some name → c.ledger.stack hostThread = [] → c.ledger.fate name = some next →
      (∀ call, next ≠ .goesOn call) → c.relay.operation? = some operation → AtCall c

theorem holdsLock_of_operation {relay : Relay α} {operation : Operation α}
    (h : relay.operation? = some operation) : relay.holdsLock = false := by
  cases relay with
  | holding task => cases h
  | locking _ | listening | sending _ | resting | shuttingDown | joining => rfl

/-- The host asks the connection to send a message, or to shut down. -/
theorem sends_or_shutsDown {relay : Relay α} {operation : Operation α}
    (h : relay.operation? = some operation) :
    (∃ message, relay = .sending message ∧ operation = .send (.ok (Format.print message))) ∨
      relay = .shuttingDown ∧ operation = .shutdown := by
  cases relay with
  | sending message =>
    cases h
    exact .inl ⟨message, rfl, rfl⟩
  | shuttingDown =>
    cases h
    exact .inr ⟨rfl, rfl⟩
  | locking _ | holding _ | listening | resting | joining => cases h

/-- The host does not dispatch. -/
theorem not_dispatch_of_operation {relay : Relay α} {operation : Operation α}
    {call : Call α} (asked : relay.operation? = some operation)
    (serves : call.Serves operation) (run : Dispatch α) : call ≠ .dispatch run := by
  rintro rfl
  rcases sends_or_shutsDown asked with ⟨_, -, rfl⟩ | ⟨-, rfl⟩ <;> cases serves

/-- The calls of the host have no use for its lock. -/
theorem isLocked_of_operation {relay : Relay α} {operation : Operation α}
    {call : Call α} (asked : relay.operation? = some operation)
    (serves : call.Serves operation) : Machine.isLocked call = false := by
  cases call with
  | dispatch run => exact False.elim (not_dispatch_of_operation asked serves run rfl)
  | awaitingSend _ | framing _ | sending _ | awaitingCancel | cancelling => rfl

variable [Memory]

inductive Moves (c : Crossing α) : Crossing α → Prop
  /-- The host takes a step of its own, or hears something. -/
  | relays {input : RelayInput} {lines : List String} {m : Machine α} {relay : Relay α}
      {records : List Log.Record} : c.Offers input lines →
      c.relay.step hostThread c.ledger.machine input = some (m, relay, records) →
      Moves c { c with
        ledger := { c.ledger with hostHolder := m.hostHolder }, relay, lines, call? := none }
  /-- The host asks the connection for the operation of its stage. -/
  | asks {operation : Operation α} {ledger : Ledger α} :
      c.relay.operation? = some operation → c.call? = none →
      c.ledger.next hostThread (.start operation) = some ledger →
      Moves c { c with ledger, call? := some c.ledger.history.length }
  /-- The call of the host goes on. -/
  | answers {input : Input} {ledger : Ledger α} :
      c.ledger.next hostThread (.goOn input) = some ledger → Moves c { c with ledger }
  /-- An exception of the handle takes the host out of its call; what is left is to wait for the
  dispatch. -/
  | unwinds {name : Nat} : c.call? = some name → c.ledger.fate name = some .unwinds →
      Moves c { c with relay := .joining, call? := none }
  /-- The dispatch starts. -/
  | opens {ledger : Ledger α} : c.opened = false →
      c.ledger.next dispatchThread (.start (.dispatch (.ofFormat α) .locked)) = some ledger →
      Moves c { c with ledger, opened := true }
  /-- The dispatch goes on. -/
  | dispatches {input : Input} {ledger : Ledger α} : c.telling? = none →
      c.ledger.next dispatchThread (.goOn input) = some ledger → Moves c { c with ledger }
  /-- The receiver has done with an event what the bridge does with it, and comes back. -/
  | emits {event : Event α} {ledger : Ledger α} : c.telling? = some event →
      c.ledger.next dispatchThread (.goOn .returned) = some ledger →
      Moves c { c with ledger, output := (emit c.ledger.connection c.output event).1 }

/-- What can come about from an opening on. -/
inductive Reachable : Crossing α → Prop
  | start (pid : Nat) (tuning : Tuning) (lines : List String) (output : Output) :
      Reachable (opening pid tuning lines output)
  | moves {c c' : Crossing α} : Reachable c → Moves c c' → Reachable c'

inductive Reaches (c : Crossing α) : Crossing α → Prop
  | refl : Reaches c c
  | moves {c' c'' : Crossing α} : Reaches c c' → Moves c' c'' → Reaches c c''

/-- What the dispatch makes of an answer. The receiver comes back where it has an event. -/
def goOn? (c : Crossing α) (input : Input) : Option (Crossing α) :=
  match c.telling?, input with
  | none, input => (c.ledger.next dispatchThread (.goOn input)).map fun ledger => { c with ledger }
  | some event, .returned =>
    (c.ledger.next dispatchThread (.goOn .returned)).map fun ledger =>
      { c with ledger, output := (emit c.ledger.connection c.output event).1 }
  | some _, _ => none

def follow (c : Crossing α) : List Input → Option (Crossing α)
  | [] => some c
  | input :: inputs => (c.goOn? input).bind fun c' => c'.follow inputs

theorem moves_of_goOn {c c' : Crossing α} {input : Input} (h : c.goOn? input = some c') :
    c.Moves c' ∧ c.ledger.next dispatchThread (.goOn input) = some c'.ledger := by
  unfold goOn? at h
  split at h
  · next htelling =>
    obtain ⟨l, hnext, rfl⟩ := Option.map_eq_some_iff.mp h
    exact ⟨.dispatches htelling hnext, hnext⟩
  · next htelling =>
    obtain ⟨l, hnext, rfl⟩ := Option.map_eq_some_iff.mp h
    exact ⟨.emits htelling hnext, hnext⟩
  · cases h

theorem Reachable.follow {c c' : Crossing α} {inputs : List Input} (r : c.Reachable)
    (h : c.follow inputs = some c') : c'.Reachable := by
  induction inputs generalizing c with
  | nil =>
    cases h
    exact r
  | cons input inputs ih =>
    obtain ⟨c₁, hfirst, hrest⟩ := Option.bind_eq_some_iff.mp h
    exact ih (r.moves (moves_of_goOn hfirst).1) hrest

/-- How the two threads stand to each other and to the lock. -/
structure Orderly (c : Crossing α) : Prop where
  hosted : c.ledger.Hosted
  threads : c.ledger.callStacks.length = 2
  atCall : c.AtCall
  atDispatch : c.AtDispatch
  lock : ∀ thread, c.ledger.hostHolder = some thread ↔
    thread = hostThread ∧ c.relay.holdsLock = true ∨
      thread = dispatchThread ∧ c.telling?.isSome = true

section Steps

variable {c : Crossing α}

/-- As long as a call of the host is under way, it has no end. -/
theorem Orderly.fate_of_underWay (o : c.Orderly) {name : Nat} {call : Call α}
    (h : c.ledger.stack hostThread = [⟨name, call⟩]) :
    c.ledger.fate name = some (.goesOn call) := by
  have hmem : ⟨name, call⟩ ∈ c.ledger.calls :=
    Ledger.mem_calls_of_stack (by rw [h]; exact List.mem_singleton_self _)
  exact (o.hosted.shared.sound.trail _ hmem).last

/-- Where the host has heard of the end of its call, or asks for none, none is under way. -/
theorem Orderly.away_of_over (o : c.Orderly) {name : Nat} {next : Next α}
    (asked : c.call? = some name) (fate : c.ledger.fate name = some next)
    (ended : ∀ call, next ≠ .goesOn call) : c.ledger.stack hostThread = [] := by
  cases o.atCall with
  | idle _ hstack => exact hstack
  | unheard _ hstack _ _ _ => exact hstack
  | underWay hname hstack _ _ =>
    rw [asked] at hname
    cases hname
    rw [o.fate_of_underWay hstack] at fate
    cases fate
    exact False.elim (ended _ rfl)

/-- The receiver has no event while the host has the lock. -/
theorem Orderly.not_telling (o : c.Orderly) (holds : c.relay.holdsLock = true) :
    c.telling? = none := by
  by_contra htelling
  have hhost : c.ledger.hostHolder = some hostThread := (o.lock _).mpr (.inl ⟨rfl, holds⟩)
  have hdispatch : c.ledger.hostHolder = some dispatchThread :=
    (o.lock _).mpr (.inr ⟨rfl, Option.isSome_iff_ne_none.mpr htelling⟩)
  rw [hhost] at hdispatch
  exact threads_differ (Option.some.inj hdispatch)

theorem Orderly.not_telling_of_free (o : c.Orderly) (free : c.ledger.hostHolder = none) :
    c.telling? = none := by
  by_contra htelling
  have hdispatch : c.ledger.hostHolder = some dispatchThread :=
    (o.lock _).mpr (.inr ⟨rfl, Option.isSome_iff_ne_none.mpr htelling⟩)
  rw [free] at hdispatch
  cases hdispatch

/-- Where the host goes on with a step of its own, no call of it is under way. -/
theorem Orderly.away_of_relays (o : c.Orderly) {input : RelayInput} {lines : List String}
    {relay : Relay α} (offers : c.Offers input lines)
    (goes : Relay.Goes c.ledger.connection c.relay input relay) :
    c.ledger.stack hostThread = [] := by
  cases o.atCall with
  | idle _ hstack => exact hstack
  | unheard _ hstack _ _ _ => exact hstack
  | underWay hname hstack hoperation _ =>
    -- A host that waits for a call goes on only once the call has ended.
    generalize c.relay = before at hoperation goes
    cases goes with
    | sent | shutDown =>
      cases offers with
      | called hcall hfate => exact o.away_of_over hcall hfate (by simp)
    | takes | stops _ | listens _ | forwards _ | skips _ | hearsNothing | hearsEnd | reviews
    | rests _ | drained _ | givesUp | leaves | hears | wakes => cases hoperation

theorem Orderly.relays (o : c.Orderly) {input : RelayInput} {lines : List String}
    {m : Machine α} {relay : Relay α} {records : List Log.Record}
    (offers : c.Offers input lines)
    (step : c.relay.step hostThread c.ledger.machine input = some (m, relay, records)) :
    Orderly { c with
      ledger := { c.ledger with hostHolder := m.hostHolder }, relay, lines, call? := none } := by
  have hgoes := Relay.goes_of_step step
  obtain ⟨hholder, hfree⟩ := Relay.holder_of_step step
  have haway := o.away_of_relays offers hgoes
  have hunlocked : ∀ named ∈ c.ledger.stack hostThread, Machine.isLocked named.call = false := by
    rw [haway]
    simp
  have hsame : c.ledger.machine.hostHolder = c.ledger.hostHolder := rfl
  rw [hsame] at hholder hfree
  refine ⟨?_, o.threads, .idle rfl haway, ?_, ?_⟩
  · rw [hholder]
    by_cases hafter : relay.holdsLock = true
    · rw [if_pos hafter]
      by_cases hbefore : c.relay.holdsLock = true
      · have hhost : c.ledger.hostHolder = some hostThread := (o.lock _).mpr (.inl ⟨rfl, hbefore⟩)
        rw [← hhost]
        exact o.hosted
      · exact o.hosted.takes (hfree (by simpa using hbefore) hafter) hunlocked
    · rw [if_neg hafter]
      by_cases hbefore : c.relay.holdsLock = true
      · rw [if_pos hbefore]
        exact o.hosted.gives ⟨(o.lock _).mpr (.inl ⟨rfl, hbefore⟩), hunlocked⟩
      · rw [if_neg hbefore]
        exact o.hosted
  · cases o.atDispatch with
    | away hstack => exact .away hstack
    | underWay hopened hstack hlocked => exact .underWay hopened hstack hlocked
  · intro thread
    change m.hostHolder = some thread ↔ thread = hostThread ∧ relay.holdsLock = true ∨
      thread = dispatchThread ∧ c.telling?.isSome = true
    by_cases hafter : relay.holdsLock = true
    · have hnone : c.telling? = none := by
        by_cases hbefore : c.relay.holdsLock = true
        · exact o.not_telling hbefore
        · exact o.not_telling_of_free (hfree (by simpa using hbefore) hafter)
      rw [hholder, if_pos hafter, hnone]
      simp [hafter, eq_comm]
    · by_cases hbefore : c.relay.holdsLock = true
      · rw [hholder, if_neg hafter, if_pos hbefore, o.not_telling hbefore]
        simp [hafter]
      · rw [hholder, if_neg hafter, if_neg hbefore, o.lock thread]
        simp [hafter, hbefore]

section Deeds

variable {l : Ledger α}

theorem Orderly.away_of_idle (o : c.Orderly) (idle : c.call? = none) :
    c.ledger.stack hostThread = [] := by
  cases o.atCall with
  | idle _ h => exact h
  | underWay h _ _ _ => rw [idle] at h; cases h
  | unheard h _ _ _ _ => rw [idle] at h; cases h

theorem Orderly.away_of_closed (o : c.Orderly) (closed : c.opened = false) :
    c.ledger.stack dispatchThread = [] := by
  cases o.atDispatch with
  | away h => exact h
  | underWay h _ _ => rw [closed] at h; cases h

/-- The call that the host asks for serves the operation of its stage. -/
theorem Orderly.starts_of_asks (o : c.Orderly) {operation : Operation α}
    (idle : c.call? = none) (next : c.ledger.next hostThread (.start operation) = some l) :
    ∃ next' before after, (∀ call, next' = .goesOn call → call.Serves operation) ∧
      Ledger.Moves c.ledger l c.ledger.history.length ⟨.start operation, next'⟩ before after ∧
      Ledger.Shifts c.ledger l hostThread (.start operation) c.ledger.history.length
        ⟨.start operation, next'⟩ [] := by
  obtain ⟨next', before, after, hm, hs⟩ := Ledger.starts_of_next next
  rw [o.away_of_idle idle] at hs
  refine ⟨next', before, after, ?_, hm, hs⟩
  rintro call rfl
  have hdoes := hm.does
  cases hdoes with
  | starts hstarts => exact serves_start hstarts

/-- The host's call goes on with the operation that it serves. -/
theorem Orderly.goesOn_of_answers (o : c.Orderly) {input : Input}
    (next : c.ledger.next hostThread (.goOn input) = some l) :
    ∃ name call operation next' before after, c.call? = some name ∧
      c.ledger.stack hostThread = [⟨name, call⟩] ∧ c.relay.operation? = some operation ∧
      call.Serves operation ∧ (∀ call', next' = .goesOn call' → call'.Serves operation) ∧
      Ledger.Moves c.ledger l name ⟨.goOn call input, next'⟩ before after ∧
      Ledger.Shifts c.ledger l hostThread (.goOn input) name ⟨.goOn call input, next'⟩ [] := by
  obtain ⟨name, call, below, next', before, after, hstack, hm, hs⟩ := Ledger.goesOn_of_next next
  cases o.atCall with
  | idle _ h => rw [h] at hstack; cases hstack
  | unheard _ h _ _ _ => rw [h] at hstack; cases hstack
  | @underWay _ _ operation hname h hoperation hserves =>
    rw [h] at hstack
    cases hstack
    refine ⟨name, call, operation, next', before, after, hname, h, hoperation, hserves, ?_, hm, hs⟩
    rintro call' rfl
    have hdoes := hm.does
    cases hdoes with
    | goesOn hgoes => exact hserves.goes hgoes

theorem Orderly.starts_of_opens (o : c.Orderly) {operation : Operation α}
    (closed : c.opened = false)
    (next : c.ledger.next dispatchThread (.start operation) = some l) :
    ∃ next' before after,
      Ledger.Moves c.ledger l c.ledger.history.length ⟨.start operation, next'⟩ before after ∧
      Ledger.Shifts c.ledger l dispatchThread (.start operation) c.ledger.history.length
        ⟨.start operation, next'⟩ [] := by
  obtain ⟨next', before, after, hm, hs⟩ := Ledger.starts_of_next next
  rw [o.away_of_closed closed] at hs
  exact ⟨next', before, after, hm, hs⟩

/-- On the thread of the dispatch nothing goes on but the dispatch. -/
theorem Orderly.goesOn_of_dispatches (o : c.Orderly) {input : Input}
    (next : c.ledger.next dispatchThread (.goOn input) = some l) :
    ∃ name run next' before after, c.opened = true ∧
      c.ledger.stack dispatchThread = [⟨name, .dispatch run⟩] ∧ run.host = .locked ∧
      Ledger.Moves c.ledger l name ⟨.goOn (.dispatch run) input, next'⟩ before after ∧
      Ledger.Shifts c.ledger l dispatchThread (.goOn input) name
        ⟨.goOn (.dispatch run) input, next'⟩ [] := by
  obtain ⟨name, call, below, next', before, after, hstack, hm, hs⟩ := Ledger.goesOn_of_next next
  cases o.atDispatch with
  | away h => rw [h] at hstack; cases hstack
  | @underWay _ run hopened h hlocked =>
    rw [h] at hstack
    cases hstack
    exact ⟨name, run, next', before, after, hopened, h, hlocked, hm, hs⟩

end Deeds

section ByHost

variable {l : Ledger α} {move : Move α} {name : Nat} {deed : Deed α}
  {below : List (Named α)} {call? : Option Nat}

/-- What the host does on its own thread without the lock leaves the dispatch and the lock alone. -/
theorem Orderly.by_host (o : c.Orderly) (next : c.ledger.next hostThread move = some l)
    (shifts : Ledger.Shifts c.ledger l hostThread move name deed below)
    (before : deed.before Machine.holdsHost = false) (after : deed.after Machine.holdsHost = false)
    (noDispatch : ∀ codec, move ≠ .start (.dispatch codec .locked))
    (atCall : AtCall { c with ledger := l, call? }) : Orderly { c with ledger := l, call? } := by
  have hstack : l.stack dispatchThread = c.ledger.stack dispatchThread :=
    shifts.others _ threads_differ.symm
  have hholder : l.hostHolder = c.ledger.hostHolder := by
    cases shifts.lock with
    | leaves h _ => rw [before] at h; cases h
    | enters _ h _ _ => rw [after] at h; cases h
    | keeps _ _ h => exact h
  have htelling : telling? { c with ledger := l, call? } = c.telling? := by
    simp only [telling?, hstack]
  refine ⟨o.hosted.next next fun codec hmove => False.elim (noDispatch codec hmove), ?_, atCall,
    ?_, ?_⟩
  · exact (Ledger.callStacks_length next).trans o.threads
  · cases o.atDispatch with
    | away h => exact .away (hstack.trans h)
    | underWay hopened h hlocked => exact .underWay hopened (hstack.trans h) hlocked
  · intro thread
    rw [htelling]
    exact hholder ▸ o.lock thread

theorem Orderly.asks (o : c.Orderly) {operation : Operation α}
    (asked : c.relay.operation? = some operation) (idle : c.call? = none)
    (next : c.ledger.next hostThread (.start operation) = some l) :
    Orderly { c with ledger := l, call? := some c.ledger.history.length } := by
  obtain ⟨next', before, after, hserves, hm, hs⟩ := o.starts_of_asks idle next
  have hleft : l.stack hostThread = Deed.left c.ledger.history.length ⟨.start operation, next'⟩ := by
    rw [hs.left, List.append_nil]
  have hnoDispatch : ∀ codec, Move.start operation ≠ .start (.dispatch codec .locked) := by
    rintro codec ⟨⟩
    rcases sends_or_shutsDown asked with ⟨_, -, he⟩ | ⟨-, he⟩ <;> cases he
  refine o.by_host next hs rfl (after_holdsHost fun call hcall =>
    isLocked_of_operation asked (hserves call hcall)) hnoDispatch ?_
  cases next' with
  | goesOn call => exact .underWay rfl hleft asked (hserves call rfl)
  | ends outcome => exact .unheard rfl hleft hm.fate_self (by simp) asked
  | unwinds => exact .unheard rfl hleft hm.fate_self (by simp) asked

theorem Orderly.answers (o : c.Orderly) {input : Input}
    (next : c.ledger.next hostThread (.goOn input) = some l) :
    Orderly { c with ledger := l } := by
  obtain ⟨name, call, operation, next', before, after, hname, hstack, hoperation, hserves, hserves',
    hm, hs⟩ := o.goesOn_of_answers next
  have hleft : l.stack hostThread = Deed.left name ⟨.goOn call input, next'⟩ := by
    rw [hs.left, List.append_nil]
  refine o.by_host next hs (before_holdsHost (isLocked_of_operation hoperation hserves))
    (after_holdsHost fun call' hcall => isLocked_of_operation hoperation (hserves' call' hcall))
    (by simp) ?_
  cases next' with
  | goesOn call' => exact .underWay hname hleft hoperation (hserves' call' rfl)
  | ends outcome => exact .unheard hname hleft hm.fate_self (by simp) hoperation
  | unwinds => exact .unheard hname hleft hm.fate_self (by simp) hoperation

theorem Orderly.unwinds (o : c.Orderly) (asked : c.call? = some name)
    (fate : c.ledger.fate name = some .unwinds) :
    Orderly { c with relay := .joining, call? := none } := by
  have haway := o.away_of_over asked fate (by simp)
  have hwaits : c.relay.holdsLock = false := by
    cases o.atCall with
    | idle h _ => rw [asked] at h; cases h
    | underWay _ _ h _ => exact holdsLock_of_operation h
    | unheard _ _ _ _ h => exact holdsLock_of_operation h
  refine ⟨o.hosted, o.threads, .idle rfl haway, ?_, ?_⟩
  · cases o.atDispatch with
    | away h => exact .away h
    | underWay hopened h hlocked => exact .underWay hopened h hlocked
  · intro thread
    have hold := o.lock thread
    rw [hwaits] at hold
    exact hold

end ByHost

section ByDispatch

variable {l : Ledger α} {move : Move α} {name : Nat} {deed : Deed α}
  {before after below : List (Named α)}

/-- What the dispatch does leaves the host with its call. -/
theorem Orderly.atCall_by_dispatch (o : c.Orderly)
    (moves : Ledger.Moves c.ledger l name deed before after)
    (shifts : Ledger.Shifts c.ledger l dispatchThread move name deed below)
    {opened : Bool} {output : Output} : AtCall { c with ledger := l, opened, output } := by
  have hstack : l.stack hostThread = c.ledger.stack hostThread := shifts.others _ threads_differ
  cases o.atCall with
  | idle hnone h => exact .idle hnone (hstack.trans h)
  | underWay hname h hoperation hserves =>
    exact .underWay hname (hstack.trans h) hoperation hserves
  | unheard hname h hfate hover hoperation =>
    exact .unheard hname (hstack.trans h) (o.hosted.shared.sound.fate_of_over moves hfate hover)
      hover hoperation

/-- After a step of the dispatch the lock is with the receiver, if that has an event now. If it has
none and had none before, nothing has changed. -/
theorem Orderly.by_dispatch (o : c.Orderly) (next : c.ledger.next dispatchThread move = some l)
    (moves : Ledger.Moves c.ledger l name deed before after)
    (shifts : Ledger.Shifts c.ledger l dispatchThread move name deed [])
    (apart : ∀ codec, move = .start (.dispatch codec .locked) →
      ¬ c.ledger.HoldsApart dispatchThread)
    (had : c.telling?.isSome = deed.before Machine.holdsHost)
    (locked : ∀ call, deed.next = .goesOn call →
      ∃ run, call = .dispatch run ∧ run.host = .locked)
    {opened : Bool} {output : Output} (isOpen : opened = true) :
    Orderly { c with ledger := l, opened, output } := by
  have hleft : l.stack dispatchThread = deed.left name := by
    rw [shifts.left, List.append_nil]
  have hlocked : ∀ call, deed.next = .goesOn call → Machine.isLocked call = true := fun call hcall =>
    Machine.isLocked_iff.mpr (locked call hcall)
  have has : (telling? { c with ledger := l, opened, output }).isSome =
      deed.after Machine.holdsHost := telling?_of_left hleft hlocked
  refine ⟨o.hosted.next next apart, (Ledger.callStacks_length next).trans o.threads,
    o.atCall_by_dispatch moves shifts, ?_, ?_⟩
  · cases hnext : deed.next with
    | goesOn call =>
      obtain ⟨run, rfl, hhost⟩ := locked call hnext
      have hstack : l.stack dispatchThread = [⟨name, .dispatch run⟩] := by
        rw [hleft, Deed.left, hnext]
      exact .underWay isOpen hstack hhost
    | ends outcome =>
      refine .away (hleft.trans ?_)
      rw [Deed.left, hnext]
    | unwinds =>
      refine .away (hleft.trans ?_)
      rw [Deed.left, hnext]
  · intro thread
    rw [has]
    change l.hostHolder = some thread ↔ thread = hostThread ∧ c.relay.holdsLock = true ∨
      thread = dispatchThread ∧ deed.after Machine.holdsHost = true
    have hold := o.lock thread
    rw [had] at hold
    cases shifts.lock with
    | leaves hbefore hfree =>
      have hafter := moves.does.not_after_holdsHost hbefore
      have hwaits : c.relay.holdsLock ≠ true := by
        intro hholds
        rw [o.not_telling hholds, hbefore] at had
        cases had
      rw [hfree, hafter]
      simp [hwaits]
    | enters hbefore hafter hfree hholder =>
      have hwaits : c.relay.holdsLock ≠ true := by
        intro hholds
        have hhost : c.ledger.hostHolder = some hostThread := (o.lock _).mpr (.inl ⟨rfl, hholds⟩)
        rw [hfree] at hhost
        cases hhost
      rw [hholder, hafter]
      simp [hwaits, eq_comm]
    | keeps hbefore hafter hsame =>
      rw [hbefore] at hold
      rw [hsame, hold, hafter]

theorem Orderly.opens (o : c.Orderly) (closed : c.opened = false)
    (next : c.ledger.next dispatchThread (.start (.dispatch (.ofFormat α) .locked)) = some l) :
    Orderly { c with ledger := l, opened := true } := by
  obtain ⟨next', before, after, hm, hs⟩ := o.starts_of_opens closed next
  have hnone : c.telling? = none := telling?_of_away (o.away_of_closed closed)
  refine o.by_dispatch next hm hs ?_ (by rw [hnone]; rfl) ?_ rfl
  · rintro codec - ⟨hholder, -⟩
    rcases (o.lock _).mp hholder with ⟨h, -⟩ | ⟨-, h⟩
    · exact threads_differ h.symm
    · rw [hnone] at h
      cases h
  · rintro call hcall
    have hdoes := hm.does
    obtain rfl : next' = .goesOn call := hcall
    generalize l.connection = c' at hdoes
    cases hdoes with
    | starts hstarts =>
      cases hstarts with
      | dispatches _ => exact ⟨_, rfl, rfl⟩

/-- The dispatch goes on. -/
theorem Orderly.dispatches (o : c.Orderly) {input : Input}
    (next : c.ledger.next dispatchThread (.goOn input) = some l) {output : Output} :
    Orderly { c with ledger := l, output } := by
  obtain ⟨name, run, next', before, after, hopened, hstack, hlocked, hm, hs⟩ :=
    o.goesOn_of_dispatches next
  refine o.by_dispatch next hm hs (by simp) ?_ ?_ hopened
  · rw [telling?_of_stack hstack]
    exact (holdsHost_of_isLocked (Machine.isLocked_iff.mpr ⟨run, rfl, hlocked⟩)).symm
  · rintro call hcall
    have hdoes := hm.does
    obtain rfl : next' = .goesOn call := hcall
    cases hdoes with
    | goesOn hgoes =>
      cases hgoes with
      | dispatches hgoes =>
        obtain ⟨run', rfl, hadvances⟩ := hgoes.advances
        exact ⟨run', rfl, hadvances.host.trans hlocked⟩

end ByDispatch

theorem Orderly.moves {c' : Crossing α} (o : c.Orderly) (h : c.Moves c') : c'.Orderly := by
  cases h with
  | relays offers step => exact o.relays offers step
  | asks asked idle next => exact o.asks asked idle next
  | answers next => exact o.answers next
  | unwinds asked fate => exact o.unwinds asked fate
  | opens closed next => exact o.opens closed next
  | dispatches _ next => exact o.dispatches next
  | emits _ next => exact o.dispatches next

theorem Orderly.reaches {c' : Crossing α} (o : c.Orderly) (h : c.Reaches c') : c'.Orderly := by
  induction h with
  | refl => exact o
  | moves _ hmoves ih => exact ih.moves hmoves

end Steps

theorem orderly_opening (pid : Nat) (tuning : Tuning) (lines : List String) (output : Output) :
    (opening pid tuning lines output : Crossing α).Orderly := by
  have hdispatch : (opening pid tuning lines output : Crossing α).telling? = none := rfl
  refine ⟨.spawn (.start pid tuning), rfl, .idle rfl rfl, .away rfl, ?_⟩
  intro thread
  rw [hdispatch]
  simp [opening, Ledger.spawn, Relay.start, Relay.holdsLock]

theorem Reachable.orderly {c : Crossing α} (h : c.Reachable) : c.Orderly := by
  induction h with
  | start pid tuning lines output => exact orderly_opening pid tuning lines output
  | moves _ hmoves ih => exact ih.moves hmoves

end Crossing

end WorkerLink.Bridge
