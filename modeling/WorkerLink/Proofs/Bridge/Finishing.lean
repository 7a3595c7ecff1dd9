import WorkerLink.Proofs.Bridge.Forwarding
import WorkerLink.Proofs.Bridge.Locking

/-!
# Every line is dealt with in the end

As long as the connection is not done and nothing disturbs the bridge, the host
comes to the end of the lines by steps of its own. It needs the receiver to come
back from an event that it has, and the handle to answer; it never needs the
worker to say anything. `ahead` bounds what the host still has to do, and from
wherever lines are left it can be made less (`Undisturbed.exists_nearer`).
-/

namespace WorkerLink.Bridge

variable {α : Type}

/-- What the host still has to do before it listens again, where the steps of its call count for
`waiting`. -/
def Relay.ahead (waiting : Nat) : Relay α → Nat
  | .locking (.handle (.line _)) => 11
  | .holding (.handle (.line _)) => 10
  | .sending _ => 4 + waiting
  | .locking _ => 4
  | .holding .check => 2
  | .holding _ => 3
  | .listening => 1
  | .resting | .shuttingDown | .joining => 0

theorem Relay.ahead_holding {task : Task} (now : task.isPast = false) (waiting waiting' : Nat) :
    (Relay.holding task : Relay α).ahead waiting <
      (Relay.locking task : Relay α).ahead waiting' := by
  cases task with
  | handle heard =>
    cases heard with
    | line _ | nothing => simp [Relay.ahead]
    | inputEnded => cases now
  | check | review _ => simp [Relay.ahead]
  | drain | leave => cases now

theorem Relay.Goes.ahead_lt [Format α] {c : Connection} {task : Task} {r : Relay α}
    (h : Relay.Goes c (.holding task) .proceed r) (now : task.isPast = false)
    (undone : c.done = false) {waiting : Nat} (few : waiting ≤ 5) (waiting' : Nat) :
    r.ahead waiting < (Relay.holding task : Relay α).ahead waiting' := by
  cases h with
  | stops hdone =>
    rw [undone] at hdone
    cases hdone
  | forwards _ =>
    simp only [Relay.ahead]
    omega
  | listens _ | skips _ | hearsNothing | reviews => simp [Relay.ahead]
  | hearsEnd | rests _ | drained _ | leaves => cases now

namespace Crossing

def waiting (c : Crossing α) : Nat :=
  match c.call?, c.ledger.stack hostThread with
  | none, _ => 5
  | some _, [] => 1
  | some _, ⟨_, .awaitingSend _⟩ :: _ => 4
  | some _, ⟨_, .framing _⟩ :: _ => 3
  | some _, _ => 2

/-- What the host still has to do, at most, before it has consumed the lines. -/
def ahead (c : Crossing α) : Nat := 12 * c.lines.length + c.relay.ahead c.waiting

theorem waiting_le (c : Crossing α) : c.waiting ≤ 5 := by
  unfold waiting
  split <;> omega

/-- What is done for the call of a host that sends is done for the lines. -/
theorem ahead_lt_of_waiting {c c' : Crossing α} {message : α}
    (sending : c.relay = .sending message) (relay : c'.relay = c.relay)
    (lines : c'.lines = c.lines) (less : c'.waiting < c.waiting) : c'.ahead < c.ahead := by
  rw [ahead, ahead, relay, lines, sending, Relay.ahead, Relay.ahead]
  omega

variable [Format α] [Memory]

/-- The bridge comes from `c` to `c'` without disturbance, and the connection is not done yet. -/
structure Comes (all : List String) (c c' : Crossing α) : Prop where
  reaches : c.Reaches c'
  undisturbed : Undisturbed all c'
  undone : c'.ledger.connection.done = false

theorem Reaches.trans {c c' c'' : Crossing α} (h : c.Reaches c') (k : c'.Reaches c'') :
    c.Reaches c'' := by
  induction k with
  | refl => exact h
  | moves _ hmoves ih => exact ih.moves hmoves

theorem Comes.trans {all : List String} {c c' c'' : Crossing α} (h : Comes all c c')
    (k : Comes all c' c'') : Comes all c c'' :=
  ⟨h.reaches.trans k.reaches, k.undisturbed, k.undone⟩

section Steps

variable {c : Crossing α} {all : List String}

theorem Accounts.consumed_of_past (a : c.Accounts all) (past : c.relay.isPast = true) :
    c.Consumed := ⟨a.past past, Relay.inHand_of_isPast past⟩

/-- A step that leaves the connection alive, and leaves no frame to the handle but as a whole,
disturbs nothing. -/
theorem Undisturbed.comes {c' : Crossing α} (u : Undisturbed all c) (moves : c.Moves c')
    (undone : c'.ledger.connection.done = false) (takesAll : c'.ledger.TakesAll) :
    Comes all c c' := by
  have hnever (hdone : c'.ledger.connection.done = true) : False := by
    rw [undone] at hdone
    cases hdone
  refine ⟨.moves .refl moves, u.moves moves ⟨?_, takesAll, ?_⟩, undone⟩
  · exact fun hdone => (hnever hdone).elim
  · exact fun hdone => (hnever hdone).elim

/-- A step of the host by itself disturbs nothing. -/
theorem Undisturbed.relays (u : Undisturbed all c) (undone : c.ledger.connection.done = false)
    {input : RelayInput} {lines : List String} {m : Machine α} {relay : Relay α}
    {records : List Log.Record} (offers : c.Offers input lines)
    (step : c.relay.step hostThread c.ledger.machine input = some (m, relay, records)) :
    ∃ c', Comes all c c' ∧ c'.relay = relay ∧ c'.lines = lines :=
  ⟨_, u.comes (.relays offers step) undone u.calm.takesAll, rfl, rfl⟩

/-- The dispatch starts. -/
theorem Undisturbed.opens (u : Undisturbed all c) (closed : c.opened = false)
    {l : Ledger α}
    (next : c.ledger.next dispatchThread (.start (.dispatch (.ofFormat α) .locked)) = some l)
    (undone : l.connection.done = false) : Comes all c { c with ledger := l, opened := true } :=
  u.comes (.opens closed next) undone (u.calm.takesAll.starts next)

/-- Where the connection is not done at the end of a run of the dispatch, it has not been before. -/
theorem undone_of_follow {c' : Crossing α} {inputs : List Input} (h : c.follow inputs = some c')
    (undone : c'.ledger.connection.done = false) : c.ledger.connection.done = false := by
  induction inputs generalizing c with
  | nil =>
    cases h
    exact undone
  | cons input inputs ih =>
    obtain ⟨c₁, hfirst, hrest⟩ := Option.bind_eq_some_iff.mp h
    obtain ⟨_, _, _, _, hm⟩ := Ledger.moves_of_next (moves_of_goOn hfirst).2
    rw [Bool.eq_false_iff]
    intro hdone
    have hdone' := hm.does.follows.done hdone
    rw [ih hrest] at hdone'
    cases hdone'

theorem Undisturbed.follow {c' : Crossing α} {inputs : List Input} (u : Undisturbed all c)
    (h : c.follow inputs = some c') (undone : c'.ledger.connection.done = false) :
    Comes all c c' := by
  induction inputs generalizing c with
  | nil =>
    cases h
    exact ⟨.refl, u, undone⟩
  | cons input inputs ih =>
    obtain ⟨c₁, hfirst, hrest⟩ := Option.bind_eq_some_iff.mp h
    obtain ⟨hmoves, hnext⟩ := moves_of_goOn hfirst
    have htakesAll := u.reachable.orderly.takesAll_by_dispatch hnext u.calm.takesAll
    have hcomes := u.comes hmoves (undone_of_follow hrest undone) htakesAll
    exact hcomes.trans (ih hcomes.undisturbed hrest)

/-- The receiver comes back from an event. -/
theorem Undisturbed.emits (u : Undisturbed all c) {event : Event α}
    {l : Ledger α} (telling : c.telling? = some event)
    (next : c.ledger.next dispatchThread (.goOn .returned) = some l)
    (undone : l.connection.done = false) :
    Comes all c { c with ledger := l, output := (emit c.ledger.connection c.output event).1 } :=
  u.comes (.emits telling next) undone
    (u.reachable.orderly.takesAll_by_dispatch next u.calm.takesAll)

/-- A receiver with an event comes back from it and lets go of the lock. -/
theorem Undisturbed.comes_back (u : Undisturbed all c)
    (undone : c.ledger.connection.done = false) {event : Event α}
    (telling : c.telling? = some event) : ∃ c', Comes all c c' ∧
      c'.ledger.hostHolder = none ∧ c'.relay = c.relay ∧ c'.lines = c.lines := by
  cases u.reachable.orderly.atDispatch with
  | away h => rw [telling?_of_away h] at telling; cases telling
  | @underWay name run _ h hlocked =>
    have htells : run.stage = .notifying event := by
      rw [telling?_of_stack h] at telling
      simp only [Call.event?] at telling
      split at telling
      · next hstage =>
        cases telling
        exact hstage
      · cases telling
    have hstep : (Call.dispatch run).step c.ledger.connection .returned =
        some (run.goesTo c.ledger.connection
          (if event.isEndOfStream then .awaitingClose else .looping)) := by
      simp only [Call.step, Dispatch.step, htells]
    have hin : Machine.holdsHost (.dispatch run) = true := by
      simp [Machine.holdsHost, Machine.isLocked, hlocked, Call.isInsideHost, Call.event?, htells]
    have hlock : c.ledger.machine.hostAfter dispatchThread (.dispatch run)
        (run.goesTo c.ledger.connection
          (if event.isEndOfStream then .awaitingClose else .looping)) = some none := by
      rw [Machine.hostAfter_eq, if_pos hin]
    obtain ⟨l, hnext, hconnection, hholder, -, -⟩ := Ledger.exists_goOn h hstep hlock
    have hundone : l.connection.done = false :=
      (congrArg Connection.done hconnection).trans undone
    exact ⟨_, u.emits telling hnext hundone, hholder, rfl, rfl⟩

/-- A host that wants the lock gets it. -/
theorem Undisturbed.takes (u : Undisturbed all c) (undone : c.ledger.connection.done = false)
    {task : Task} (locking : c.relay = .locking task) :
    ∃ c', Comes all c c' ∧ c'.relay = .holding task ∧ c'.lines = c.lines := by
  obtain ⟨c₁, hcomes, hfree, hrelay, hlines⟩ : ∃ c₁, Comes all c c₁ ∧
      c₁.ledger.hostHolder = none ∧ c₁.relay = c.relay ∧ c₁.lines = c.lines := by
    cases hholder : c.ledger.hostHolder with
    | none => exact ⟨c, ⟨.refl, u, undone⟩, hholder, rfl, rfl⟩
    | some thread =>
      rcases (u.reachable.orderly.lock thread).mp hholder with ⟨-, hholds⟩ | ⟨-, htelling⟩
      · rw [locking] at hholds
        cases hholds
      · obtain ⟨event, htelling⟩ := Option.isSome_iff_exists.mp htelling
        exact u.comes_back undone htelling
  have hstep : c₁.relay.step hostThread c₁.ledger.machine .proceed =
      some ({ c₁.ledger.machine with hostHolder := some hostThread }, .holding task, []) := by
    have hholder : c₁.ledger.machine.hostHolder = none := hfree
    rw [hrelay, locking]
    simp only [Relay.step, hholder, Option.isNone_none, if_true]
  obtain ⟨c₂, hcomes₂, hholding, hlines₂⟩ := hcomes.undisturbed.relays hcomes.undone .proceed hstep
  exact ⟨c₂, hcomes.trans hcomes₂, hholding, hlines₂.trans hlines⟩

section Sending

variable {name : Nat} {message : α}

/-- The host asks for a send. -/
theorem Undisturbed.asks (u : Undisturbed all c) (undone : c.ledger.connection.done = false)
    (sending : c.relay = .sending message) (idle : c.call? = none) :
    ∃ c', Comes all c c' ∧ c'.relay = c.relay ∧ c'.lines = c.lines ∧ c'.waiting = 4 := by
  have o := u.reachable.orderly
  have haway := o.away_of_idle idle
  have hwithin : hostThread < c.ledger.callStacks.length := by
    rw [o.threads]
    decide
  have hasked : c.relay.operation? = some (.send (.ok (Format.print message))) := by
    rw [sending]
    rfl
  obtain ⟨l, hnext, hconnection, -, hstack, -⟩ :=
    Ledger.exists_start (.send (.ok (Format.print message))) hwithin haway
  have hundone : l.connection.done = false := (congrArg Connection.done hconnection).trans undone
  refine ⟨_, u.comes (.asks hasked idle hnext) hundone (u.calm.takesAll.starts hnext), rfl, rfl, ?_⟩
  simp only [waiting, hstack, Call.start, Deed.left]

/-- The send goes on with an answer that the handle owes it. -/
theorem Undisturbed.answers (u : Undisturbed all c) {call : Call α} {input : Input}
    {s : Step α} (stack : c.ledger.stack hostThread = [⟨name, call⟩])
    (step : call.step c.ledger.connection input = some s)
    (before : Machine.holdsHost call = false) (after : s.next.goesOnWith Machine.holdsHost = false)
    (undone : s.connection.done = false) (takesAll : Deed.TakesAll ⟨.goOn call input, s.next⟩) :
    ∃ c', Comes all c c' ∧ c'.relay = c.relay ∧ c'.lines = c.lines ∧ c'.call? = c.call? ∧
      c'.ledger.stack hostThread = Deed.left name ⟨.goOn call input, s.next⟩ := by
  have hlock : c.ledger.machine.hostAfter hostThread call s = some c.ledger.machine.hostHolder := by
    rw [Machine.hostAfter_eq, if_neg (by simp [before]), if_neg (by simp [after])]
  obtain ⟨l, hnext, hconnection, -, hleft, hhistory⟩ := Ledger.exists_goOn stack step hlock
  have hundone : l.connection.done = false := (congrArg Connection.done hconnection).trans undone
  have htakesAll : l.TakesAll := (Ledger.takesAll_snoc hhistory).mpr ⟨u.calm.takesAll, takesAll⟩
  rw [List.append_nil] at hleft
  exact ⟨_, u.comes (.answers hnext) hundone htakesAll, rfl, rfl, rfl, hleft⟩

/-- A send that waits for the handle gets it. -/
theorem Undisturbed.takesHandle (u : Undisturbed all c)
    (undone : c.ledger.connection.done = false) {payload : Bytes}
    (stack : c.ledger.stack hostThread = [⟨name, .awaitingSend payload⟩]) :
    ∃ c', Comes all c c' ∧ c'.relay = c.relay ∧ c'.lines = c.lines ∧ c'.call? = c.call? ∧
      c'.ledger.stack hostThread = [⟨name, .framing payload⟩] := by
  obtain ⟨hpresent, hfree⟩ := u.reachable.orderly.slot_free undone (by
    rw [stack]
    simp [Call.holdsHandle])
  have hclaim := Connection.claim_eq_ok.mpr ⟨hpresent, hfree, rfl⟩
  have hstep : (Call.awaitingSend payload : Call α).step c.ledger.connection .proceed =
      some ⟨{ c.ledger.connection with slot := { c.ledger.connection.slot with busy := true } },
        .goesOn (.framing payload), []⟩ := by
    simp only [Call.step, Slot.mustWait, hfree, Bool.false_and, Bool.false_eq_true, if_false,
      Call.claimSend, hclaim]
  exact u.answers stack hstep rfl rfl undone (Deed.takesAll_of_aside (by simp))

/-- Where there is memory for the frame, the send has it put together. -/
theorem Undisturbed.frames (u : Undisturbed all c) (undone : c.ledger.connection.done = false)
    {payload : Bytes} (stack : c.ledger.stack hostThread = [⟨name, .framing payload⟩])
    (room : Memory.reserves (Frame.encode payload).length) :
    ∃ c', Comes all c c' ∧ c'.relay = c.relay ∧ c'.lines = c.lines ∧ c'.call? = c.call? ∧
      c'.ledger.stack hostThread = [⟨name, .sending (Frame.encode payload)⟩] := by
  have hstep : (Call.framing payload : Call α).step c.ledger.connection .proceed =
      some ⟨c.ledger.connection, .goesOn (.sending (Frame.encode payload)), []⟩ := by
    simp only [Call.step, Call.frameSend, room, if_true]
  exact u.answers stack hstep rfl rfl undone (Deed.takesAll_of_aside (by simp))

/-- The handle takes a frame as a whole. -/
theorem Undisturbed.sends (u : Undisturbed all c) (undone : c.ledger.connection.done = false)
    {framed : Bytes} (stack : c.ledger.stack hostThread = [⟨name, .sending framed⟩]) :
    ∃ c', Comes all c c' ∧ c'.relay = c.relay ∧ c'.lines = c.lines ∧ c'.call? = c.call? ∧
      c'.ledger.stack hostThread = [] := by
  obtain ⟨records, hstep⟩ : ∃ records, (Call.sending framed : Call α).step
      c.ledger.connection (.wrote (.ok framed.length)) =
        some ⟨c.ledger.connection.release, .ends (.sent (.ok ())), records⟩ := by
    simp only [Call.step, Call.settleSend, Nat.lt_irrefl, if_false]
    exact ⟨_, rfl⟩
  refine u.answers stack hstep rfl rfl undone ?_
  rintro _ _ ⟨⟩
  exact ⟨_, rfl, Nat.le_refl _⟩

/-- A host that sends comes nearer to the end of the lines. -/
theorem Undisturbed.nearer_of_sending (u : Undisturbed all c) (a : c.Accounts all)
    (undone : c.ledger.connection.done = false) (sending : c.relay = .sending message) :
    ∃ c', Comes all c c' ∧ c'.ahead < c.ahead := by
  have o := u.reachable.orderly
  cases o.atCall with
  | idle hcall _ =>
    obtain ⟨c', hcomes, hrelay, hlines, hafter⟩ := u.asks undone sending hcall
    have hbefore : c.waiting = 5 := by simp only [waiting, hcall]
    exact ⟨c', hcomes, ahead_lt_of_waiting sending hrelay hlines (by omega)⟩
  | @underWay name call operation hcall hstack hoperation hserves =>
    rw [sending] at hoperation
    cases hoperation
    have hhand := o.inHand_of_underWay hcall hstack sending
    cases call with
    | awaitingSend payload =>
      cases hserves
      obtain ⟨c', hcomes, hrelay, hlines, hcall', hstack'⟩ := u.takesHandle undone hstack
      have hbefore : c.waiting = 4 := by simp only [waiting, hcall, hstack]
      have hafter : c'.waiting = 3 := by simp only [waiting, hcall', hcall, hstack']
      exact ⟨c', hcomes, ahead_lt_of_waiting sending hrelay hlines (by omega)⟩
    | framing payload =>
      cases hserves
      have hroom := reserves_of_hasRoom (hhand ▸ a.room.1)
      obtain ⟨c', hcomes, hrelay, hlines, hcall', hstack'⟩ := u.frames undone hstack hroom
      have hbefore : c.waiting = 3 := by simp only [waiting, hcall, hstack]
      have hafter : c'.waiting = 2 := by simp only [waiting, hcall', hcall, hstack']
      exact ⟨c', hcomes, ahead_lt_of_waiting sending hrelay hlines (by omega)⟩
    | sending framed =>
      obtain ⟨c', hcomes, hrelay, hlines, hcall', hstack'⟩ := u.sends undone hstack
      have hbefore : c.waiting = 2 := by simp only [waiting, hcall, hstack]
      have hafter : c'.waiting = 1 := by simp only [waiting, hcall', hcall, hstack']
      exact ⟨c', hcomes, ahead_lt_of_waiting sending hrelay hlines (by omega)⟩
    | awaitingCancel | cancelling | dispatch _ => cases hserves
  | @unheard name next operation hcall hstack hfate hended _ =>
    cases next with
    | goesOn call => exact False.elim (hended call rfl)
    | unwinds => exact False.elim (a.unbroken message name sending hcall hfate)
    | ends outcome =>
      have hstep : c.relay.step hostThread c.ledger.machine (.called outcome) =
          some (c.ledger.machine, .locking (.review outcome), []) := by
        rw [sending]
        rfl
      obtain ⟨c', hcomes, hrelay, hlines⟩ := u.relays undone (.called hcall hfate) hstep
      refine ⟨c', hcomes, ?_⟩
      have hbefore : c.waiting = 1 := by simp only [waiting, hcall, hstack]
      have hafter : c'.relay.ahead c'.waiting = 4 := by
        rw [hrelay]
        rfl
      rw [ahead, ahead, hafter, hlines, sending, Relay.ahead, hbefore]
      omega

end Sending

/-- Where lines are left, the host can come nearer to their end. -/
theorem Undisturbed.exists_nearer (u : Undisturbed all c) (a : c.Accounts all)
    (undone : c.ledger.connection.done = false) (unconsumed : ¬ c.Consumed) :
    ∃ c', Comes all c c' ∧ c'.ahead < c.ahead := by
  have hnow : c.relay.isPast = false :=
    Bool.eq_false_iff.mpr fun hpast => unconsumed (a.consumed_of_past hpast)
  cases hr : c.relay with
  | locking task =>
    rw [hr] at hnow
    obtain ⟨c', hcomes, hholding, hlines⟩ := u.takes undone hr
    refine ⟨c', hcomes, ?_⟩
    have hless : (Relay.holding task : Relay α).ahead c'.waiting <
        (Relay.locking task : Relay α).ahead c.waiting := Relay.ahead_holding hnow _ _
    rw [ahead, ahead, hholding, hlines, hr]
    omega
  | holding task =>
    rw [hr] at hnow
    obtain ⟨c', hmoves, hgoes, hledger, hlines⟩ := does_task hr
    have hundone : c'.ledger.connection.done = false := by rw [hledger, undone]
    have htakesAll : c'.ledger.TakesAll := by
      rw [hledger]
      exact u.calm.takesAll
    refine ⟨c', u.comes hmoves hundone htakesAll, ?_⟩
    have hless := hgoes.ahead_lt hnow undone c'.waiting_le c.waiting
    rw [ahead, ahead, hlines, hr]
    omega
  | listening =>
    cases hlines : c.lines with
    | nil =>
      refine False.elim (unconsumed ⟨hlines, ?_⟩)
      rw [inHand, hr]
      rfl
    | cons text rest =>
      have hstep : c.relay.step hostThread c.ledger.machine (.heard (.line text)) =
          some (c.ledger.machine, .locking (.handle (.line text)), []) := by
        rw [hr]
        rfl
      obtain ⟨c', hcomes, hrelay, hrest⟩ := u.relays undone (.line hlines) hstep
      refine ⟨c', hcomes, ?_⟩
      rw [ahead, ahead, hrelay, hrest, hlines, hr, List.length_cons, Relay.ahead, Relay.ahead]
      omega
  | sending message => exact u.nearer_of_sending a undone hr
  | resting | shuttingDown | joining =>
    rw [hr] at hnow
    cases hnow

/-- As long as the connection is not done, the host can consume what is left. -/
theorem Undisturbed.exists_consumed (u : Undisturbed all c)
    (room : ∀ text ∈ all, HasRoom (frameOf α text))
    (undone : c.ledger.connection.done = false) : ∃ c', Comes all c c' ∧ c'.Consumed := by
  induction hn : c.ahead using Nat.strongRecOn generalizing c with
  | ind n ih =>
    by_cases hconsumed : c.Consumed
    · exact ⟨c, ⟨.refl, u, undone⟩, hconsumed⟩
    · obtain ⟨c₁, hcomes, hless⟩ := u.exists_nearer (u.accounts room) undone hconsumed
      obtain ⟨c', hcomes', h⟩ :=
        ih c₁.ahead (hn ▸ hless) hcomes.undisturbed hcomes.undone rfl
      exact ⟨c', hcomes.trans hcomes', h⟩

end Steps

end Crossing

end WorkerLink.Bridge
