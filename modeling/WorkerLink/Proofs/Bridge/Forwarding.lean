import WorkerLink.Proofs.Bridge.Crossing
import WorkerLink.Proofs.Connection.Access

/-!
# From the lines to the worker

Each line is worth a frame or nothing (`frameOf`). What the worker has got, what
the host has in hand and what the lines to come are worth, in this order, is at
every moment what all lines are worth (`Accounts`), as long as nothing comes in
between (`Undisturbed`): the connection is done only once the host has heard all
lines, and the handle takes each frame as a whole.

Before the connection is done, no send is turned away: nobody but the host itself
can have the handle then. A send that is under way when the connection gets done
may come too late for it.
-/

namespace WorkerLink

variable {α : Type}

def Next.isEnd : Next α → Bool
  | .ends _ => true
  | .goesOn _ | .unwinds => false

namespace Deed

def passed (d : Deed α) : Bytes :=
  match d.cause with
  | .goOn (.sending framed) (.wrote (.ok written)) => framed.take written
  | _ => []

/-- If the handle answers for a frame, it has taken it as a whole. -/
def TakesAll (d : Deed α) : Prop :=
  ∀ framed input, d.cause = .goOn (.sending framed) input →
    ∃ written, input = .wrote (.ok written) ∧ framed.length ≤ written

/-- A send ends because it could not have the handle. -/
def TurnsAway (d : Deed α) : Prop :=
  ∃ reason, d.next = .ends (.sent (.error (.unavailable reason)))

theorem passed_of_aside {d : Deed α}
    (h : ∀ framed input, d.cause ≠ .goOn (.sending framed) input) : d.passed = [] := by
  unfold passed
  split
  · next hcause => exact False.elim (h _ _ hcause)
  · rfl

theorem takesAll_of_aside {d : Deed α}
    (h : ∀ framed input, d.cause ≠ .goOn (.sending framed) input) : d.TakesAll :=
  fun framed input hcause => False.elim (h framed input hcause)

end Deed

namespace Ledger

def passed (l : Ledger α) : Bytes := l.history.flatMap fun entry => entry.2.passed

def TakesAll (l : Ledger α) : Prop := ∀ entry ∈ l.history, entry.2.TakesAll

theorem passed_snoc {l l' : Ledger α} {name : Nat} {deed : Deed α}
    (h : l'.history = l.history ++ [(name, deed)]) : l'.passed = l.passed ++ deed.passed := by
  simp [passed, h]

theorem takesAll_snoc {l l' : Ledger α} {name : Nat} {deed : Deed α}
    (h : l'.history = l.history ++ [(name, deed)]) :
    l'.TakesAll ↔ l.TakesAll ∧ deed.TakesAll := by
  simp only [TakesAll, h, List.forall_mem_append, List.forall_mem_singleton]

/-- No call begins with a frame. -/
theorem TakesAll.starts [Memory] {l l' : Ledger α} (h : l.TakesAll) {thread : Nat}
    {operation : Operation α} (next : l.next thread (.start operation) = some l') :
    l'.TakesAll := by
  obtain ⟨_, _, _, hm, -⟩ := starts_of_next next
  exact (takesAll_snoc hm.history).mpr ⟨h, Deed.takesAll_of_aside nofun⟩

end Ledger

/-- A step of a send that is not turned away leaves it under way, or ends it with its frame passed
on to the worker. -/
theorem Deed.Does.sends [Memory] {c c' : Connection} {call : Call α} {input : Input} {next : Next α}
    {payload : Bytes} (does : Does c ⟨.goOn call input, next⟩ c')
    (serves : call.Serves (.send (.ok payload))) (takesAll : TakesAll ⟨.goOn call input, next⟩)
    (room : Memory.reserves (Frame.encode payload).length)
    (served : ¬ TurnsAway ⟨.goOn call input, next⟩) :
    (passed ⟨.goOn call input, next⟩ = [] ∧ ∃ call', next = .goesOn call') ∨
      passed ⟨.goOn call input, next⟩ = Frame.encode payload ∧ ∃ outcome, next = .ends outcome := by
  cases does with
  | goesOn goes =>
    cases goes with
    | takesHandle _ _ | frames _ => exact .inl ⟨rfl, _, rfl⟩
    | lacksMemory hmemory =>
      cases serves
      exact False.elim (hmemory room)
    | lacksHandle _ _ => exact False.elim (served ⟨_, rfl⟩)
    | wrote =>
      obtain ⟨_, hgiven, rfl⟩ := serves
      cases hgiven
      obtain ⟨written, hinput, hall⟩ := takesAll _ _ rfl
      cases hinput
      exact .inr ⟨List.take_of_length_le hall, _, rfl⟩
    | sendRaises =>
      obtain ⟨_, hinput, -⟩ := takesAll _ _ rfl
      cases hinput
    | cancels _ _ | skipsCancel _ _ | cancelled | cancelRaises | dispatches _ => cases serves

namespace Bridge

namespace Crossing

/-- The call that the host has asked for has ended. -/
def answered (c : Crossing α) : Bool := (c.call?.bind c.ledger.fate).any Next.isEnd

theorem answered_of_fate {c : Crossing α} {name : Nat} {next : Next α}
    (asked : c.call? = some name) (fate : c.ledger.fate name = some next) :
    c.answered = next.isEnd := by
  rw [answered, asked, Option.bind_some, fate, Option.any_some]

theorem answered_of_idle {c : Crossing α} (idle : c.call? = none) : c.answered = false := by
  rw [answered, idle]
  rfl

end Crossing

variable [Format α]

variable (α) in
/-- What a line is worth: the frame of its message. A blank line is worth nothing, and neither is
one that has no message in it. -/
def frameOf (text : String) : Bytes :=
  if text.toList.all Text.isBlank then []
  else match (Format.parse (Bytes.ofString text) : Except DecodeError α) with
    | .ok message => Frame.encode (Format.print message)
    | .error _ => []

theorem frameOf_eq (text : String) : frameOf α text =
    ((Relay.read α text).1.map fun message => Frame.encode (Format.print message)).getD [] := by
  unfold frameOf Relay.read
  by_cases hblank : text.toList.all Text.isBlank = true
  · rw [if_pos hblank, if_pos hblank]
    rfl
  · rw [if_neg hblank, if_neg hblank]
    cases (Format.parse (Bytes.ofString text) : Except DecodeError α) <;> rfl

/-- There is memory for a frame, if it is one. -/
def HasRoom [Memory] (frame : Bytes) : Prop := frame ≠ [] → Memory.reserves frame.length

theorem hasRoom_nil [Memory] : HasRoom [] := fun hsome => absurd rfl hsome

theorem reserves_of_hasRoom [Memory] {payload : Bytes} (h : HasRoom (Frame.encode payload)) :
    Memory.reserves (Frame.encode payload).length := h (Frame.encode_ne_nil payload)

def Task.isPast : Task → Bool
  | .handle .inputEnded | .drain | .leave => true
  | .check | .handle _ | .review _ => false

namespace Relay

def isPast : Relay α → Bool
  | .locking task | .holding task => task.isPast
  | .resting | .shuttingDown | .joining => true
  | .listening | .sending _ => false

/-- What the host has in hand for the worker, by whether its call has ended. -/
def inHand (answered : Bool) : Relay α → Bytes
  | .locking (.handle (.line text)) | .holding (.handle (.line text)) => frameOf α text
  | .sending message => if answered then [] else Frame.encode (Format.print message)
  | _ => []

theorem inHand_of_isPast {r : Relay α} {answered : Bool} (h : r.isPast = true) :
    r.inHand answered = [] := by
  cases r with
  | locking task | holding task =>
    cases task with
    | handle heard => cases heard <;> first | rfl | cases h
    | check | review _ | drain | leave => rfl
  | sending message => cases h
  | listening | resting | shuttingDown | joining => rfl

end Relay

namespace Crossing

def inHand (c : Crossing α) : Bytes := c.relay.inHand c.answered

/-- The host has heard all lines and is done with them. -/
def Consumed (c : Crossing α) : Prop := c.lines = [] ∧ c.inHand = []

/-- A step of the host by itself keeps what it has in hand, or takes the next line into it. -/
theorem Offers.hands_on {c : Crossing α} {input : RelayInput} {lines : List String}
    {relay : Relay α} (offers : c.Offers input lines)
    (goes : Relay.Goes c.ledger.connection c.relay input relay) :
    lines = c.lines ∧ relay.inHand false = c.inHand ∨
      ∃ text, c.lines = text :: lines ∧ c.inHand = [] ∧ relay.inHand false = frameOf α text := by
  unfold inHand
  generalize c.relay = before at goes
  cases goes with
  | hears =>
    cases offers with
    | line hlines => exact .inr ⟨_, hlines, rfl, rfl⟩
    | nothing => exact .inl ⟨rfl, rfl⟩
    | inputEnded hlines => exact .inl ⟨hlines.symm, rfl⟩
  | sent =>
    cases offers with
    | called hcall hfate =>
      refine .inl ⟨rfl, ?_⟩
      rw [answered_of_fate hcall hfate]
      rfl
  | shutDown =>
    cases offers with
    | called _ _ => exact .inl ⟨rfl, rfl⟩
  | givesUp =>
    cases offers with
    | timeUp => exact .inl ⟨rfl, rfl⟩
  | @takes task =>
    cases offers with
    | proceed =>
      refine .inl ⟨rfl, ?_⟩
      cases task with
      | handle heard => cases heard <;> rfl
      | check | review _ | drain | leave => rfl
  | forwards hread =>
    cases offers with
    | proceed =>
      refine .inl ⟨rfl, ?_⟩
      simp only [Relay.inHand, frameOf_eq, hread]
      rfl
  | skips hread =>
    cases offers with
    | proceed =>
      refine .inl ⟨rfl, ?_⟩
      simp only [Relay.inHand, frameOf_eq, hread]
      rfl
  | stops _ | listens _ | hearsNothing | hearsEnd | reviews | rests _ | drained _ | leaves
  | wakes =>
    cases offers with
    | proceed => exact .inl ⟨rfl, rfl⟩

theorem inHand_of_sending {c : Crossing α} {message : α} (sending : c.relay = .sending message) :
    c.inHand = if c.answered then [] else Frame.encode (Format.print message) := by
  rw [inHand, sending]
  rfl

theorem inHand_of_shuttingDown {c : Crossing α} (shuttingDown : c.relay = .shuttingDown) :
    c.inHand = [] := by
  rw [inHand, shuttingDown]
  rfl

/-- The connection is not done before the host has heard all lines, and the handle has taken every
frame as a whole. -/
structure Calm (c : Crossing α) : Prop where
  lasts : c.ledger.connection.done = true → c.lines = []
  takesAll : c.ledger.TakesAll
  /-- Nor has any send come too late for the handle. -/
  served : c.ledger.connection.done = true → ∀ entry ∈ c.ledger.history, ¬ entry.2.TurnsAway

theorem Offers.past {c : Crossing α} {input : RelayInput} {lines : List String} {relay : Relay α}
    (offers : c.Offers input lines) (goes : Relay.Goes c.ledger.connection c.relay input relay)
    (calm : c.Calm) (past : c.relay.isPast = true → c.lines = []) (ends : relay.isPast = true) :
    lines = [] := by
  generalize c.relay = before at goes past
  cases goes with
  | hears =>
    cases offers with
    | line _ => cases ends
    | nothing => cases ends
    | inputEnded _ => rfl
  | stops hdone =>
    cases offers with
    | proceed => exact calm.lasts hdone
  | shutDown =>
    cases offers with
    | called _ _ => exact past rfl
  | givesUp =>
    cases offers with
    | timeUp => exact past rfl
  | takes =>
    cases offers with
    | proceed => exact past ends
  | hearsEnd | rests _ | drained _ | leaves | wakes =>
    cases offers with
    | proceed => exact past rfl
  | listens _ | forwards _ | skips _ | hearsNothing | reviews | sent => cases ends

variable [Memory]

/-- What can come about without disturbance, from an opening with these lines on. -/
inductive Undisturbed (lines : List String) : Crossing α → Prop
  | start (pid : Nat) (tuning : Tuning) (output : Output) :
      Undisturbed lines (opening pid tuning lines output)
  | moves {c c' : Crossing α} : Undisturbed lines c → c.Moves c' → c'.Calm → Undisturbed lines c'

/-- Nothing is lost, added or put out of order on the way of the lines. -/
structure Accounts (lines : List String) (c : Crossing α) : Prop where
  total : c.ledger.passed ++ c.inHand ++ c.lines.flatMap (frameOf α) = lines.flatMap (frameOf α)
  /-- There is memory for what is to come. -/
  room : HasRoom c.inHand ∧ ∀ text ∈ c.lines, HasRoom (frameOf α text)
  unbroken : ∀ message name, c.relay = .sending message → c.call? = some name →
    c.ledger.fate name ≠ some .unwinds
  past : c.relay.isPast = true → c.lines = []

theorem Undisturbed.reachable {lines : List String} {c : Crossing α} (h : Undisturbed lines c) :
    c.Reachable := by
  induction h with
  | start pid tuning output => exact .start pid tuning lines output
  | moves _ hmoves _ ih => exact ih.moves hmoves

theorem Undisturbed.calm {lines : List String} {c : Crossing α} (h : Undisturbed lines c) :
    c.Calm := by
  cases h with
  | start pid tuning output =>
    exact ⟨nofun, by simp [Ledger.TakesAll, opening, Ledger.spawn], nofun⟩
  | moves _ _ hcalm => exact hcalm

section Steps

variable {c : Crossing α}

/-- The calls of the two threads are all there are. -/
theorem Orderly.mem_calls (o : c.Orderly) {named : Named α} :
    named ∈ c.ledger.calls ↔
      named ∈ c.ledger.stack hostThread ∨ named ∈ c.ledger.stack dispatchThread := by
  obtain ⟨host, dispatch, hstacks⟩ := List.length_eq_two.mp o.threads
  simp [Ledger.calls, Ledger.stack, hstacks, hostThread, dispatchThread]

/-- As long as the connection is not done, the handle is there, and only a call of the host can
have it. -/
theorem Orderly.slot_free (o : c.Orderly) (undone : c.ledger.connection.done = false)
    (host : ∀ named ∈ c.ledger.stack hostThread, named.call.holdsHandle = false) :
    c.ledger.connection.slot.present = true ∧ c.ledger.connection.slot.busy = false := by
  obtain ⟨holder, hr⟩ := o.hosted.shared.exists_reachable
  constructor
  · by_contra hgone
    have hdone : c.ledger.connection.done = true :=
      (hr.retired (by simpa using hgone)).done
    rw [undone] at hdone
    cases hdone
  · by_contra hbusy
    have hone : c.ledger.calls.countP Ledger.holds = c.ledger.connection.slot.busy.toNat :=
      hr.exclusive
    rw [Bool.not_eq_false] at hbusy
    rw [hbusy, Bool.toNat_true] at hone
    obtain ⟨named, hmem, hholds⟩ := List.countP_pos_iff.mp (hone ▸ Nat.one_pos)
    rcases o.mem_calls.mp hmem with hhost | hdispatch
    · rw [Ledger.holds, host named hhost] at hholds
      cases hholds
    · cases o.atDispatch with
      | away h => rw [h] at hdispatch; cases hdispatch
      | @underWay name run _ h _ =>
        rw [h, List.mem_singleton] at hdispatch
        subst hdispatch
        have hending : run.stage.phase = .ending := by
          simp only [Ledger.holds, Call.holdsHandle] at hholds
          split at hholds <;> simp_all [Stage.phase]
        have hdone : c.ledger.connection.done = true := (hr.single.fits name run hmem).ending hending
        rw [undone] at hdone
        cases hdone

variable {all : List String}

theorem Accounts.relays (a : c.Accounts all) (calm : c.Calm) {input : RelayInput}
    {lines : List String} {m : Machine α} {relay : Relay α} {records : List Log.Record}
    (offers : c.Offers input lines)
    (step : c.relay.step hostThread c.ledger.machine input = some (m, relay, records)) :
    Accounts all { c with
      ledger := { c.ledger with hostHolder := m.hostHolder }, relay, lines, call? := none } := by
  have hgoes := Relay.goes_of_step step
  have htotal := a.total
  obtain ⟨hroom, hrest⟩ := a.room
  refine ⟨?_, ?_, nofun, offers.past hgoes calm a.past⟩
  · change c.ledger.passed ++ relay.inHand false ++ lines.flatMap (frameOf α) = _
    rcases offers.hands_on hgoes with ⟨rfl, hhand⟩ | ⟨text, hlines, hempty, hhand⟩
    · rw [hhand, htotal]
    · rw [hlines, hempty, List.append_nil, List.flatMap_cons] at htotal
      rw [hhand, List.append_assoc, htotal]
  · change HasRoom (relay.inHand false) ∧ ∀ text ∈ lines, _
    rcases offers.hands_on hgoes with ⟨rfl, hhand⟩ | ⟨text, hlines, -, hhand⟩
    · rw [hhand]
      exact ⟨hroom, hrest⟩
    · rw [hlines, List.forall_mem_cons] at hrest
      rw [hhand]
      exact hrest

/-- What the host has in hand for a send under way is the frame of its message. -/
theorem Orderly.inHand_of_underWay (o : c.Orderly) {name : Nat} {call : Call α}
    {message : α} (asked : c.call? = some name)
    (stack : c.ledger.stack hostThread = [⟨name, call⟩]) (sending : c.relay = .sending message) :
    c.inHand = Frame.encode (Format.print message) := by
  rw [inHand_of_sending sending, answered_of_fate asked (o.fate_of_underWay stack)]
  rfl

section ByHost

variable {l : Ledger α}

/-- The account after a deed of the host's call that passes on what the host had in hand, or leaves
it there. -/
theorem Accounts.by_host (a : c.Accounts all) {name : Nat} {deed : Deed α}
    (history : l.history = c.ledger.history ++ [(name, deed)]) {call? : Option Nat}
    (hands : deed.passed = [] ∧ inHand { c with ledger := l, call? } = c.inHand ∨
      deed.passed = c.inHand ∧ inHand { c with ledger := l, call? } = [])
    (unbroken : ∀ message name, c.relay = .sending message → call? = some name →
      l.fate name ≠ some .unwinds) : Accounts all { c with ledger := l, call? } := by
  have htotal := a.total
  obtain ⟨hroom, hrest⟩ := a.room
  rcases hands with ⟨hpassed, hhand⟩ | ⟨hpassed, hhand⟩
  · refine ⟨?_, ⟨hhand ▸ hroom, hrest⟩, unbroken, a.past⟩
    rw [← htotal, hhand, Ledger.passed_snoc history, hpassed, List.append_nil]
  · refine ⟨?_, ⟨hhand ▸ hasRoom_nil, hrest⟩, unbroken, a.past⟩
    rw [← htotal, hhand, Ledger.passed_snoc history, hpassed, List.append_nil]

/-- At the shutdown the host has nothing in hand, and its call passes nothing on. -/
theorem Accounts.by_shutdown (a : c.Accounts all) {name : Nat} {deed : Deed α}
    (history : l.history = c.ledger.history ++ [(name, deed)]) {call? : Option Nat}
    (shuttingDown : c.relay = .shuttingDown) (aside : deed.passed = []) :
    Accounts all { c with ledger := l, call? } := by
  refine a.by_host history (.inl ⟨aside, ?_⟩) ?_
  · rw [inHand_of_shuttingDown shuttingDown]
    exact inHand_of_shuttingDown shuttingDown
  · intro message name sending
    rw [shuttingDown] at sending
    cases sending

theorem Accounts.asks (a : c.Accounts all) {operation : Operation α}
    (asked : c.relay.operation? = some operation) (idle : c.call? = none)
    (next : c.ledger.next hostThread (.start operation) = some l) :
    Accounts all { c with ledger := l, call? := some c.ledger.history.length } := by
  obtain ⟨next', before, after, hm, -⟩ := Ledger.starts_of_next next
  have hpassed : Deed.passed (⟨.start operation, next'⟩ : Deed α) = [] := rfl
  rcases sends_or_shutsDown asked with ⟨message, hsending, rfl⟩ | ⟨hshuttingDown, rfl⟩
  · obtain ⟨call, rfl⟩ : ∃ call, next' = .goesOn call := by
      have hdoes := hm.does
      generalize l.connection = c' at hdoes
      cases hdoes with
      | starts hstarts =>
        cases hstarts with
        | sends => exact ⟨_, rfl⟩
    refine a.by_host hm.history (.inl ⟨hpassed, ?_⟩) ?_
    · rw [inHand_of_sending hsending, answered_of_idle idle,
        inHand_of_sending (c := { c with ledger := l, call? := some _ }) hsending,
        answered_of_fate (c := { c with ledger := l, call? := some _ }) rfl hm.fate_self]
      rfl
    · rintro _ _ - ⟨⟩
      rw [hm.fate_self]
      exact nofun
  · exact a.by_shutdown hm.history hshuttingDown hpassed

/-- Before the connection is done, no send is turned away. -/
theorem Orderly.not_turnsAway (o : c.Orderly) (undone : c.ledger.connection.done = false)
    {name : Nat} {call : Call α} (stack : c.ledger.stack hostThread = [⟨name, call⟩])
    {c' : Connection} {input : Input} {next : Next α}
    (does : Deed.Does c.ledger.connection ⟨.goOn call input, next⟩ c') :
    ¬ Deed.TurnsAway ⟨.goOn call input, next⟩ := by
  rintro ⟨reason, hnext⟩
  obtain rfl : next = .ends (.sent (.error (.unavailable reason))) := hnext
  generalize he : Next.ends (.sent (.error (.unavailable reason))) = next at does
  cases does with
  | goesOn goes =>
    cases goes with
    | lacksHandle hclaim _ =>
      obtain ⟨hpresent, hbusy⟩ := o.slot_free undone (by
        rw [stack]
        simp [Call.holdsHandle])
      rw [Connection.claim_eq_ok.mpr ⟨hpresent, hbusy, rfl⟩] at hclaim
      cases hclaim
    | @wrote framed result =>
      cases result with
      | error fault => cases he
      | ok written =>
        rw [Call.sendResult] at he
        split at he <;> cases he
    | dispatches hd =>
      rw [← he] at hd
      obtain ⟨_, _, ⟨_, ho⟩ | ⟨_, ho⟩⟩ := hd.ends <;> cases ho
    | takesHandle _ _ | frames _ | lacksMemory _ | cancels _ _ | skipsCancel _ _ | cancelled
    | sendRaises | cancelRaises => cases he

theorem Accounts.answers (a : c.Accounts all) (o : c.Orderly) {input : Input}
    (next : c.ledger.next hostThread (.goOn input) = some l)
    (calm : Calm { c with ledger := l }) : Accounts all { c with ledger := l } := by
  obtain ⟨name, call, operation, next', before, after, hname, hstack, hoperation, hserves, -, hm,
    -⟩ := o.goesOn_of_answers next
  have hdeed := ((Ledger.takesAll_snoc hm.history).mp calm.takesAll).2
  rcases sends_or_shutsDown hoperation with ⟨message, hsending, rfl⟩ | ⟨hshuttingDown, rfl⟩
  · have hhand := o.inHand_of_underWay hname hstack hsending
    have hserved : ¬ Deed.TurnsAway ⟨.goOn call input, next'⟩ := by
      cases hdone : l.connection.done with
      | true =>
        refine calm.served hdone (name, ⟨.goOn call input, next'⟩) ?_
        change _ ∈ l.history
        rw [hm.history]
        exact List.mem_append_right _ (List.mem_singleton_self _)
      | false =>
        have hundone : c.ledger.connection.done = false := by
          rw [Bool.eq_false_iff]
          intro hd
          rw [hm.does.follows.done hd] at hdone
          cases hdone
        exact o.not_turnsAway hundone hstack hm.does
    have hafter : inHand { c with ledger := l } =
        if next'.isEnd then [] else Frame.encode (Format.print message) := by
      rw [inHand_of_sending (c := { c with ledger := l }) hsending,
        answered_of_fate (c := { c with ledger := l }) hname hm.fate_self]
    have hsends := hm.does.sends hserves hdeed (reserves_of_hasRoom (hhand ▸ a.room.1)) hserved
    refine a.by_host hm.history ?_ ?_
    · rcases hsends with ⟨hpassed, _, rfl⟩ | ⟨hpassed, _, rfl⟩
      · exact .inl ⟨hpassed, hafter.trans hhand.symm⟩
      · exact .inr ⟨hpassed.trans hhand.symm, hafter⟩
    · rintro _ other - hother
      rw [hname] at hother
      cases hother
      rw [hm.fate_self]
      rcases hsends with ⟨-, _, rfl⟩ | ⟨-, _, rfl⟩ <;> exact nofun
  · have hpassed : Deed.passed ⟨.goOn call input, next'⟩ = [] := by
      refine Deed.passed_of_aside fun framed input hcause => ?_
      cases hcause
      cases hserves
    exact a.by_shutdown hm.history hshuttingDown hpassed

theorem Accounts.unwinds (a : c.Accounts all) (o : c.Orderly) {name : Nat}
    (asked : c.call? = some name) (fate : c.ledger.fate name = some .unwinds) :
    Accounts all { c with relay := .joining, call? := none } := by
  obtain ⟨operation, hoperation⟩ : ∃ operation, c.relay.operation? = some operation := by
    cases o.atCall with
    | idle h _ => rw [asked] at h; cases h
    | underWay _ _ h _ => exact ⟨_, h⟩
    | unheard _ _ _ _ h => exact ⟨_, h⟩
  rcases sends_or_shutsDown hoperation with ⟨message, hsending, -⟩ | ⟨hshuttingDown, -⟩
  · exact False.elim (a.unbroken message name hsending asked fate)
  · have htotal := a.total
    rw [inHand_of_shuttingDown hshuttingDown] at htotal
    have hpast : c.lines = [] := a.past (by rw [hshuttingDown]; rfl)
    exact ⟨htotal, ⟨hasRoom_nil, a.room.2⟩, nofun, fun _ => hpast⟩

end ByHost

section ByDispatch

variable {l : Ledger α} {move : Move α} {name : Nat} {deed : Deed α}
  {before after below : List (Named α)} {opened : Bool} {output : Output}

/-- The dispatch does not decide what becomes of the host's call. -/
theorem Orderly.fate_by_dispatch (o : c.Orderly)
    (o' : Orderly { c with ledger := l, opened, output })
    (moves : Ledger.Moves c.ledger l name deed before after)
    (shifts : Ledger.Shifts c.ledger l dispatchThread move name deed below) {asked : Nat}
    (call : c.call? = some asked) : l.fate asked = c.ledger.fate asked := by
  cases o.atCall with
  | idle h _ => rw [call] at h; cases h
  | underWay h hstack _ _ =>
    rw [call] at h
    cases h
    have hstack' : l.stack hostThread = _ := (shifts.others _ threads_differ).trans hstack
    rw [o.fate_of_underWay hstack]
    exact o'.fate_of_underWay hstack'
  | unheard h _ hfate hended _ =>
    rw [call] at h
    cases h
    rw [o.hosted.shared.sound.fate_of_over moves hfate hended, hfate]

/-- The dispatch leaves the way of the lines alone. -/
theorem Accounts.by_dispatch (a : c.Accounts all) (o : c.Orderly)
    (o' : Orderly { c with ledger := l, opened, output })
    (moves : Ledger.Moves c.ledger l name deed before after)
    (shifts : Ledger.Shifts c.ledger l dispatchThread move name deed below)
    (aside : ∀ framed input, deed.cause ≠ .goOn (.sending framed) input) :
    Accounts all { c with ledger := l, opened, output } := by
  have hanswered : answered { c with ledger := l, opened, output } = c.answered := by
    unfold answered
    cases hcall : c.call? with
    | none => rfl
    | some asked => rw [Option.bind_some, Option.bind_some, o.fate_by_dispatch o' moves shifts hcall]
  have hhand : inHand { c with ledger := l, opened, output } = c.inHand := by
    rw [inHand, hanswered, inHand]
  refine ⟨?_, ?_, ?_, a.past⟩
  · have hpassed : l.passed = c.ledger.passed := by
      rw [Ledger.passed_snoc moves.history, Deed.passed_of_aside aside, List.append_nil]
    rw [hhand, ← a.total, hpassed]
  · rw [hhand]
    exact a.room
  · intro message asked hsending hcall
    rw [o.fate_by_dispatch o' moves shifts hcall]
    exact a.unbroken message asked hsending hcall

/-- The dispatch leaves no frame to the handle. -/
theorem Orderly.takesAll_by_dispatch (o : c.Orderly) {input : Input}
    (next : c.ledger.next dispatchThread (.goOn input) = some l) (takesAll : c.ledger.TakesAll) :
    l.TakesAll := by
  obtain ⟨_, _, _, _, _, -, -, -, hm, -⟩ := o.goesOn_of_dispatches next
  exact (Ledger.takesAll_snoc hm.history).mpr ⟨takesAll, Deed.takesAll_of_aside nofun⟩

theorem Accounts.dispatches (a : c.Accounts all) (o : c.Orderly) {input : Input}
    (next : c.ledger.next dispatchThread (.goOn input) = some l) :
    Accounts all { c with ledger := l, output } := by
  obtain ⟨_, _, _, _, _, -, -, -, hm, hs⟩ := o.goesOn_of_dispatches next
  exact a.by_dispatch o (o.dispatches next) hm hs nofun

end ByDispatch

theorem Accounts.moves {c' : Crossing α} (a : c.Accounts all) (o : c.Orderly) (calm : c.Calm)
    (moves : c.Moves c') (calm' : c'.Calm) : c'.Accounts all := by
  cases moves with
  | relays offers step => exact a.relays calm offers step
  | asks asked idle next => exact a.asks asked idle next
  | answers next => exact a.answers o next calm'
  | unwinds asked fate => exact a.unwinds o asked fate
  | opens closed next =>
    obtain ⟨next', before, after, hm, hs⟩ := Ledger.starts_of_next next
    exact a.by_dispatch o (o.opens closed next) hm hs nofun
  | dispatches _ next => exact a.dispatches o next
  | emits _ next => exact a.dispatches o next

theorem Undisturbed.accounts (u : Undisturbed all c)
    (room : ∀ text ∈ all, HasRoom (frameOf α text)) : c.Accounts all := by
  induction u with
  | start pid tuning output => exact ⟨rfl, ⟨hasRoom_nil, room⟩, nofun, nofun⟩
  | moves u hmoves hcalm ih => exact ih.moves u.reachable.orderly u.calm hmoves hcalm

end Steps

end Crossing

end Bridge

end WorkerLink
