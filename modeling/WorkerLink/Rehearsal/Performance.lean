import WorkerLink.Bridge.Feed
import WorkerLink.Bridge.Relay
import WorkerLink.Json.Pairs
import WorkerLink.Rehearsal.Player
import WorkerLink.Rehearsal.Reply

/-!
A performance: threads that run actions on one connection over a played handle. The connection is a
`Machine`, and the performance decides the order of its moves: the first thread that can go on does,
and when none can, the clock goes forward to the next time at which one will. So a performance is
one of the runs of the machine, with waits that last as long as they say.

Each thread has a stack of frames, newest first, beside the stack of its calls in the machine. An
exception takes frames off the stack until one of them catches it. A run takes explicit fuel.
-/

namespace WorkerLink.Rehearsal

/-- The memory of a rehearsal: the address space of a process. -/
instance addressSpace : Memory := .upTo (Nat.pow 2 47)

/-- Who is told the events of a dispatch. -/
inductive Receiver
  /-- Actions for some events, by position, and for the end of stream. -/
  | actions (on : List (Nat × List Action)) (atEnd : Option (List Action))
  | output

/-- A call of the machine as its caller knows it. -/
structure Entry where
  receiver : Receiver := .actions [] none
  /-- The call runs on a thread of its own while the caller waits for it. -/
  apart : Bool := false
  /-- What the receiver has seen, newest first. -/
  notices : List Notice := []
  /-- When the wait for the handle ends, if the call waits. -/
  deadline : Option Nat := none

/-- What a thread is in the middle of. -/
inductive Frame (P : Type)
  /-- Actions to come, and the replies of those before, newest first. -/
  | script (todo : List Action) (replies : List Reply)
  | call (entry : Entry)
  | request (pending : P)
  | answer (input : Input)
  | caught
  | beside (thread : Nat)
  | joining (thread : Nat) (main : Reply)
  /-- The host side of a bridge, with the time at which its wait or its drain ends. -/
  | relay (stage : Bridge.Relay Json.Value) (listenUntil drainUntil : Option Nat)

/-- What a thread leaves when it is over. -/
inductive Finish
  | reply (reply : Reply)
  | replies (replies : List Reply)
  | raised

inductive Control
  | act (action : Action)
  | call (operation : Operation Json.Value) (entry : Entry)
  | reply (reply : Reply)
  | goOn
  | raise
  | over (finish : Finish)

structure Thread (P : Type) where
  frames : List (Frame P) := []
  control : Control
  notBefore : Nat := 0

structure Timing where
  pollInterval : Nat := 5
  drainTimeout : Nat := 800

structure Performance (H P : Type) where
  machine : Machine Json.Value
  handle : H
  clock : Nat := 0
  threads : List (Thread P) := []
  /-- What actions inside handle calls answered, newest first. -/
  trace : List (Place × Reply) := []
  /-- Records of the first thread, newest first. -/
  log : List Log.Record := []
  timing : Timing := {}
  feed : Bridge.Feed := {}
  output : Bridge.Output := {}

namespace Language

def codec : Language → Codec Json.Value
  | .anyValue => .json .any
  | .ping => .json (.record "Ping" [("seq", .unsigned "u32" 32)])
  | .settings => .json Settings.shape

end Language

/-- The actions of a receiver for the event at a position. -/
def Receiver.actionsFor (position : Nat) (event : Event Json.Value) :
    Receiver → Option (List Action)
  | .actions on atEnd =>
    if event.isEndOfStream then atEnd else (on.find? fun entry => entry.1 = position).map (·.2)
  | .output => none

def answerNotice (replies : List Reply) : List Notice → List Notice
  | [] => []
  | notice :: rest => .mk notice.event (some replies) :: rest

/-- What comes of a try to go on: a later state, or a time to try again. -/
inductive Attempt (H P : Type)
  | went (performance : Performance H P)
  | blocked (until? : Option Nat)

namespace Performance

variable {H P : Type}

def setThread (p : Performance H P) (t : Nat) (thread : Thread P) : Performance H P :=
  { p with threads := p.threads.set t thread }

/-- The frames keep records away: an operation among them runs on a thread of its own. -/
def isApart (frames : List (Frame P)) : Bool :=
  frames.any fun
    | .call entry => entry.apart
    | _ => false

/-- Keeps records that a thread has made. Only the first thread is listened to. -/
def keep (p : Performance H P) (t : Nat) (frames : List (Frame P)) (records : List Log.Record) :
    Performance H P :=
  if t = 0 && !isApart frames then { p with log := records.reverse ++ p.log } else p

def finish? (p : Performance H P) (t : Nat) : Option Finish :=
  match p.threads[t]? with
  | some { control := .over finish, .. } => some finish
  | _ => none

/-- What is recorded after the last record of a call: the end of a dispatch that has closed the
handle is the end of the handle. -/
def lastRecords (player : Player H P) (p : Performance H P) : Outcome → List Log.Record
  | .dispatched (.ok _) | .dispatched (.error (.outOfMemory _)) =>
    if p.machine.connection.isClosed then player.farewell p.handle else []
  | _ => []

/-- One move of the machine by a thread whose newest frame is a call. -/
def moveCall (player : Player H P) (p : Performance H P) (t : Nat) (entry : Entry)
    (below : List (Frame P)) (input : Input) : Attempt H P :=
  match p.machine.next t (.goOn input) with
  | none => .blocked none
  | some (machine, effect) =>
    let p := { p with machine }.keep t (.call entry :: below) effect.records
    match effect.next with
    | .goesOn _ =>
      let entry := { entry with deadline := none }
      .went (p.setThread t { frames := .call entry :: below, control := .goOn })
    | .ends outcome =>
      let p := p.keep t (.call entry :: below) (lastRecords player p outcome)
      let reply := Reply.ofOutcome entry.notices.reverse outcome
      .went (p.setThread t { frames := below, control := .reply reply })
    | .unwinds => .went (p.setThread t { frames := below, control := .raise })

/-- Goes on with a call: it waits, asks the player, tells the receiver, or takes a step. -/
def goOnCall (player : Player H P) (p : Performance H P) (t : Nat) (entry : Entry)
    (below : List (Frame P)) : Attempt H P :=
  match p.machine.stack t with
  | [] => .blocked none
  | call :: _ =>
    let here (entry : Entry) (above : List (Frame P)) (control : Control) : Attempt H P :=
      .went (p.setThread t { frames := above ++ .call entry :: below, control })
    if let some request := call.request? then
      here entry [.request (player.accept p.handle p.clock request)] .goOn
    else if let some event := call.event? then
      let position := entry.notices.length
      let entry := { entry with notices := .mk event none :: entry.notices }
      match entry.receiver with
      | .output =>
        let (output, records) := Bridge.emit p.machine.connection p.output event
        { p with output }.keep t (.call entry :: below) records |>.moveCall player t entry below .returned
      | receiver =>
        match receiver.actionsFor position event with
        | some actions => here entry [.script actions []] .goOn
        | none => p.moveCall player t entry below .returned
    else match call.wait? p.machine.connection.tuning with
      | none => p.moveCall player t entry below .proceed
      | some wait =>
        if !p.machine.connection.slot.mustWait then p.moveCall player t entry below .proceed
        else match entry.deadline with
          | none => here { entry with deadline := some (p.clock + wait) } [] .goOn
          | some deadline =>
            if deadline ≤ p.clock then p.moveCall player t entry below .timeUp
            else .blocked (some deadline)

/-- Goes on with a request of the call below it. -/
def goOnRequest (player : Player H P) (p : Performance H P) (t : Nat) (pending : P)
    (below : List (Frame P)) : Attempt H P :=
  match player.turn p.handle p.clock p.machine.connection.cancelSend pending with
  | .answers input pause handle records =>
    .went (({ p with handle }.keep t below records).setThread t
      { frames := .answer input :: below, control := .goOn, notBefore := p.clock + pause })
  | .yields actions handle pending =>
    .went ({ p with handle }.setThread t
      { frames := .script actions [] :: .request pending :: below, control := .goOn })
  | .proceeds handle pending records =>
    .went (({ p with handle }.keep t below records).setThread t
      { frames := .request pending :: below, control := .goOn })
  | .waits until? => .blocked until?
  | .raises handle =>
    .went ({ p with handle }.setThread t { frames := below, control := .raise })

/-- Hears the next line of the feed, or that it is over. -/
def hear (p : Performance H P) : Option (Bridge.Heard × Bridge.Feed) :=
  match p.feed.lines with
  | (time, text) :: rest =>
    if time ≤ p.clock then some (.line text, { p.feed with lines := rest }) else none
  | [] => if p.feed.endsAt ≤ p.clock then some (.inputEnded, p.feed) else none

/-- The next time at which the feed brings something. -/
def feedTime (p : Performance H P) : Nat :=
  match p.feed.lines with
  | (time, _) :: _ => time
  | [] => p.feed.endsAt

def moveRelay (p : Performance H P) (t : Nat) (stage : Bridge.Relay Json.Value) (drainUntil : Option Nat)
    (input : Bridge.RelayInput) (notBefore : Nat := 0) : Attempt H P :=
  match stage.step t p.machine input with
  | none => .blocked none
  | some (machine, stage, records) =>
    let p := { p with machine }.keep t [] records
    .went (p.setThread t { frames := [.relay stage none drainUntil], control := .goOn, notBefore })

/-- Goes on with the host side of a bridge. The dispatch runs on the thread after it. -/
def goOnRelay (p : Performance H P) (t : Nat) (stage : Bridge.Relay Json.Value)
    (listenUntil drainUntil : Option Nat) : Attempt H P :=
  let stay (control : Control) (listenUntil drainUntil : Option Nat) (notBefore : Nat) :
      Attempt H P :=
    .went (p.setThread t
      { frames := [.relay stage listenUntil drainUntil], control, notBefore })
  match stage with
  | .joining =>
    match p.finish? (t + 1) with
    | none => .blocked none
    | some finish => .went (p.setThread t { control := .over finish })
  | .listening =>
    match p.hear with
    | some (heard, feed) => { p with feed }.moveRelay t stage drainUntil (.heard heard)
    | none =>
      match listenUntil with
      | none => stay .goOn (some (p.clock + p.timing.pollInterval)) drainUntil 0
      | some time =>
        if time ≤ p.clock then p.moveRelay t stage drainUntil (.heard .nothing)
        else .blocked (some (min time p.feedTime))
  | .holding .drain =>
    match drainUntil with
    | none => stay .goOn none (some (p.clock + p.timing.drainTimeout)) 0
    | some time =>
      if time ≤ p.clock then p.moveRelay t stage drainUntil .timeUp
      else p.moveRelay t stage drainUntil .proceed
  | .resting =>
    match listenUntil with
    | none => stay .goOn (some (p.clock + p.timing.pollInterval)) drainUntil 0
    | some time =>
      if time ≤ p.clock then p.moveRelay t stage drainUntil .proceed else .blocked (some time)
  | _ =>
    match stage.operation? with
    | some operation => stay (.call operation {}) none drainUntil 0
    | none => p.moveRelay t stage drainUntil .proceed

def goOn (player : Player H P) (p : Performance H P) (t : Nat) : List (Frame P) → Attempt H P
  | [] => .went (p.setThread t { control := .over (.replies []) })
  | .script [] replies :: [] =>
    .went (p.setThread t { control := .over (.replies replies.reverse) })
  | .script [] replies :: .call entry :: below =>
    p.moveCall player t { entry with notices := answerNotice replies.reverse entry.notices } below
      .returned
  | .script [] _ :: below => .went (p.setThread t { frames := below, control := .goOn })
  | .script (action :: todo) replies :: below =>
    .went (p.setThread t { frames := .script todo replies :: below, control := .act action })
  | .call entry :: below => p.goOnCall player t entry below
  | .request pending :: below => p.goOnRequest player t pending below
  | .answer input :: .call entry :: below => p.moveCall player t entry below input
  | .answer _ :: below => .went (p.setThread t { frames := below, control := .goOn })
  | .caught :: below => .went (p.setThread t { frames := below, control := .goOn })
  | .beside thread :: below =>
    .went (p.setThread t { frames := .joining thread .done :: below, control := .goOn })
  | .joining thread main :: below =>
    match p.finish? thread with
    | none => .blocked none
    | some (.replies replies) =>
      .went (p.setThread t { frames := below, control := .reply (.during main replies) })
    | some _ => .went (p.setThread t { frames := below, control := .raise })
  | .relay stage listenUntil drainUntil :: _ => p.goOnRelay t stage listenUntil drainUntil

/-- Hands a reply to the newest frame of a thread. -/
def give (player : Player H P) (p : Performance H P) (t : Nat) (reply : Reply) :
    List (Frame P) → Attempt H P
  | [] => .went (p.setThread t { control := .over (.reply reply) })
  | .script todo replies :: below =>
    let p := match below with
      | .request pending :: _ => { p with trace := (player.place pending, reply) :: p.trace }
      | _ => p
    .went (p.setThread t { frames := .script todo (reply :: replies) :: below, control := .goOn })
  | .caught :: below => .went (p.setThread t { frames := below, control := .reply reply })
  | .beside thread :: below =>
    .went (p.setThread t { frames := .joining thread reply :: below, control := .goOn })
  | .relay stage _ drainUntil :: _ =>
    let outcome : Outcome := match reply with
      | .sent result => .sent result
      | _ => .shutDown
    p.moveRelay t stage drainUntil (.called outcome)
  | frames => .went (p.setThread t { frames, control := .goOn })

/-- An exception leaves what was going on above a frame that catches it. -/
def unwind (player : Player H P) (p : Performance H P) (t : Nat) : List (Frame P) → Attempt H P
  | [] => .went (p.setThread t { control := .over .raised })
  | .caught :: below => .went (p.setThread t { frames := below, control := .reply .panicked })
  | .call entry :: below => p.moveCall player t entry below .raised
  | _ :: below => .went (p.setThread t { frames := below, control := .raise })

def startCall (p : Performance H P) (t : Nat) (frames : List (Frame P))
    (operation : Operation Json.Value) (entry : Entry) : Attempt H P :=
  match p.machine.next t (.start operation) with
  | none => .blocked none
  | some (machine, effect) =>
    let p := { p with machine }.keep t (.call entry :: frames) effect.records
    match effect.next with
    | .goesOn _ => .went (p.setThread t { frames := .call entry :: frames, control := .goOn })
    | .ends outcome =>
      .went (p.setThread t { frames, control := .reply (.ofOutcome [] outcome) })
    | .unwinds => .went (p.setThread t { frames, control := .raise })

def act (p : Performance H P) (t : Nat) (frames : List (Frame P)) (action : Action) :
    Attempt H P :=
  let c := p.machine.connection
  let answer (reply : Reply) : Attempt H P :=
    .went (p.setThread t { frames, control := .reply reply })
  match action with
  | .send payload => p.startCall t frames (.send (.ok payload)) {}
  | .sendMessage json =>
    match Json.decode .any json with
    | .ok message => p.startCall t frames (.message (.json .any) message) {}
    | .error error => answer (.notDecoded error)
  | .sendPairs pairs => p.startCall t frames (.send (Json.encodePairs pairs)) {}
  | .shutdown => p.startCall t frames .shutdown {}
  | .status => answer (.status c.currentPid c.done c.isClosed)
  | .stderr => answer (.bytes c.diagnostics.bytes)
  | .stderrText => answer (.text (Text.Utf8.lossy c.diagnostics.bytes))
  | .describe => answer (.text c.describe)
  | .sleep ms =>
    .went (p.setThread t { frames, control := .reply .done, notBefore := p.clock + ms })
  | .dispatch language venue on atEnd =>
    p.startCall t frames
      (.dispatch language.codec (if venue = .direct then .unserialized else .locked))
      { receiver := .actions on atEnd, apart := venue = .apart }
  | .during ms main other =>
    let thread : Thread P :=
      { frames := [.script other []], control := .goOn, notBefore := p.clock + ms }
    let p := { p with machine := p.machine.spawn, threads := p.threads ++ [thread] }
    .went (p.setThread t
      { frames := .beside (p.threads.length - 1) :: frames, control := .act main })
  | .panic => .went (p.setThread t { frames, control := .raise })
  | .caught main => .went (p.setThread t { frames := .caught :: frames, control := .act main })

def attempt (player : Player H P) (p : Performance H P) (t : Nat) (thread : Thread P) :
    Attempt H P :=
  if p.clock < thread.notBefore then .blocked (some thread.notBefore)
  else match thread.control with
    | .act action => p.act t thread.frames action
    | .call operation entry => p.startCall t thread.frames operation entry
    | .reply reply => p.give player t reply thread.frames
    | .goOn => p.goOn player t thread.frames
    | .raise => p.unwind player t thread.frames
    | .over _ => .blocked none

def earlier : Option Nat → Option Nat → Option Nat
  | none, b => b
  | a, none => a
  | some a, some b => some (min a b)

/-- The first of the threads from a position on that can go on, or the time at which one will. -/
def attemptFrom (player : Player H P) (p : Performance H P) :
    Nat → Option Nat → List (Thread P) → Attempt H P
  | _, time, [] => .blocked time
  | t, time, thread :: rest =>
    match p.attempt player t thread with
    | .went p => .went p
    | .blocked until? => attemptFrom player p (t + 1) (earlier time until?) rest

/-- Goes on until the first thread is over, or nothing can happen any more. -/
def run (player : Player H P) : Nat → Performance H P → Performance H P
  | 0, p => p
  | fuel + 1, p =>
    if (p.finish? 0).isSome then p
    else match p.attemptFrom player 0 (player.next? p.handle) p.threads with
      | .went p => run player fuel p
      | .blocked (some time) =>
        let clock := max time (p.clock + 1)
        run player fuel { p with clock, handle := player.advance p.handle clock }
      | .blocked none => p

/-- Steps that a performance may take: more than any script needs. -/
def stamina : Nat := Nat.pow 2 40

def reply (p : Performance H P) : Reply :=
  match p.finish? 0 with
  | some (.reply reply) => reply
  | _ => .panicked

def perform (player : Player H P) (p : Performance H P) (action : Action) :
    Performance H P × Reply :=
  let threads := { control := .act action } :: p.threads.tail
  let p := run player stamina { p with threads, trace := [] }
  (p, p.reply)

def start (handle : H) (pid : Nat) (tuning : Tuning) : Performance H P where
  machine := { connection := .start pid tuning }
  handle

/-- The first thread relays an input while the second dispatches. -/
def bridge (player : Player H P) (p : Performance H P) : Performance H P × Reply :=
  let host : Thread P := { frames := [.relay .start none none], control := .goOn }
  let dispatch : Thread P :=
    { control := .call (.dispatch (.ofFormat Json.Value) .locked) { receiver := .output } }
  let machine := { p.machine with callStacks := [[], []] }
  let p := run player stamina { p with machine, threads := [host, dispatch] }
  (p, p.reply)

end Performance

end WorkerLink.Rehearsal
