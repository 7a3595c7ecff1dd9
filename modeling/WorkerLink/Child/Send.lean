import WorkerLink.Child.Basic

/-!
Sending to a worker. The bytes go to the writer in chunks, one at a time: the next chunk follows
when the last one has been acknowledged. Before each chunk, and after each poll interval without an
answer, the send looks at the cancel flag.

A failed write closes the worker's input for good, and so does a cancel while a chunk is under way,
because nobody knows then how much of the chunk has arrived.
-/

namespace WorkerLink.Child

inductive Sending
  /-- Chunks are left, and so many bytes have been acknowledged. -/
  | next (chunks : List Bytes) (written : Nat)
  /-- The send was not cancelled when it looked, and hands over a chunk. -/
  | handing (chunk : Bytes) (chunks : List Bytes) (written : Nat)
  /-- A chunk is under way. -/
  | awaiting (chunks : List Bytes) (written : Nat)
  /-- A chunk is under way, and a poll interval has passed without an answer. -/
  | lapsed (chunks : List Bytes) (written : Nat)

/-- What becomes of a call: it goes on, or it has an answer. -/
inductive Progress (S A : Type)
  | goesOn (stage : S)
  | ends (answer : A)

/-- What a step of a send leaves. -/
structure SendStep where
  child : Child
  progress : Progress Sending (Except Fault Nat)
  records : List Log.Record := []

def inputClosed : Fault := ⟨.brokenPipe, "worker stdin is closed"⟩

def writerStopped : Fault := ⟨.brokenPipe, "worker stdin writer stopped"⟩

/-- Bytes in chunks of a size, the last one perhaps smaller. A size of zero counts as one. -/
def chunks (size : Nat) (bytes : Bytes) : List Bytes :=
  if bytes = [] then []
  else bytes.take (max 1 size) :: chunks size (bytes.drop (max 1 size))
termination_by bytes.length
decreasing_by
  have : 0 < bytes.length := List.length_pos_iff.2 (by assumption)
  simp only [List.length_drop]
  omega

def startSend (c : Child) (bytes : Bytes) : Sending := .next (chunks c.chunkSize bytes) 0

def giveUp (c : Child) (answer : Except Fault Nat) (records : List Log.Record := []) : SendStep :=
  ⟨{ c with writer := none }, .ends answer, records⟩

/-- One step of a send, with the cancel flag and whether a poll interval has passed since the last
one. It waits only for an answer of the writer. -/
def sendStep (c : Child) (cancel timeUp : Bool) : Sending → Option SendStep
  | .next rest written =>
    match c.writer with
    | none => some ⟨c, .ends (.error inputClosed), []⟩
    | some _ =>
      match rest with
      | [] => some ⟨c, .ends (.ok written), []⟩
      | chunk :: rest =>
        if cancel then some ⟨c, .ends (.ok written), []⟩
        else some ⟨c, .goesOn (.handing chunk rest written), []⟩
  | .handing chunk rest written =>
    match c.writer with
    | none => some ⟨c, .ends (.error inputClosed), []⟩
    | some w =>
      if !w.running then some (c.giveUp (.error writerStopped))
      else
        let w := { w with queued := w.queued ++ [chunk] }
        some ⟨{ c with writer := some w }, .goesOn (.awaiting rest written), []⟩
  | .awaiting rest written =>
    match c.writer with
    | none => some ⟨c, .ends (.error inputClosed), []⟩
    | some w =>
      match w.acks with
      | .ok n :: acks =>
        some ⟨{ c with writer := some { w with acks } }, .goesOn (.next rest (written + n)), []⟩
      | .error fault :: _ => some (c.giveUp (.error fault))
      | [] =>
        if !w.running then some (c.giveUp (.error writerStopped))
        else if timeUp then some ⟨c, .goesOn (.lapsed rest written), []⟩
        else none
  | .lapsed rest written =>
    if cancel then
      some (c.giveUp (.ok written)
        [record .debug "send cancelled while a write was pending"
          [("pid", .number c.pid), ("written", .number written)]])
    else some ⟨c, .goesOn (.awaiting rest written), []⟩

end WorkerLink.Child
