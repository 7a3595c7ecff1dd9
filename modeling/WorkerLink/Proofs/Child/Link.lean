import WorkerLink.Proofs.Child.Sending
import WorkerLink.Proofs.Connection.Turns

/-!
# A connection over the streams of a worker

A link is a ledger whose handle is a child: what a send hands to the writer and
when it is answered is up to the steps of `Child.sendStep`, and the writer takes
chunks and answers for them when it likes, with their size or with a fault. Reads
and closes of the child go on beside that.

Four fields are kept for the record alone and steer nothing: what has been handed
over, for which send each chunk and each answer stands, and which send has
counted which answer.

Between the look at the cancel flag and the hand-over of a chunk others may move,
a shutdown among them. So a cancelled link may still see one chunk: that of the
send which had looked before.
-/

namespace WorkerLink

variable {α : Type}

inductive Desk
  | free
  /-- It sends the frame of a call. -/
  | busy (name : Nat) (framed : Bytes) (stage : Child.Sending)
  /-- It has an answer that the call has not taken. -/
  | answered (name : Nat) (framed : Bytes) (answer : Except Fault Nat)

/-- The send at the handle has looked at the cancel flag and is about to hand over a chunk. -/
def Desk.isHanding : Desk → Bool
  | .busy _ _ (.handing _ _ _) => true
  | _ => false

def Desk.after (name : Nat) (framed : Bytes) :
    Child.Progress Child.Sending (Except Fault Nat) → Desk
  | .goesOn stage => .busy name framed stage
  | .ends answer => .answered name framed answer

/-- A connection, the child that is its handle, and the thread that writes to the worker. -/
structure Link (α : Type) where
  ledger : Ledger α
  child : Child
  desk : Desk := .free
  /-- The chunk that the writer has taken and not answered for, with the send it is from. -/
  hand : Option (Nat × Bytes) := none
  /-- The chunks handed to the writer so far, each with the send that it is from. -/
  handovers : List (Nat × Bytes) := []
  /-- The sends that the queued chunks are from, oldest first. -/
  queuedFor : List Nat := []
  /-- The sends that the answers are for that nobody has taken, oldest first. -/
  acksFor : List Nat := []
  /-- Each answer that a send has taken: the send, and the one that the answer was for. -/
  counted : List (Nat × Nat) := []

/-- The chunks that have come to the queue of the writer. -/
def Child.added (before after : Child) : List Bytes :=
  match before.writer, after.writer with
  | some w, some w' => w'.queued.drop w.queued.length
  | _, _ => []

namespace Link

def handed (j : Link α) : Bytes := (j.handovers.map Prod.snd).flatten

/-- The frames of the sends that were reported as done. -/
def accepted (j : Link α) : Bytes := (j.ledger.accepted.map Frame.encode).flatten

/-- No send that looks from now on hands anything over: the sends are cancelled, or the writer is
given up. -/
def Shut (j : Link α) : Prop :=
  j.ledger.connection.cancelSend = true ∨ j.child.writer = none

/-- Nothing is handed over any more, not even by a send that has looked before. -/
def Still (j : Link α) : Prop := j.Shut ∧ j.desk.isHanding = false

/-- For which sends the answers are that a step of a send takes. A send takes one where it waits for
it. -/
def taken (acksFor : List Nat) : Child.Sending → List Nat
  | .awaiting _ _ => acksFor.take 1
  | .next _ _ | .handing _ _ _ | .lapsed _ _ => []

def stepped (j : Link α) (name : Nat) (framed : Bytes) (stage : Child.Sending)
    (s : Child.SendStep) : Link α :=
  { j with
    child := s.child
    desk := .after name framed s.progress
    handovers := j.handovers ++ (j.child.added s.child).map fun chunk => (name, chunk)
    queuedFor := j.queuedFor ++ (j.child.added s.child).map fun _ => name
    acksFor := j.acksFor.drop (taken j.acksFor stage).length
    counted := j.counted ++ (taken j.acksFor stage).map fun owner => (name, owner) }

theorem handed_stepped (j : Link α) (name : Nat) (framed : Bytes) (stage : Child.Sending)
    (s : Child.SendStep) :
    (j.stepped name framed stage s).handed = j.handed ++ (j.child.added s.child).flatten := by
  simp [handed, stepped, Function.comp_def]

theorem acknowledge_none {c : Child} (result : Except Fault Nat) (h : c.writer = none) :
    c.acknowledge result = c := by
  simp only [Child.acknowledge, h]

theorem acknowledge_some {c : Child} {w : Writer} (result : Except Fault Nat)
    (h : c.writer = some w) : (c.acknowledge result).writer =
      some { w with acks := w.acks ++ [result], running := w.running && result.isOk } := by
  simp only [Child.acknowledge, h]

theorem takeChunk_eq_some {c c' : Child} {chunk : Bytes} (h : c.takeChunk = some (chunk, c')) :
    ∃ w queued, c.writer = some w ∧ w.queued = chunk :: queued ∧
      c' = { c with writer := some { w with queued } } := by
  unfold Child.takeChunk at h
  split at h
  · next w hw =>
    split at h
    · next first queued hq =>
      cases h
      exact ⟨w, queued, hw, hq, rfl⟩
    · cases h
  · cases h

/-- A step of a send other than a hand-over leaves the queue of the writer as it was. -/
theorem added_eq_nil {c c' : Child} (h : ∀ w w', c.writer = some w → c'.writer = some w' →
    w'.queued = w.queued) : c.added c' = [] := by
  unfold Child.added
  split
  · next w w' hw hw' => rw [h w w' hw hw', List.drop_length]
  · rfl

theorem added_hands {c : Child} {w : Writer} (h : c.writer = some w) (chunk : Bytes) :
    c.added { c with writer := some { w with queued := w.queued ++ [chunk] } } = [chunk] := by
  simp only [Child.added, h, List.drop_left]

theorem added_same (c : Child) : c.added c = [] :=
  added_eq_nil fun w w' h h' => by
    rw [h] at h'
    cases h'
    rfl

theorem added_gone (c : Child) {c' : Child} (h : c'.writer = none) : c.added c' = [] :=
  added_eq_nil fun w w' _ h' => by
    rw [h] at h'
    cases h'

theorem added_counts {c : Child} {w : Writer} (h : c.writer = some w)
    (acks : List (Except Fault Nat)) :
    c.added { c with writer := some { w with acks } } = [] :=
  added_eq_nil fun w₁ w₂ h₁ h₂ => by
    rw [h] at h₁
    cases h₁
    cases h₂
    rfl

section Steps

variable {c c' : Child} {cancel : Bool} {stage : Child.Sending}
  {progress : Child.Progress Child.Sending (Except Fault Nat)}

theorem steps_shut (h : Child.Steps c cancel stage c' progress)
    (shut : cancel = true ∨ c.writer = none) : cancel = true ∨ c'.writer = none := by
  cases h with
  | lacksWriter _ | finishes _ | breaksOff _ _ | looks _ _ | lapses _ _ | resumes _ => exact shut
  | hands hw | counts hw _ =>
    refine .inl (shut.resolve_right ?_)
    rw [hw]
    nofun
  | givesUp | abandons _ => exact .inr rfl

/-- A step of a send that is not about to hand over hands nothing over, and where sends are cut off
it does not come to it. -/
theorem steps_still {name : Nat} {framed : Bytes} (h : Child.Steps c cancel stage c' progress)
    (apart : (Desk.busy name framed stage).isHanding = false) :
    c.added c' = [] ∧ (cancel = true ∨ c.writer = none →
      (Desk.after name framed progress).isHanding = false) := by
  cases h with
  | lacksWriter _ | finishes _ | breaksOff _ _ => exact ⟨added_same c, fun _ => rfl⟩
  | looks hw hc =>
    refine ⟨added_same c, fun shut => ?_⟩
    rcases shut with h | h
    · rw [hc] at h
      cases h
    · rw [hw] at h
      cases h
  | hands _ => cases apart
  | counts hw _ => exact ⟨added_counts hw _, fun _ => rfl⟩
  | lapses _ _ | resumes _ => exact ⟨added_same c, fun _ => rfl⟩
  | givesUp | abandons _ => exact ⟨added_gone c rfl, fun _ => rfl⟩

/-- A send that is about to hand over a chunk hands over that one, or nothing. -/
theorem steps_handing {name : Nat} {framed chunk : Bytes} {rest : List Bytes} {written : Nat}
    (h : Child.Steps c cancel (.handing chunk rest written) c' progress) :
    (c.added c' = [] ∨ c.added c' = [chunk]) ∧
      (Desk.after name framed progress).isHanding = false := by
  cases h with
  | lacksWriter _ => exact ⟨.inl (added_same c), rfl⟩
  | hands hw => exact ⟨.inr (added_hands hw chunk), rfl⟩
  | givesUp => exact ⟨.inl (added_gone c rfl), rfl⟩

end Steps

variable [Memory]

/-- One move of the connection, the handle, the writer or the other streams. -/
inductive Moves (j : Link α) : Link α → Prop
  /-- A call starts or goes on that is not a send at its frame. -/
  | calls {thread : Nat} {move : Move α} {l : Ledger α} : j.ledger.next thread move = some l →
      (∀ input, move = .goOn input → ∀ name framed below,
        j.ledger.stack thread ≠ ⟨name, .sending framed⟩ :: below) →
      Moves j { j with ledger := l }
  | spawns : Moves j { j with ledger := j.ledger.spawn }
  /-- The handle takes up the frame of a send. -/
  | enters {name : Nat} {framed : Bytes} : j.desk = .free →
      ⟨name, .sending framed⟩ ∈ j.ledger.calls →
      Moves j { j with desk := .busy name framed (j.child.startSend framed) }
  | steps {name : Nat} {framed : Bytes} {stage : Child.Sending} {timeUp : Bool}
      {s : Child.SendStep} : j.desk = .busy name framed stage →
      j.child.sendStep j.ledger.connection.cancelSend timeUp stage = some s →
      Moves j (j.stepped name framed stage s)
  /-- The send takes the answer of the handle. -/
  | answers {thread name : Nat} {framed : Bytes} {answer : Except Fault Nat}
      {below : List (Named α)} {l : Ledger α} : j.desk = .answered name framed answer →
      j.ledger.stack thread = ⟨name, .sending framed⟩ :: below →
      j.ledger.next thread (.goOn (.wrote answer)) = some l →
      Moves j { j with ledger := l, desk := .free }
  /-- The writer takes a chunk. -/
  | takes {chunk : Bytes} {child : Child} : j.hand = none →
      j.child.takeChunk = some (chunk, child) →
      Moves j { j with
        child, hand := some (j.queuedFor.headD 0, chunk), queuedFor := j.queuedFor.tail }
  /-- The writer answers for its chunk. -/
  | acknowledges {owner : Nat} {chunk : Bytes} {result : Except Fault Nat} :
      j.hand = some (owner, chunk) → (∀ n, result = .ok n → n = chunk.length) →
      Moves j { j with
        child := j.child.acknowledge result, hand := none, acksFor := j.acksFor ++ [owner] }
  /-- The writer stops without an answer. -/
  | stops {w : Writer} : j.child.writer = some w →
      Moves j { j with child := { j.child with writer := some { w with running := false } } }
  /-- The child is closed while no send is inside it. -/
  | closes : (∀ name framed stage, j.desk ≠ .busy name framed stage) →
      Moves j { j with child := j.child.close }
  /-- Something happens to the child that does not concern the writer. -/
  | others {child : Child} : child.writer = j.child.writer → Moves j { j with child }

/-- What can come about over a fresh child. -/
inductive Reachable : Link α → Prop
  | start (pid : Nat) (tuning : Tuning) (child : Child) : child.writer = some {} →
      Reachable { ledger := { connection := .start pid tuning }, child }
  | next {j j' : Link α} : Reachable j → Moves j j' → Reachable j'

inductive Reaches (j : Link α) : Link α → Prop
  | refl : Reaches j j
  | next {j' j'' : Link α} : Reaches j j' → Moves j' j'' → Reaches j j''

theorem Reaches.trans {j j' j'' : Link α} (h : j.Reaches j') (k : j'.Reaches j'') :
    j.Reaches j'' := by
  induction k with
  | refl => exact h
  | next _ hm ih => exact ih.next hm

variable {j j' : Link α}

/-- A link that is shut stays so. -/
theorem Moves.shut (h : Moves j j') (shut : j.Shut) : j'.Shut := by
  cases h with
  | calls hn _ | answers _ _ hn =>
    obtain ⟨_, _, _, _, hm⟩ := Ledger.moves_of_next hn
    exact shut.imp_left hm.does.follows.cancelSend
  | spawns | enters _ _ => exact shut
  | steps _ hs => exact steps_shut (Child.steps_of_sendStep hs) shut
  | takes _ ht =>
    obtain ⟨w, _, hw, _, rfl⟩ := takeChunk_eq_some ht
    refine .inl (shut.resolve_right ?_)
    rw [hw]
    nofun
  | acknowledges _ _ =>
    refine shut.imp_right fun hw => ?_
    rw [acknowledge_none _ hw]
    exact hw
  | stops hw =>
    refine .inl (shut.resolve_right ?_)
    rw [hw]
    nofun
  | closes _ => exact .inr rfl
  | others hw => exact shut.imp_right fun hnone => hw.trans hnone

/-- Once the link is shut and no send is about to hand over, it stays so. -/
theorem Moves.still (h : Moves j j') (still : j.Still) :
    j'.Still ∧ j'.handovers = j.handovers := by
  obtain ⟨hshut, hapart⟩ := still
  have hshut' := h.shut hshut
  cases h with
  | calls _ _ | spawns | takes _ _ | acknowledges _ _ | stops _ | closes _ | others _ =>
    exact ⟨⟨hshut', hapart⟩, rfl⟩
  | enters _ _ | answers _ _ _ => exact ⟨⟨hshut', rfl⟩, rfl⟩
  | steps hdesk hs =>
    rw [hdesk] at hapart
    obtain ⟨hadded, hafter⟩ := steps_still (Child.steps_of_sendStep hs) hapart
    refine ⟨⟨hshut', hafter hshut⟩, ?_⟩
    rw [stepped, hadded, List.map_nil, List.append_nil]

/-- Nothing is handed over by a link that is shut. -/
theorem Reaches.still (h : j.Reaches j') (still : j.Still) :
    j'.Still ∧ j'.handovers = j.handovers := by
  induction h with
  | refl => exact ⟨still, rfl⟩
  | next _ hm ih =>
    obtain ⟨hstill, hsame⟩ := hm.still ih.1
    exact ⟨hstill, hsame.trans ih.2⟩

/-- The bytes that a link still sees after it is shut: at most the chunk of the send that has looked
before. -/
def Trails (j j' : Link α) : Prop :=
  j'.handed = j.handed ∨ ∃ name framed chunk rest written,
    j.desk = .busy name framed (.handing chunk rest written) ∧ j'.handed = j.handed ++ chunk

/-- A send that is about to hand over moves on, or something else moves. -/
theorem Moves.trails (h : Moves j j') (shut : j.Shut) (handing : j.desk.isHanding = true) :
    j'.desk = j.desk ∧ j'.handed = j.handed ∨ j'.Still ∧ j.Trails j' := by
  have hshut := h.shut shut
  cases h with
  | calls _ _ | spawns | takes _ _ | acknowledges _ _ | stops _ | closes _ | others _ =>
    exact .inl ⟨rfl, rfl⟩
  | enters hdesk _ | answers hdesk _ _ =>
    rw [hdesk] at handing
    cases handing
  | @steps name framed stage _ s hdesk hs =>
    rw [hdesk] at handing
    cases stage with
    | next _ _ | awaiting _ _ | lapsed _ _ => cases handing
    | handing chunk rest written =>
      obtain ⟨hadded, hafter⟩ := steps_handing (Child.steps_of_sendStep hs)
      refine .inr ⟨⟨hshut, hafter⟩, ?_⟩
      rw [Trails, handed_stepped]
      rcases hadded with hnone | hone
      · left
        rw [hnone, List.flatten_nil, List.append_nil]
      · right
        refine ⟨name, framed, chunk, rest, written, hdesk, ?_⟩
        rw [hone, List.flatten_singleton]

theorem Moves.handed_of_still (h : Moves j j') (still : j.Still) : j'.handed = j.handed := by
  rw [handed, (h.still still).2, handed]

/-- Until the send that is about to hand over moves on, nothing is handed over; after that the link
is still. -/
theorem Reaches.waits_or_trails (h : j.Reaches j') (shut : j.Shut)
    (handing : j.desk.isHanding = true) :
    j'.Shut ∧ (j'.desk = j.desk ∧ j'.handed = j.handed ∨ j'.Still ∧ j.Trails j') := by
  induction h with
  | refl => exact ⟨shut, .inl ⟨rfl, rfl⟩⟩
  | next _ hm ih =>
    obtain ⟨hshut, hbefore⟩ := ih
    refine ⟨hm.shut hshut, ?_⟩
    rcases hbefore with ⟨hdesk, hhanded⟩ | ⟨hstill, htrails⟩
    · have hmove := hm.trails hshut (by rw [hdesk]; exact handing)
      rw [Trails, hdesk, hhanded] at hmove
      exact hmove
    · rw [Trails, ← hm.handed_of_still hstill] at htrails
      exact .inr ⟨(hm.still hstill).1, htrails⟩

theorem Reaches.trails (h : j.Reaches j') (shut : j.Shut) : j.Trails j' := by
  cases hhanding : j.desk.isHanding with
  | false =>
    left
    rw [handed, (h.still ⟨shut, hhanding⟩).2, handed]
  | true =>
    obtain ⟨_, ⟨_, hhanded⟩ | ⟨_, htrails⟩⟩ := h.waits_or_trails shut hhanding
    · exact .inl hhanded
    · exact htrails

end Link

end WorkerLink
