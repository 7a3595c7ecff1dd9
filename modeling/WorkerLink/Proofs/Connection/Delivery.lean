import WorkerLink.Proofs.Connection.SingleRun
import WorkerLink.Proofs.Wire.Scanning

/-!
# A dispatch delivers what was received

`Tracks` relates a dispatch at each stage to the bytes that the handle has
returned so far and to the events that the receiver has been told. It needs
nothing of the connection but that the dispatch does not find it done before a
frame, and that never happens to a dispatch that has begun. So whatever the
reads were, whatever came between them and however they ended, the events are
those of the complete frames of the bytes received.
-/

namespace WorkerLink

variable {α : Type}

namespace Codec

def event (codec : Codec α) (frame : Frame) : Event α :=
  match codec.decode frame.payload with
  | .ok value => .message value
  | .error error => .decodeFailed error

def accepts (codec : Codec α) (frame : Frame) : Bool := (codec.decode frame.payload).isOk

theorem event_of_ok {codec : Codec α} {frame : Frame} {value : α}
    (h : codec.decode frame.payload = .ok value) :
    codec.event frame = .message value ∧ codec.accepts frame = true := by
  simp [event, accepts, h, Except.isOk, Except.toBool]

theorem event_of_error {codec : Codec α} {frame : Frame} {error : DecodeError}
    (h : codec.decode frame.payload = .error error) :
    codec.event frame = .decodeFailed error ∧ codec.accepts frame = false := by
  simp [event, accepts, h, Except.isOk, Except.toBool]

end Codec

def Input.heard : Input → Bytes
  | .read _ (.ok bytes) => bytes
  | _ => []

def Input.readFails : Input → Bool
  | .read _ (.error _) => true
  | _ => false

theorem Input.heard_of_endsWait {input : Input} (h : input.endsWait = true) :
    input.heard = [] ∧ input.readFails = false := by
  cases input <;> simp [endsWait, heard, readFails] at h ⊢

namespace Deed

def heard (d : Deed α) : Bytes :=
  match d.cause with
  | .start _ => []
  | .goOn _ input => input.heard

def readFails (d : Deed α) : Bool :=
  match d.cause with
  | .start _ => false
  | .goOn _ input => input.readFails

end Deed

def received (deeds : List (Deed α)) : Bytes := deeds.flatMap Deed.heard

def readFailed (deeds : List (Deed α)) : Bool := deeds.any Deed.readFails

theorem received_snoc (deeds : List (Deed α)) (d : Deed α) :
    received (deeds ++ [d]) = received deeds ++ d.heard := by
  simp [received]

theorem readFailed_snoc (deeds : List (Deed α)) (d : Deed α) :
    readFailed (deeds ++ [d]) = (readFailed deeds || d.readFails) := by
  simp [readFailed]

namespace Dispatch

theorem result_eq_ok {run : Dispatch α} {summary : Summary} (h : run.result = .ok summary) :
    summary = ⟨run.messages, run.decodeErrors, run.stopReason⟩ := by
  unfold result at h
  split at h
  · cases h
  · cases h
    rfl

theorem result_of_quiet {run : Dispatch α}
    (h : run.stopReason = .handleInactive ∨ run.stopReason = .terminated .endOfStream) :
    run.result = .ok ⟨run.messages, run.decodeErrors, run.stopReason⟩ := by
  rcases h with h | h <;> simp [result, h]

end Dispatch

variable [Memory]

namespace Dispatch

/-- So many frames have been read off the bytes received, and the dispatch has counted them. -/
def Account (run : Dispatch α) (bytes : Bytes) (frames : List Frame) (rest : Bytes) : Prop :=
  Wire.Reads bytes frames rest ∧ run.messages = frames.countP run.codec.accepts ∧
    run.decodeErrors = frames.countP fun frame => !run.codec.accepts frame

/-- Reading has stopped over `rest`: the next frame cannot be read off it, and that is the reason,
unless the handle failed before it came to that. -/
def Stops (failed : Bool) (rest : Bytes) (reason : StopReason) : Prop :=
  ∃ error, Wire.read rest = .error error ∧
    (reason = .terminated error ∨ reason = .handleInactive ∧ error = .endOfStream ∨
      failed = true ∧ ∃ fault, reason = .terminated (.io fault))

/-- Reading is over and the receiver has been told the events of the frames. -/
def Over (run : Dispatch α) (failed : Bool) (bytes : Bytes) (events : List (Event α)) : Prop :=
  ∃ frames rest, Account run bytes frames rest ∧ events = frames.map run.codec.event ∧
    Stops failed rest run.stopReason

/-- What a dispatch has made of the bytes received, by its stage. -/
def Tracks (run : Dispatch α) (failed : Bool) (bytes : Bytes) (events : List (Event α)) :
    Stage α → Prop
  | .claiming | .confirming | .refusing | .looping | .probing =>
    ∃ frames, Account run bytes frames run.buffered ∧ events = frames.map run.codec.event
  | .receiving scan | .retrying scan =>
    ∃ frames rest, Account run bytes frames rest ∧ Wire.Waiting scan run.buffered rest ∧
      events = frames.map run.codec.event
  | .decoding frame =>
    ∃ frames rest, Account run bytes frames rest ∧ Wire.read rest = .ok (frame, run.buffered) ∧
      events = frames.map run.codec.event
  | .entering event =>
    if event.isEndOfStream then Over run failed bytes events
    else ∃ frames frame, Account run bytes (frames ++ [frame]) run.buffered ∧
      event = run.codec.event frame ∧ events = frames.map run.codec.event
  | .notifying event =>
    if event.isEndOfStream then ∃ told, events = told ++ [.endOfStream] ∧ Over run failed bytes told
    else ∃ frames, Account run bytes frames run.buffered ∧ events = frames.map run.codec.event
  | .concluding => Over run failed bytes events
  | .awaitingClose | .closing | .retiring | .releasing | .clearing =>
    ∃ told, events = told ++ [.endOfStream] ∧ Over run failed bytes told

section Steps

variable {run run' : Dispatch α} {failed : Bool} {bytes : Bytes} {events : List (Event α)}

theorem Account.snoc {frames : List Frame} {rest left : Bytes} {frame : Frame}
    (h : Account run bytes frames rest) (read : Wire.read rest = .ok (frame, left))
    (codec : run'.codec = run.codec)
    (messages : run'.messages = run.messages + if run.codec.accepts frame then 1 else 0)
    (decodeErrors :
      run'.decodeErrors = run.decodeErrors + if run.codec.accepts frame then 0 else 1) :
    Account run' bytes (frames ++ [frame]) left := by
  obtain ⟨hreads, hmessages, herrors⟩ := h
  refine ⟨hreads.snoc read, ?_, ?_⟩
  · rw [messages, hmessages, codec]
    cases ha : run.codec.accepts frame <;> simp [List.countP_append, ha]
  · rw [decodeErrors, herrors, codec]
    cases ha : run.codec.accepts frame <;> simp [List.countP_append, ha]

theorem Account.append {frames : List Frame} {rest : Bytes} (h : Account run bytes frames rest)
    (more : Bytes) : Account run (bytes ++ more) frames (rest ++ more) :=
  ⟨h.1.append more, h.2⟩

/-- What an advance of the scan makes of the bytes since the last frame. -/
theorem Absorbs.tracks {c c' : Connection} {a : Advance} {frames : List Frame} {rest : Bytes}
    (h : Absorbs run c a c' (.goesOn (.dispatch run'))) (account : Account run bytes frames rest)
    (told : events = frames.map run.codec.event) (agrees : Wire.Agrees rest a.pull) :
    Tracks run' failed bytes events run'.stage ∧ (Call.dispatch run').event? = none := by
  cases h with
  | wants hp =>
    rw [hp] at agrees
    exact ⟨⟨frames, rest, account, agrees, told⟩, rfl⟩
  | finds hp =>
    rw [hp] at agrees
    exact ⟨⟨frames, rest, account, agrees, told⟩, rfl⟩
  | stops hp =>
    rw [hp] at agrees
    exact ⟨⟨frames, rest, account, told, _, agrees, .inl rfl⟩, rfl⟩

/-- A step in which nothing is read and nothing told. -/
theorem tracks_quiet {input : Input} (input_quiet : input.heard = [] ∧ input.readFails = false)
    (silent : (Call.dispatch run').event? = none)
    (h : Tracks run' failed bytes events run'.stage) :
    Tracks run' (failed || input.readFails) (bytes ++ input.heard)
      (events ++ (Call.dispatch run').event?.toList) run'.stage := by
  rw [input_quiet.1, input_quiet.2, silent, Bool.or_false, List.append_nil]
  exact (List.append_nil events).symm ▸ h

/-- What a frame that is told of adds to the events. -/
theorem tracks_delivers {event : Event α} (h : Tracks run failed bytes events (.entering event)) :
    Tracks { run with stage := .notifying event } failed bytes (events ++ [event])
      (.notifying event) := by
  simp only [Tracks] at h ⊢
  cases he : event.isEndOfStream with
  | true =>
    rw [he, if_pos rfl] at h
    rw [if_pos rfl]
    exact ⟨events, by rw [Event.eq_endOfStream he], h⟩
  | false =>
    rw [he, if_neg Bool.false_ne_true] at h
    rw [if_neg Bool.false_ne_true]
    obtain ⟨frames, frame, account, hevent, told⟩ := h
    exact ⟨frames ++ [frame], account, by simp [told, hevent]⟩

theorem Goes.tracks {c c' : Connection} {input : Input}
    (h : Goes run c input c' (.goesOn (.dispatch run')))
    (t : Tracks run failed bytes events run.stage)
    (steady : run.stage = .looping → run'.stage ≠ .concluding) :
    Tracks run' (failed || input.readFails) (bytes ++ input.heard)
      (events ++ (Call.dispatch run').event?.toList) run'.stage := by
  cases h with
  | leaves hs _ => exact False.elim (steady hs rfl)
  | found hs _ | missed hs _ | tooLate hs _ | begins hs _ | probes hs _ | hearsNothing hs
  | retries hs | concludes hs | closed hs | retires hs | releases hs =>
    rw [hs] at t
    exact tracks_quiet ⟨rfl, rfl⟩ rfl t
  | closes hs _ hi | abandons hs _ hi =>
    rw [hs] at t
    exact tracks_quiet (Input.heard_of_endsWait hi) rfl t
  | inactive hs hb =>
    rw [hs] at t
    obtain ⟨frames, account, told⟩ := t
    rw [hb] at account
    exact tracks_quiet ⟨rfl, rfl⟩ rfl
      ⟨frames, [], account, told, .endOfStream, rfl, .inr (.inl ⟨rfl, rfl⟩)⟩
  | seeks hs ha =>
    rw [hs] at t
    obtain ⟨frames, account, told⟩ := t
    have agrees := Wire.waiting_start.advance run.buffered
    obtain ⟨ht, hv⟩ := ha.tracks account told agrees
    exact tracks_quiet ⟨rfl, rfl⟩ hv ht
  | fails hs =>
    rw [hs] at t
    obtain ⟨frames, rest, account, waiting, told⟩ := t
    obtain ⟨error, _, _, hread⟩ := waiting.ended
    refine ⟨frames, rest, ?_, ?_, error, hread, .inr (.inr ⟨by simp [Input.readFails], _, rfl⟩)⟩
    · change Account _ (bytes ++ []) frames rest
      rw [List.append_nil]
      exact account
    · exact (List.append_nil events).trans told
  | @hears _ stderr more _ _ hs _ ha =>
    rw [hs] at t
    obtain ⟨frames, rest, account, waiting, told⟩ := t
    have hall : Tracks run' failed (bytes ++ more) events run'.stage ∧
        (Call.dispatch run').event? = none :=
      ha.tracks (account.append more) told (waiting.advance more)
    obtain ⟨ht, hv⟩ := hall
    rw [hv]
    simpa [Input.heard, Input.readFails] using ht
  | @givesUp scan _ _ hs ha =>
    rw [hs] at t
    obtain ⟨frames, rest, account, waiting, told⟩ := t
    obtain ⟨error, left, hpull, hread⟩ := waiting.ended
    have agrees : Wire.Agrees rest (scan.ended run.buffered).pull := by
      rw [hpull]
      exact hread
    obtain ⟨ht, hv⟩ := ha.tracks account told agrees
    exact tracks_quiet ⟨rfl, rfl⟩ hv ht
  | decodes hs hd =>
    rw [hs] at t
    obtain ⟨frames, rest, account, hread, told⟩ := t
    obtain ⟨hevent, haccepts⟩ := Codec.event_of_ok hd
    refine tracks_quiet ⟨rfl, rfl⟩ rfl ⟨frames, _, account.snoc hread rfl ?_ ?_, hevent.symm, told⟩
    · simp [haccepts]
    · simp [haccepts]
  | stumbles hs hd =>
    rw [hs] at t
    obtain ⟨frames, rest, account, hread, told⟩ := t
    obtain ⟨hevent, haccepts⟩ := Codec.event_of_error hd
    refine tracks_quiet ⟨rfl, rfl⟩ rfl ⟨frames, _, account.snoc hread rfl ?_ ?_, hevent.symm, told⟩
    · simp [haccepts]
    · simp [haccepts]
  | delivers hs =>
    rw [hs] at t
    rw [show Input.proceed.readFails = false from rfl, show Input.proceed.heard = [] from rfl,
      Bool.or_false, List.append_nil]
    exact tracks_delivers t
  | continues hs he =>
    rw [hs, Tracks, he, if_neg Bool.false_ne_true] at t
    exact tracks_quiet ⟨rfl, rfl⟩ rfl t
  | finishes hs he =>
    rw [hs, Tracks, he, if_pos rfl] at t
    exact tracks_quiet ⟨rfl, rfl⟩ rfl t

end Steps

end Dispatch

/-- A dispatch stops before a frame because it finds the connection done. -/
def Deed.Leaves (d : Deed α) : Prop :=
  ∃ run input run', d = ⟨.goOn (.dispatch run) input, .goesOn (.dispatch run')⟩ ∧
    run.stage = .looping ∧ run'.stage = .concluding

theorem Trail.tracks {deeds : List (Deed α)} {run : Dispatch α}
    (h : Trail deeds (.goesOn (.dispatch run))) (steady : ∀ d ∈ deeds, ¬ d.Leaves) :
    run.Tracks (readFailed deeds) (received deeds) (told deeds) run.stage := by
  revert steady
  refine Trail.of_dispatch ?_ ?_ h
  · exact fun _ _ _ => ⟨[], ⟨.none [], rfl, rfl⟩, rfl⟩
  · intro deeds old input c c' run ih hd steady
    have hnew := hd.tracks (ih fun d hmem => steady d (by simp [hmem])) fun hs hs' =>
      steady _ (by simp) ⟨old, input, run, rfl, hs, hs'⟩
    rw [told_snoc, received_snoc, readFailed_snoc]
    exact hnew

/-- Before a frame a dispatch goes on where the connection is not done. -/
theorem Dispatch.Goes.of_looping {run : Dispatch α} {c c' : Connection} {input : Input}
    {next : Next α} (h : Goes run c input c' next) (stage : run.stage = .looping)
    (open_ : c.done = false) : next = going run .probing := by
  cases h with
  | probes _ _ => rfl
  | leaves _ hd =>
    rw [open_] at hd
    cases hd
  | raises ho _ => simp [Call.isOutside, Call.request?, Call.event?, stage] at ho
  | found hs _ | missed hs _ | tooLate hs _ | begins hs _ | refused hs | inactive hs _
  | seeks hs _ | fails hs | hearsNothing hs | hears hs _ _ | retries hs | givesUp hs _
  | decodes hs _ | stumbles hs _ | concludes hs | delivers hs | continues hs _ | finishes hs _
  | closes hs _ _ | abandons hs _ _ | closed hs | retires hs | releases hs | clears hs
  | closeRaises hs =>
    rw [stage] at hs
    cases hs

namespace Ledger

/-- No dispatch finds the connection done before a frame. -/
theorem Reachable.steady {l : Ledger α} (h : Reachable l) :
    ∀ entry ∈ l.history, ¬ entry.2.Leaves := by
  induction h with
  | start pid tuning => simp
  | spawn _ ih => exact ih
  | next hr hn ih =>
    obtain ⟨name, deed, before, after, hm⟩ := moves_of_next hn
    intro entry hmem
    rw [hm.history, List.mem_append, List.mem_singleton] at hmem
    rcases hmem with hold | rfl
    · exact ih entry hold
    · rintro ⟨run, input, run', rfl, hs, hs'⟩
      have hself : Dispatches _ name run := hm.dispatches_iff.mpr (.inr ⟨rfl, input, rfl⟩)
      have hopen := (hr.single.fits name run hself).reading (by rw [hs]; rfl)
      cases hm.does with
      | goesOn hg =>
        cases hg with
        | dispatches hd =>
          have hnext := hd.of_looping hs hopen
          cases hnext
          cases hs'

def received (l : Ledger α) (name : Nat) : Bytes := WorkerLink.received (l.deeds name)

def readFailed (l : Ledger α) (name : Nat) : Bool := WorkerLink.readFailed (l.deeds name)

end Ledger

/-- A dispatch that has begun and ended, taken apart. -/
theorem Trail.over {deeds : List (Deed α)} {outcome : Outcome} {codec : Codec α} {host : Host}
    (h : Trail deeds (.ends outcome)) (opens : Opens deeds (.dispatch codec host))
    (begun : Begun deeds) (steady : ∀ d ∈ deeds, ¬ d.Leaves) :
    ∃ run : Dispatch α, run.codec = codec ∧ outcome = .dispatched run.result ∧
      ∃ events, told deeds = events ++ [.endOfStream] ∧
        run.Over (readFailed deeds) (received deeds) events := by
  obtain ⟨earlier, run, rfl, htrail, hs, hresult⟩ := h.of_ended begun
  have hserves := htrail.serves ((opens_snoc htrail.ne_nil).mp opens)
  have htracks := htrail.tracks fun d hmem => steady d (by simp [hmem])
  rw [hs] at htracks
  obtain ⟨events, htold, hover⟩ := htracks
  rw [told_snoc_of_not_runs _ Deed.not_runs_of_ends, received_snoc, readFailed_snoc]
  refine ⟨run, hserves.1, hresult, events, htold, ?_⟩
  simpa [Deed.heard, Input.heard, Deed.readFails, Input.readFails] using hover

namespace Ledger

/-- A dispatch that has begun and ended has told its receiver the events of the complete frames of
the bytes received, up to the first error, and has counted the two kinds. Unless the handle failed
to read, it stopped quietly if and only if nothing but complete frames was received. -/
theorem delivers_what_was_received {l : Ledger α} {name : Nat} {codec : Codec α} {host : Host}
    {result : Except DispatchError Summary} (reachable : l.Reachable)
    (opens : Opens (l.deeds name) (.dispatch codec host)) (begun : l.Begun name)
    (ended : l.fate name = some (.ends (.dispatched result))) :
    l.told name = (Wire.frames (l.received name)).map codec.event ++ [.endOfStream] ∧
    (∀ summary, result = .ok summary →
      summary.messages = (Wire.frames (l.received name)).countP codec.accepts ∧
      summary.decodeErrors =
        (Wire.frames (l.received name)).countP fun frame => !codec.accepts frame) ∧
    (l.readFailed name = false →
      ((∃ summary, result = .ok summary ∧ (summary.stopReason = .handleInactive ∨
          summary.stopReason = .terminated .endOfStream)) ↔
        ∃ frames, Wire.Reads (l.received name) frames [])) := by
  have htrail := reachable.sound.trail_of_fate ended
  have hsteady : ∀ d ∈ l.deeds name, ¬ d.Leaves := fun d hd =>
    reachable.steady (name, d) (mem_deeds.mp hd)
  obtain ⟨run, rfl, hresult, events, htold, frames, rest, ⟨hreads, hmessages, herrors⟩, hevents,
    error, hread, hreason⟩ := htrail.over opens begun hsteady
  cases hresult
  have hall := hreads.readAll_eq hread
  have hframes : Wire.frames (l.received name) = frames := congrArg Prod.fst hall
  rw [hframes]
  refine ⟨?_, ?_, ?_⟩
  · rw [← hevents]
    exact htold
  · intro summary hsummary
    rw [Dispatch.result_eq_ok hsummary]
    exact ⟨hmessages, herrors⟩
  · intro hfailed
    have hreason' : run.stopReason = .terminated error ∨
        run.stopReason = .handleInactive ∧ error = .endOfStream := by
      rcases hreason with h | h | ⟨h, _⟩
      · exact .inl h
      · exact .inr h
      · have hnot : WorkerLink.readFailed (l.deeds name) = false := hfailed
        rw [hnot] at h
        cases h
    constructor
    · rintro ⟨summary, hsummary, hquiet⟩
      rw [Dispatch.result_eq_ok hsummary] at hquiet
      have herror : error = .endOfStream := by
        rcases hreason' with h | ⟨_, h⟩
        · rw [h] at hquiet
          simpa using hquiet
        · exact h
      rw [herror] at hread
      rw [Wire.read_eq_endOfStream_iff.mp hread] at hreads
      exact ⟨frames, hreads⟩
    · rintro ⟨fs, hfs⟩
      have hrest : rest = [] := by
        have heq := hall.symm.trans hfs.frames_eq
        exact congrArg Prod.snd heq
      have herror : error = .endOfStream := by
        rw [hrest, Wire.read_eq_endOfStream_iff.mpr rfl] at hread
        cases hread
        rfl
      have hquiet : run.stopReason = .handleInactive ∨
          run.stopReason = .terminated .endOfStream := by
        rcases hreason' with h | ⟨h, _⟩
        · exact .inr (by rw [h, herror])
        · exact .inl h
      exact ⟨_, Dispatch.result_of_quiet hquiet, hquiet⟩

end Ledger

end WorkerLink

namespace WorkerLink.Ledger

attribute [local instance] Memory.kilobyte

/-- A frame that comes in two pieces, after which the worker exits. -/
theorem delivers_a_frame_in_two_pieces : ∃ (l : Ledger Unit) (codec : Codec Unit), l.Reachable ∧
    l.fate 0 = some (.ends (.dispatched (.ok ⟨1, 0, .handleInactive⟩))) ∧
    l.received 0 = Frame.marker ++ [49, 13, 10, 13, 10, 55] ∧
    l.told 0 = (Wire.frames (l.received 0)).map codec.event ++ [.endOfStream] ∧
    ∃ frames, Wire.Reads (l.received 0) frames [] := by
  obtain ⟨l, hl, hbegun, hopens, hfate, hreceived, hfailed⟩ : ∃ l,
      Ledger.follow { connection := .start 7 {} }
        [(0, .start (.dispatch ⟨fun _ => .ok (), fun _ => .ok []⟩ .unserialized)),
          (0, .goOn .proceed), (0, .goOn .proceed), (0, .goOn .proceed), (0, .goOn (.alive true)),
          (0, .goOn (.read [] (.ok ((Frame.marker ++ [49, 13, 10, 13, 10, 55]).take 6)))),
          (0, .goOn (.read [] (.ok ((Frame.marker ++ [49, 13, 10, 13, 10, 55]).drop 6)))),
          (0, .goOn .proceed), (0, .goOn .proceed), (0, .goOn .returned), (0, .goOn .proceed),
          (0, .goOn (.alive false)), (0, .goOn .proceed), (0, .goOn .proceed),
          (0, .goOn .returned), (0, .goOn .proceed), (0, .goOn .returned), (0, .goOn .proceed),
          (0, .goOn .proceed), (0, .goOn .proceed)] = some l ∧
      l.Begun 0 ∧
      Opens (l.deeds 0) (.dispatch ⟨fun _ => .ok (), fun _ => .ok []⟩ .unserialized) ∧
      l.fate 0 = some (.ends (.dispatched (.ok ⟨1, 0, .handleInactive⟩))) ∧
      l.received 0 = Frame.marker ++ [49, 13, 10, 13, 10, 55] ∧ l.readFailed 0 = false := by
    refine ⟨_, rfl, ?_, ⟨_, rfl⟩, rfl, rfl, rfl⟩
    exact ⟨_, .tail _ (.tail _ (.head _)), _, rfl, nofun⟩
  have hr := (Reachable.start 7 {}).follow hl
  obtain ⟨htold, _, hstop⟩ := delivers_what_was_received hr hopens hbegun hfate
  exact ⟨l, _, hr, hfate, hreceived, htold, (hstop hfailed).mp ⟨_, rfl, .inl rfl⟩⟩

end WorkerLink.Ledger
