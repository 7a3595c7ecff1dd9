import WorkerLink.Connection.Machine

/-!
# The steps of a call, one by one

What a step does to the connection and to the call, as a relation with a
constructor for each way it can go. Theorems about runs take a step apart with
`Call.goes_of_step` and do not open `Call.step` again. Log records are left out.
-/

namespace WorkerLink

variable {α : Type}

namespace Connection

theorem claim_eq_ok {c c' : Connection} :
    c.claim = .ok c' ↔ c.slot.present = true ∧ c.slot.busy = false ∧
      c' = { c with slot := { c.slot with busy := true } } := by
  unfold claim
  cases hs : c.slot.claim with
  | ok slot =>
    obtain ⟨hp, hb, rfl⟩ := Slot.claim_eq_ok.mp hs
    simp [hp, hb, eq_comm]
  | error reason =>
    simp only [reduceCtorEq, false_iff]
    rintro ⟨hp, hb, _⟩
    rw [Slot.claim_eq_ok.mpr ⟨hp, hb, rfl⟩] at hs
    cases hs

end Connection

/-- The input ends a wait for the handle, one way or the other. -/
def Input.endsWait : Input → Bool
  | .proceed | .timeUp => true
  | _ => false

namespace Dispatch

def going (run : Dispatch α) (stage : Stage α) : Next α := .goesOn (.dispatch { run with stage })

/-- What a dispatch makes of an advance of its scan. -/
inductive Absorbs (run : Dispatch α) (c : Connection) (a : Advance) :
    Connection → Next α → Prop
  | wants {scan : Scan} {buffered : Bytes} : a.pull = .more scan buffered →
      Absorbs run c a (c.diagnose a.stray) (going { run with buffered } (.receiving scan))
  | finds {frame : Frame} {buffered : Bytes} : a.pull = .done (.ok frame) buffered →
      Absorbs run c a (c.diagnose a.stray) (going { run with buffered } (.decoding frame))
  | stops {error : FrameError} {buffered : Bytes} : a.pull = .done (.error error) buffered →
      Absorbs run c a (c.diagnose a.stray).markDone
        (going { run with buffered, stopReason := .terminated error } .concluding)

/-- `Goes run c input c' next`: with this input the dispatch takes the connection from `c` to `c'`
and goes on as `next`. -/
inductive Goes [Memory] (run : Dispatch α) (c : Connection) :
    Input → Connection → Next α → Prop
  | found : run.stage = .claiming → c.slot.present = true →
      Goes run c .proceed c (going run .confirming)
  | missed : run.stage = .claiming → c.slot.present = false →
      Goes run c .proceed c (going run .refusing)
  | tooLate : run.stage = .confirming → c.done = true →
      Goes run c .proceed c (going run .refusing)
  | begins : run.stage = .confirming → c.done = false →
      Goes run c .proceed c (going run .looping)
  | refused : run.stage = .refusing →
      Goes run c .proceed { c with dispatching := false } (.ends (.dispatched (.error .closed)))
  | leaves : run.stage = .looping → c.done = true →
      Goes run c .proceed c (going { run with stopReason := .done } .concluding)
  | probes : run.stage = .looping → c.done = false →
      Goes run c .proceed c (going run .probing)
  | inactive : run.stage = .probing → run.buffered = [] →
      Goes run c (.alive false) c (going { run with stopReason := .handleInactive } .concluding)
  | seeks {answer : Bool} {c' : Connection} {next : Next α} : run.stage = .probing →
      Absorbs run c (Scan.header.advance run.buffered) c' next →
      Goes run c (.alive answer) c' next
  | fails {scan : Scan} {stderr : Bytes} {fault : Fault} : run.stage = .receiving scan →
      Goes run c (.read stderr (.error fault)) (c.diagnose stderr).markDone
        (going { run with stopReason := .terminated (.io fault) } .concluding)
  | hearsNothing {scan : Scan} {stderr : Bytes} : run.stage = .receiving scan →
      Goes run c (.read stderr (.ok [])) (c.diagnose stderr) (going run (.retrying scan))
  | hears {scan : Scan} {stderr bytes : Bytes} {c' : Connection} {next : Next α} :
      run.stage = .receiving scan → bytes ≠ [] →
      Absorbs run (c.diagnose stderr) (scan.advance (run.buffered ++ bytes)) c' next →
      Goes run c (.read stderr (.ok bytes)) c' next
  | retries {scan : Scan} : run.stage = .retrying scan →
      Goes run c (.alive true) c (going run (.receiving scan))
  | givesUp {scan : Scan} {c' : Connection} {next : Next α} : run.stage = .retrying scan →
      Absorbs run c (scan.ended run.buffered) c' next → Goes run c (.alive false) c' next
  | decodes {frame : Frame} {value : α} : run.stage = .decoding frame →
      run.codec.decode frame.payload = .ok value →
      Goes run c .proceed c
        (going { run with messages := run.messages + 1 } (.entering (.message value)))
  | stumbles {frame : Frame} {error : DecodeError} : run.stage = .decoding frame →
      run.codec.decode frame.payload = .error error →
      Goes run c .proceed c
        (going { run with decodeErrors := run.decodeErrors + 1 } (.entering (.decodeFailed error)))
  | concludes : run.stage = .concluding →
      Goes run c .proceed c.markDone (going run (.entering .endOfStream))
  | delivers {event : Event α} : run.stage = .entering event →
      Goes run c .proceed c (going run (.notifying event))
  | continues {event : Event α} : run.stage = .notifying event → event.isEndOfStream = false →
      Goes run c .returned c (going run .looping)
  | finishes {event : Event α} : run.stage = .notifying event → event.isEndOfStream = true →
      Goes run c .returned c (going run .awaitingClose)
  | closes {input : Input} {c' : Connection} : run.stage = .awaitingClose → c.claim = .ok c' →
      input.endsWait = true → Goes run c input c' (going run .closing)
  | abandons {input : Input} {reason : Unavailable} : run.stage = .awaitingClose →
      c.claim = .error reason → input.endsWait = true → Goes run c input c (going run .clearing)
  | closed : run.stage = .closing → Goes run c .returned c (going run .retiring)
  | retires : run.stage = .retiring → Goes run c .proceed c.retire (going run .releasing)
  | releases : run.stage = .releasing → Goes run c .proceed c.release (going run .clearing)
  | clears : run.stage = .clearing →
      Goes run c .proceed { c with dispatching := false } (.ends (.dispatched run.result))
  | closeRaises : run.stage = .closing → Goes run c .raised c.release .unwinds
  | raises : (Call.dispatch run).isOutside = true → run.stage ≠ .closing →
      Goes run c .raised c .unwinds

theorem absorbs_absorb (run : Dispatch α) (c : Connection) (a : Advance) :
    Absorbs run c a (run.absorb c a).connection (run.absorb c a).next := by
  unfold absorb
  cases hp : a.pull with
  | more scan buffered => exact .wants hp
  | done result buffered =>
    cases result with
    | ok frame => exact .finds hp
    | error error => exact .stops hp

theorem goes_claimClose [Memory] {run : Dispatch α} {c : Connection} {input : Input}
    (hs : run.stage = .awaitingClose) (hi : input.endsWait = true) :
    Goes run c input (run.claimClose c).connection (run.claimClose c).next := by
  unfold claimClose
  cases hc : c.claim with
  | ok c' => exact .closes hs hc hi
  | error reason => cases reason <;> exact .abandons hs hc hi

theorem goes_of_step [Memory] {run : Dispatch α} {c : Connection} {input : Input} {s : Step α}
    (h : run.step c input = some s) : Goes run c input s.connection s.next := by
  unfold step at h
  split at h
  · next hs =>
    by_cases hp : c.slot.present = true
    · rw [if_pos hp] at h
      cases h
      exact .found hs hp
    · rw [if_neg hp] at h
      cases h
      exact .missed hs (by simpa using hp)
  · next hs =>
    split at h
    · next hd => cases h; exact .tooLate hs hd
    · next hd => cases h; exact .begins hs (by simpa using hd)
  · next hs => cases h; exact .refused hs
  · next hs =>
    split at h
    · next hd => cases h; exact .leaves hs hd
    · next hd => cases h; exact .probes hs (by simpa using hd)
  · next answer hs =>
    split at h
    · next hq =>
      cases h
      simp only [Bool.and_eq_true, Bool.not_eq_true', List.isEmpty_iff] at hq
      obtain ⟨rfl, hb⟩ := hq
      exact .inactive hs hb
    · cases h; exact .seeks hs (absorbs_absorb run c _)
  · next scan stderr result hs =>
    split at h
    · cases h; exact .fails hs
    · cases h; exact .hearsNothing hs
    · next bytes hne => cases h; exact .hears hs (by simpa using hne) (absorbs_absorb run _ _)
  · next scan answer hs =>
    split at h
    · next ha => cases h; subst ha; exact .retries hs
    · next ha =>
      cases h
      simp only [Bool.not_eq_true] at ha
      subst ha
      exact .givesUp hs (absorbs_absorb run c _)
  · next frame hs =>
    cases h
    unfold decode
    cases hd : run.codec.decode frame.payload with
    | ok value => exact .decodes hs hd
    | error error => exact .stumbles hs hd
  · next hs => cases h; exact .concludes hs
  · next event hs => cases h; exact .delivers hs
  · next event hs =>
    by_cases he : event.isEndOfStream = true
    · rw [if_pos he] at h
      cases h
      exact .finishes hs he
    · rw [if_neg he] at h
      cases h
      exact .continues hs (by simpa using he)
  · next hs =>
    split at h
    · cases h
    · cases h
      exact goes_claimClose hs rfl
  · next hs => cases h; exact goes_claimClose hs rfl
  · next hs => cases h; exact .closed hs
  · next hs => cases h; exact .retires hs
  · next hs => cases h; exact .releases hs
  · next hs => cases h; exact .clears hs
  · next hs => cases h; exact .closeRaises hs
  · next hs => cases h; exact .raises (by simp [Call.isOutside, Call.request?, hs]) (by simp [hs])
  · next hs => cases h; exact .raises (by simp [Call.isOutside, Call.request?, hs]) (by simp [hs])
  · next hs => cases h; exact .raises (by simp [Call.isOutside, Call.request?, hs]) (by simp [hs])
  · next hs =>
    cases h
    exact .raises (by simp [Call.isOutside, Call.request?, Call.event?, hs]) (by simp [hs])
  · cases h

end Dispatch

namespace Call

/-- How a send ends once the handle has answered for its frame. -/
def sendResult (framed : Bytes) : Except Fault Nat → Except SendError Unit
  | .error fault => .error (.io fault)
  | .ok written =>
    if written < framed.length then .error (.shortWrite written framed.length) else .ok ()

/-- `Starts c operation c' next`: the operation starts on the connection `c`, leaves it as `c'`, and
goes on as `next`. -/
inductive Starts (c : Connection) : Operation α → Connection → Next α → Prop
  | lacksPayload {error : EncodeError} :
      Starts c (.send (.error error)) c (.ends (.sent (.error (.encode error))))
  | sends {payload : Bytes} : Starts c (.send (.ok payload)) c (.goesOn (.awaitingSend payload))
  | shutsDown : Starts c .shutdown { c with cancelSend := true } (.goesOn .awaitingCancel)
  | refuses {codec : Codec α} {host : Host} : c.dispatching = true →
      Starts c (.dispatch codec host) c (.ends (.dispatched (.error .alreadyRunning)))
  | dispatches {codec : Codec α} {host : Host} : c.dispatching = false →
      Starts c (.dispatch codec host) { c with dispatching := true }
        (.goesOn (.dispatch { codec, host }))

/-- `Goes c call input c' next`: with this input the call takes the connection from `c` to `c'` and
goes on as `next`. -/
inductive Goes [Memory] (c : Connection) : Call α → Input → Connection → Next α → Prop
  | takesHandle {payload : Bytes} {input : Input} {c' : Connection} : c.claim = .ok c' →
      input.endsWait = true → Goes c (.awaitingSend payload) input c' (.goesOn (.framing payload))
  | lacksHandle {payload : Bytes} {input : Input} {reason : Unavailable} :
      c.claim = .error reason → input.endsWait = true →
      Goes c (.awaitingSend payload) input c (.ends (.sent (.error (.unavailable reason))))
  | frames {payload : Bytes} : Memory.reserves (Frame.encode payload).length →
      Goes c (.framing payload) .proceed c (.goesOn (.sending (Frame.encode payload)))
  | lacksMemory {payload : Bytes} : ¬ Memory.reserves (Frame.encode payload).length →
      Goes c (.framing payload) .proceed c.release
        (.ends (.sent (.error (.allocation payload.length))))
  | wrote {framed : Bytes} {result : Except Fault Nat} :
      Goes c (.sending framed) (.wrote result) c.release
        (.ends (.sent (sendResult framed result)))
  | cancels {input : Input} {c' : Connection} : c.claim = .ok c' →
      input.endsWait = true → Goes c .awaitingCancel input c' (.goesOn .cancelling)
  | skipsCancel {input : Input} {reason : Unavailable} : c.claim = .error reason →
      input.endsWait = true → Goes c .awaitingCancel input c (.ends .shutDown)
  | cancelled : Goes c .cancelling .returned c.release (.ends .shutDown)
  | sendRaises {framed : Bytes} : Goes c (.sending framed) .raised c.release .unwinds
  | cancelRaises : Goes c .cancelling .raised c.release .unwinds
  | dispatches {run : Dispatch α} {input : Input} {c' : Connection} {next : Next α} :
      Dispatch.Goes run c input c' next → Goes c (.dispatch run) input c' next

theorem starts_start (c : Connection) (operation : Operation α) :
    Starts c operation (start c operation).connection (start c operation).next := by
  cases operation with
  | send payload =>
    cases payload with
    | error error => exact .lacksPayload
    | ok payload => exact .sends
  | shutdown => exact .shutsDown
  | dispatch codec host =>
    simp only [start]
    by_cases hd : c.dispatching = true
    · rw [if_pos hd]
      exact .refuses hd
    · rw [if_neg hd]
      exact .dispatches (by simpa using hd)

variable [Memory]

theorem goes_claimSend (c : Connection) (payload : Bytes) {input : Input}
    (hi : input.endsWait = true) :
    Goes (α := α) c (.awaitingSend payload) input (claimSend (α := α) c payload).connection
      (claimSend c payload).next := by
  unfold claimSend
  cases hc : c.claim with
  | ok c' => exact .takesHandle hc hi
  | error reason => exact .lacksHandle hc hi

theorem goes_frameSend (c : Connection) (payload : Bytes) :
    Goes (α := α) c (.framing payload) .proceed (frameSend (α := α) c payload).connection
      (frameSend c payload).next := by
  unfold frameSend
  by_cases hm : Memory.reserves (Frame.encode payload).length
  · rw [if_pos hm]
    exact .frames hm
  · rw [if_neg hm]
    exact .lacksMemory hm

theorem goes_settleSend (c : Connection) (framed : Bytes) (result : Except Fault Nat) :
    Goes (α := α) c (.sending framed) (.wrote result)
      (settleSend (α := α) c framed result).connection (settleSend c framed result).next := by
  have hg : Goes (α := α) c (.sending framed) (.wrote result) c.release
    (.ends (.sent (sendResult framed result))) := .wrote
  cases result with
  | error fault => exact hg
  | ok written =>
    by_cases hw : written < framed.length
    · simpa only [settleSend, sendResult, hw, if_true] using hg
    · simpa only [settleSend, sendResult, hw, if_false] using hg

theorem goes_claimCancel (c : Connection) {input : Input} (hi : input.endsWait = true) :
    Goes (α := α) c .awaitingCancel input (claimCancel (α := α) c).connection
      (claimCancel c).next := by
  unfold claimCancel
  cases hc : c.claim with
  | ok c' => exact .cancels hc hi
  | error reason => cases reason <;> exact .skipsCancel hc hi

theorem goes_of_step {c : Connection} {call : Call α} {input : Input} {s : Step α}
    (h : call.step c input = some s) : Goes c call input s.connection s.next := by
  unfold step at h
  split at h
  · split at h
    · cases h
    · cases h
      exact goes_claimSend c _ rfl
  · cases h
    exact goes_claimSend c _ rfl
  · cases h
    exact goes_frameSend c _
  · cases h
    exact goes_settleSend c _ _
  · split at h
    · cases h
    · cases h
      exact goes_claimCancel c rfl
  · cases h
    exact goes_claimCancel c rfl
  · cases h
    exact .cancelled
  · cases h
    exact .sendRaises
  · cases h
    exact .cancelRaises
  · exact .dispatches (Dispatch.goes_of_step h)
  · cases h

end Call

end WorkerLink
