import WorkerLink.Proofs.Connection.Lifecycle
import WorkerLink.Proofs.Connection.Turns

/-!
# How a run ends

Whatever stops the reading, a run comes to its end in one way: the receiver is
told the last event, the handle is closed or, if somebody else does not let go
of it in time, left alone, and only then the running flag is taken back. An
error of the reader changes nothing about that. It is only told by the result.

`Stage.Parts` says what a dispatch has done towards its end, and
`Dispatch.Explains` what its reader has reported, by the stage at which it
stands.
-/

namespace WorkerLink

variable {α : Type}

/-- What a dispatch does towards its end, as far as others notice it. -/
inductive Parting
  /-- The receiver is told the end of the stream. -/
  | tells
  /-- The handle is asked to close. -/
  | closes
  /-- The handle is given up. -/
  | retires
  /-- The handle is left where it is. -/
  | abandons
deriving DecidableEq

namespace Stage

/-- What a dispatch has done that gets from one stage to another. -/
def parting? (old : Stage α) : Stage α → Option Parting
  | .notifying event => if event.isEndOfStream then some .tells else none
  | .closing => some .closes
  | .releasing => some .retires
  | .clearing => match old with
    | .awaitingClose => some .abandons
    | _ => none
  | _ => none

/-- What a dispatch has done by the time that it gets to a stage. -/
def Parts : Stage α → List Parting → Prop
  | .notifying event, partings => partings = if event.isEndOfStream then [.tells] else []
  | .awaitingClose, partings => partings = [.tells]
  | .closing, partings | .retiring, partings => partings = [.tells, .closes]
  | .releasing, partings => partings = [.tells, .closes, .retires]
  | .clearing, partings => partings = [.tells, .closes, .retires] ∨ partings = [.tells, .abandons]
  | _, partings => partings = []

theorem parts_quiet {old new : Stage α} {partings : List Parting} (quiet : old.parting? new = none)
    (h : new.Parts partings) : new.Parts (partings ++ (old.parting? new).toList) := by
  rw [quiet, Option.toList_none, List.append_nil]
  exact h

theorem parting?_eq_some {old new : Stage α} {parting : Parting} :
    old.parting? new = some parting ↔ match parting with
      | .tells => ∃ event, new = .notifying event ∧ event.isEndOfStream = true
      | .closes => new = .closing
      | .retires => new = .releasing
      | .abandons => old = .awaitingClose ∧ new = .clearing := by
  cases new with
  | notifying event =>
    cases he : event.isEndOfStream <;> cases parting <;> simp [parting?, he]
  | clearing => cases old <;> cases parting <;> simp [parting?]
  | _ => cases parting <;> simp [parting?]

end Stage

/-- What a dispatch has done towards its end by a deed. -/
def Deed.parting? (d : Deed α) : Option Parting :=
  match d.cause, d.next with
  | .goOn (.dispatch run) _, .goesOn (.dispatch run') => run.stage.parting? run'.stage
  | _, _ => none

/-- What a call has done towards its end, in order. -/
def partings (deeds : List (Deed α)) : List Parting := deeds.filterMap Deed.parting?

theorem partings_snoc (deeds : List (Deed α)) (d : Deed α) :
    partings (deeds ++ [d]) = partings deeds ++ d.parting?.toList := by
  cases hd : d.parting? <;> simp [partings, hd]

theorem Deed.parting?_eq_some {d : Deed α} {parting : Parting} :
    d.parting? = some parting ↔ ∃ run input run', d = ⟨.goOn (.dispatch run) input,
      .goesOn (.dispatch run')⟩ ∧ run.stage.parting? run'.stage = some parting := by
  constructor
  · intro h
    obtain ⟨cause, next⟩ := d
    unfold parting? at h
    split at h
    · next run input run' hcause hnext =>
      cases hcause
      cases hnext
      exact ⟨run, input, run', rfl, h⟩
    · cases h
  · rintro ⟨run, input, run', rfl, h⟩
    exact h

namespace Dispatch

theorem Absorbs.quiet {run run' : Dispatch α} {c c' : Connection} {a : Advance}
    (h : Absorbs run c a c' (.goesOn (.dispatch run'))) (old : Stage α) :
    old.parting? run'.stage = none ∧ run'.stage.Parts [] := by
  cases h <;> exact ⟨rfl, rfl⟩

/-- One step adds to what a dispatch has done what it does. -/
theorem Goes.parts [Memory] {run run' : Dispatch α} {c c' : Connection} {input : Input}
    {partings : List Parting} (h : Goes run c input c' (.goesOn (.dispatch run')))
    (parts : run.stage.Parts partings) :
    run'.stage.Parts (partings ++ (run.stage.parting? run'.stage).toList) := by
  cases h with
  | found hs _ | missed hs _ | tooLate hs _ | begins hs _ | leaves hs _ | probes hs _
  | inactive hs _ | fails hs | hearsNothing hs | retries hs | decodes hs _ | stumbles hs _
  | concludes hs =>
    rw [hs] at parts
    exact Stage.parts_quiet rfl parts
  | seeks hs ha | givesUp hs ha =>
    rw [hs] at parts ⊢
    obtain ⟨hquiet, hparts⟩ := ha.quiet _
    cases parts
    exact Stage.parts_quiet hquiet hparts
  | hears hs _ ha =>
    rw [hs] at parts ⊢
    obtain ⟨hquiet, hparts⟩ := ha.quiet _
    cases parts
    exact Stage.parts_quiet hquiet hparts
  | @delivers event hs =>
    rw [hs] at parts
    cases parts
    cases he : event.isEndOfStream <;> simp [Stage.Parts, Stage.parting?, he]
  | continues hs he =>
    rw [hs, Stage.Parts, he] at parts
    exact Stage.parts_quiet rfl parts
  | finishes hs he =>
    rw [hs, Stage.Parts, he] at parts
    exact Stage.parts_quiet rfl parts
  | closes hs _ _ =>
    rw [hs] at parts
    cases parts
    exact rfl
  | abandons hs _ _ =>
    rw [hs] at parts ⊢
    cases parts
    exact .inr rfl
  | closed hs =>
    rw [hs] at parts
    exact Stage.parts_quiet rfl parts
  | retires hs =>
    rw [hs] at parts
    cases parts
    exact rfl
  | releases hs =>
    rw [hs] at parts ⊢
    cases parts
    exact .inl rfl

end Dispatch

theorem Trail.parts [Memory] {deeds : List (Deed α)} {run : Dispatch α}
    (h : Trail deeds (.goesOn (.dispatch run))) : run.stage.Parts (partings deeds) := by
  refine Trail.of_dispatch (fun _ _ => rfl) ?_ h
  intro deeds old input c c' run ih hd
  rw [partings_snoc]
  exact hd.parts ih

def Advance.error? (a : Advance) : Option FrameError :=
  match a.pull with
  | .done (.error error) _ => some error
  | _ => none

/-- The error that the reader of a dispatch reports when it is given an input. -/
def Dispatch.reports? [Memory] (run : Dispatch α) (input : Input) : Option FrameError :=
  match run.stage, input with
  | .probing, .alive _ => (Scan.header.advance run.buffered).error?
  | .receiving _, .read _ (.error fault) => some (.io fault)
  | .receiving _, .read _ (.ok []) => none
  | .receiving scan, .read _ (.ok bytes) => (scan.advance (run.buffered ++ bytes)).error?
  | .retrying scan, .alive false => (scan.ended run.buffered).error?
  | _, _ => none

def Deed.reports? [Memory] (d : Deed α) : Option FrameError :=
  match d.cause with
  | .goOn (.dispatch run) input => run.reports? input
  | _ => none

/-- The errors that the reader of a call has reported. -/
def reported [Memory] (deeds : List (Deed α)) : List FrameError := deeds.filterMap Deed.reports?

theorem reported_snoc [Memory] (deeds : List (Deed α)) (d : Deed α) :
    reported (deeds ++ [d]) = reported deeds ++ d.reports?.toList := by
  cases hd : d.reports? <;> simp [reported, hd]

/-- Why a dispatch has stopped whose reader has reported these errors. -/
inductive StopReason.Follows : StopReason → List FrameError → Prop
  | error (error : FrameError) : Follows (.terminated error) [error]
  | inactive : Follows .handleInactive []

namespace Dispatch

/-- The reader has reported an error by the time that reading is over, and no other, or the handle
was not alive. -/
def Explains (run : Dispatch α) (errors : List FrameError) : Prop :=
  match run.stage.phase with
  | .deciding | .reading => errors = []
  | .stopping | .ending => run.stopReason.Follows errors

section Steps

variable {run run' : Dispatch α} {c c' : Connection} {input : Input} {errors : List FrameError}

theorem explains_quiet [Memory] (quiet : run.reports? input = none) (h : run'.Explains errors) :
    run'.Explains (errors ++ (run.reports? input).toList) := by
  rw [quiet, Option.toList_none, List.append_nil]
  exact h

theorem Absorbs.explains {a : Advance} (h : Absorbs run c a c' (.goesOn (.dispatch run'))) :
    run'.Explains a.error?.toList := by
  cases h with
  | wants hp | finds hp =>
    simp only [Advance.error?, hp]
    exact rfl
  | stops hp =>
    simp only [Advance.error?, hp]
    exact .error _

theorem reports?_of_endsWait [Memory] (h : input.endsWait = true) : run.reports? input = none := by
  cases input with
  | proceed | timeUp => cases hs : run.stage <;> simp [reports?, hs]
  | _ => cases h

/-- One step reports an error where it ends the reading, and none elsewhere. -/
theorem Goes.explains [Memory] (h : Goes run c input c' (.goesOn (.dispatch run')))
    (steady : run.stage = .looping → run'.stage ≠ .concluding) (explains : run.Explains errors) :
    run'.Explains (errors ++ (run.reports? input).toList) := by
  cases h with
  | leaves hs _ => exact False.elim (steady hs rfl)
  | found hs _ | missed hs _ | tooLate hs _ | begins hs _ | probes hs _ | hearsNothing hs
  | retries hs | decodes hs _ | stumbles hs _ | concludes hs | delivers hs | closed hs | retires hs
  | releases hs =>
    rw [Explains, hs] at explains
    exact explains_quiet (by simp [reports?, hs]) explains
  | continues hs he | finishes hs he =>
    rw [Explains, hs, Stage.phase, he] at explains
    exact explains_quiet (by simp [reports?, hs]) explains
  | closes hs _ hi | abandons hs _ hi =>
    rw [Explains, hs] at explains
    exact explains_quiet (reports?_of_endsWait hi) explains
  | inactive hs hb =>
    rw [Explains, hs] at explains
    cases explains
    have hquiet : run.reports? (.alive false) = none := by
      simp only [reports?, hs, hb]
      rfl
    exact explains_quiet hquiet .inactive
  | seeks hs ha =>
    rw [Explains, hs] at explains
    cases explains
    simpa only [reports?, hs, List.nil_append] using ha.explains
  | fails hs =>
    rw [Explains, hs] at explains
    cases explains
    simp only [reports?, hs]
    exact .error _
  | @hears _ _ bytes _ _ hs hne ha =>
    rw [Explains, hs] at explains
    cases explains
    cases bytes with
    | nil => exact False.elim (hne rfl)
    | cons b bytes => simpa only [reports?, hs, List.nil_append] using ha.explains
  | givesUp hs ha =>
    rw [Explains, hs] at explains
    cases explains
    simpa only [reports?, hs, List.nil_append] using ha.explains

end Steps

end Dispatch

theorem Trail.explains [Memory] {deeds : List (Deed α)} {run : Dispatch α}
    (h : Trail deeds (.goesOn (.dispatch run))) (steady : ∀ d ∈ deeds, ¬ d.Leaves) :
    run.Explains (reported deeds) := by
  revert steady
  refine Trail.of_dispatch (fun _ _ _ => rfl) ?_ h
  intro deeds old input c c' run ih hd steady
  rw [reported_snoc]
  exact hd.explains (fun hs hs' => steady _ (by simp) ⟨old, input, run, rfl, hs, hs'⟩)
    (ih fun d hmem => steady d (by simp [hmem]))

/-- Only a body for which there is no memory makes a result an error. -/
theorem Dispatch.result_of_follows {run : Dispatch α} {errors : List FrameError}
    (h : run.stopReason.Follows errors) :
    (∀ n, run.result = .error (.outOfMemory n) ↔ .allocation n ∈ errors) ∧
      ((∀ n, .allocation n ∉ errors) →
        run.result = .ok ⟨run.messages, run.decodeErrors, run.stopReason⟩) := by
  unfold result
  generalize run.stopReason = reason at h
  cases h with
  | inactive => simp
  | error error => cases error <;> simp [eq_comm]

def Event.isMessage : Event α → Bool
  | .message _ => true
  | _ => false

/-- The event is a frame that could not be decoded. -/
def Event.isFailure : Event α → Bool
  | .decodeFailed _ => true
  | _ => false

theorem Codec.kind_of_event (codec : Codec α) (frame : Frame) :
    (codec.event frame).isMessage = codec.accepts frame ∧
      (codec.event frame).isFailure = !codec.accepts frame := by
  cases hd : codec.decode frame.payload with
  | ok value =>
    obtain ⟨hevent, haccepts⟩ := event_of_ok hd
    simp [hevent, haccepts, Event.isMessage, Event.isFailure]
  | error error =>
    obtain ⟨hevent, haccepts⟩ := event_of_error hd
    simp [hevent, haccepts, Event.isMessage, Event.isFailure]

/-- Who has given up the handle has begun. -/
theorem Deed.runs_of_retires {d : Deed α} (h : d.parting? = some .retires) : d.Runs := by
  obtain ⟨run, input, run', rfl, hs⟩ := Deed.parting?_eq_some.mp h
  have hreleasing : run'.stage = .releasing := Stage.parting?_eq_some.mp hs
  refine ⟨run', rfl, ?_⟩
  rw [hreleasing]
  exact nofun

theorem mem_partings {deeds : List (Deed α)} {parting : Parting} :
    parting ∈ partings deeds ↔ ∃ d ∈ deeds, d.parting? = some parting := List.mem_filterMap

variable [Memory]

/-- A dispatch whose reading is over has counted what its receiver has been told. -/
theorem Dispatch.Over.counts {run : Dispatch α} {failed : Bool} {bytes : Bytes}
    {events : List (Event α)} (h : run.Over failed bytes events) :
    run.messages = (events ++ [Event.endOfStream]).countP Event.isMessage ∧
      run.decodeErrors = (events ++ [Event.endOfStream]).countP Event.isFailure := by
  obtain ⟨frames, rest, ⟨_, hmessages, herrors⟩, rfl, _⟩ := h
  constructor
  · have hkinds : (frames.map run.codec.event).countP Event.isMessage =
        frames.countP run.codec.accepts := by
      rw [List.countP_map]
      exact List.countP_congr fun frame _ => by
        rw [Function.comp, (run.codec.kind_of_event frame).1]
    rw [hmessages, List.countP_append, hkinds]
    rfl
  · have hkinds : (frames.map run.codec.event).countP Event.isFailure =
        frames.countP fun frame => !run.codec.accepts frame := by
      rw [List.countP_map]
      exact List.countP_congr fun frame _ => by
        rw [Function.comp, (run.codec.kind_of_event frame).2]
    rw [herrors, List.countP_append, hkinds]
    rfl

/-- Every deed of a call has been done to some connection. -/
theorem Trail.does {deeds : List (Deed α)} {next : Next α} (h : Trail deeds next) {d : Deed α}
    (hd : d ∈ deeds) : ∃ c c', d.Does c c' := by
  induction h with
  | start hs =>
    rw [List.mem_singleton.mp hd]
    exact ⟨_, _, .starts hs⟩
  | goOn _ hg ih =>
    rcases List.mem_append.mp hd with hold | hnew
    · exact ih hold
    · rw [List.mem_singleton.mp hnew]
      exact ⟨_, _, .goesOn hg⟩

section Does

variable {c c' : Connection} {d : Deed α}

theorem Deed.Does.closes_iff (h : d.Does c c') : d.closes = true ↔ d.parting? = some .closes := by
  rw [Deed.closes_iff, Deed.parting?_eq_some]
  simp only [Stage.parting?_eq_some]
  constructor
  · rintro ⟨run', hnext, hs⟩
    obtain ⟨cause, next⟩ := d
    cases hnext
    cases h with
    | starts hstarts =>
      cases hstarts
      cases hs
    | goesOn hg =>
      cases hg with
      | dispatches _ => exact ⟨_, _, run', rfl, hs⟩
  · rintro ⟨_, _, run', rfl, hs⟩
    exact ⟨run', rfl, hs⟩

/-- A dispatch that has given up the handle has taken it out of its place. -/
theorem Dispatch.Goes.of_releasing {run run' : Dispatch α} {input : Input}
    (h : Goes run c input c' (.goesOn (.dispatch run'))) (stage : run'.stage = .releasing) :
    c' = c.retire := by
  cases h with
  | retires _ => rfl
  | seeks _ ha | givesUp _ ha => cases ha <;> cases stage
  | hears _ _ ha => cases ha <;> cases stage
  | _ => cases stage

theorem Deed.Does.isClosed_iff (h : d.Does c c') :
    c'.isClosed = true ↔ c.isClosed = true ∨ d.parting? = some .retires := by
  constructor
  · intro hclosed
    rcases h.present with hsame | ⟨run, input, rfl, _⟩
    · left
      rwa [Connection.isClosed, hsame] at hclosed
    · exact .inr rfl
  · rintro (hclosed | hretires)
    · exact h.follows.closed hclosed
    · obtain ⟨run, input, run', rfl, hs⟩ := Deed.parting?_eq_some.mp hretires
      cases h with
      | goesOn hg =>
        cases hg with
        | dispatches hd =>
          rw [hd.of_releasing (Stage.parting?_eq_some.mp hs)]
          rfl

end Does

theorem Trail.countP_closes {deeds : List (Deed α)} {next : Next α} (h : Trail deeds next) :
    deeds.countP Deed.closes = (partings deeds).count .closes := by
  rw [partings, List.count, List.countP_filterMap]
  refine List.countP_congr fun d hd => ?_
  obtain ⟨c, c', hdoes⟩ := h.does hd
  rw [hdoes.closes_iff]
  cases d.parting? <;> simp

namespace Ledger

/-- The step behind a deed that goes on with a call. -/
theorem Moves.step {l l' : Ledger α} {thread name : Nat} {move : Move α} {call : Call α}
    {input : Input} {next : Next α} {before after : List (Named α)}
    (m : Moves l l' name ⟨.goOn call input, next⟩ before after)
    (h : l.next thread move = some l') :
    ∃ s, call.step l.connection input = some s ∧ next = s.next := by
  have hhistory := m.history
  cases move with
  | start operation =>
    obtain ⟨_, rfl⟩ := next_start_eq_some_iff.mp h
    cases List.append_cancel_left hhistory
  | goOn input' =>
    obtain ⟨_, _, _, s, _, _, hstep, _, rfl⟩ := next_goOn_eq_some_iff.mp h
    cases List.append_cancel_left hhistory
    exact ⟨s, hstep, rfl⟩

/-- The handle is closed if and only if somebody has given it up. -/
theorem Reachable.isClosed_iff {l : Ledger α} (h : l.Reachable) : l.connection.isClosed = true ↔
    ∃ entry ∈ l.history, entry.2.parting? = some .retires := by
  induction h with
  | start pid tuning => simp [Connection.isClosed, Connection.start]
  | spawn _ ih => exact ih
  | next _ hn ih =>
    obtain ⟨_, _, _, _, hm⟩ := moves_of_next hn
    rw [hm.does.isClosed_iff, ih, hm.history]
    simp [or_and_right, exists_or]

/-- A dispatch that leaves the handle alone has waited for it until its time was up. -/
theorem Reachable.abandons_late {l : Ledger α} (h : l.Reachable) : ∀ entry ∈ l.history,
    entry.2.parting? = some .abandons → ∃ run next, entry.2 = ⟨.goOn (.dispatch run) .timeUp, next⟩ ∧
      run.stage = .awaitingClose := by
  induction h with
  | start pid tuning => simp
  | spawn _ ih => exact ih
  | @next l l' thread move hr hn ih =>
    obtain ⟨name, deed, before, after, hm⟩ := moves_of_next hn
    intro entry hmem habandons
    rw [hm.history, List.mem_append, List.mem_singleton] at hmem
    rcases hmem with hold | rfl
    · exact ih entry hold habandons
    obtain ⟨run, input, run', rfl, hstages⟩ := Deed.parting?_eq_some.mp habandons
    obtain ⟨hs, hs'⟩ := Stage.parting?_eq_some.mp hstages
    obtain ⟨s, hstep, hnext⟩ := hm.step hn
    have hpresent : l.connection.slot.present = true := by
      by_contra hgone
      have hspent := (hr.retired (by simpa using hgone)).spent _ hm.self_mem
      simp [Call.Spent, hs, Stage.phase] at hspent
    have hwaits : ((Call.dispatch run).wait? l.connection.tuning).isSome = true := by
      simp [Call.wait?, hs]
    have hmay : ((Call.dispatch run).step l.connection input).isSome =
        input.mayEndWait l.connection.slot := Call.step_isSome_of_wait hwaits
    rw [hstep] at hmay
    have hbusy : l.connection.slot.busy = true := by
      by_contra hfree
      obtain ⟨_, _, hadmitted⟩ := Call.step_of_wait hwaits hstep
      cases hadmitted.mpr ⟨hpresent, by simpa using hfree⟩ with
      | close _ =>
        cases hnext
        cases hs'
    cases input with
    | timeUp => exact ⟨run, _, rfl, hs⟩
    | proceed => simp [Input.mayEndWait, Slot.mustWait, hpresent, hbusy] at hmay
    | _ => cases hmay

/-- What a call has done towards its end, in order. -/
def partings (l : Ledger α) (name : Nat) : List Parting := WorkerLink.partings (l.deeds name)

/-- The errors that the reader of a call has reported. -/
def reported (l : Ledger α) (name : Nat) : List FrameError := WorkerLink.reported (l.deeds name)

/-- The move with which a run returns. -/
theorem Reachable.returns {l l' : Ledger α} {thread name : Nat} {move : Move α} {call : Call α}
    {result : Except DispatchError Summary} (h : l.Reachable) (next : l.next thread move = some l')
    (running : l.fate name = some (.goesOn call))
    (returned : l'.fate name = some (.ends (.dispatched result))) (begun : l'.Begun name) :
    ∃ (run : Dispatch α) (before after : List (Named α)),
      Moves l l' name ⟨.goOn (.dispatch run) .proceed, .ends (.dispatched result)⟩ before after ∧
      run.stage = .clearing ∧ result = run.result ∧
      l'.connection = { l.connection with dispatching := false } := by
  obtain ⟨mover, deed, before, after, hm⟩ := moves_of_next next
  have hmover : mover = name := by
    by_contra hne
    rw [hm.fate_other (Ne.symm hne), running] at returned
    cases returned
  subst hmover
  rw [hm.fate_self] at returned
  obtain ⟨cause, deedNext⟩ := deed
  obtain rfl : deedNext = .ends (.dispatched result) := Option.some.inj returned
  have hdoes := hm.does
  generalize l'.connection = c' at hdoes ⊢
  cases hdoes with
  | starts _ =>
    rw [hm.fresh _ rfl, fate, h.sound.deeds_fresh] at running
    cases running
  | goesOn hg =>
    cases hg with
    | @dispatches run _ _ _ hd =>
      obtain ⟨rfl, rfl, ⟨hs, _⟩ | ⟨hs, hresult⟩⟩ := hd.ends
      · have hstands := (h.sound.trail _ hm.self_mem).stands.1
        rcases hm.begun_iff.mp begun with hbegun | ⟨_, hruns⟩
        · exact False.elim (hstands.mp hbegun (by rw [hs]; rfl))
        · exact False.elim (Deed.not_runs_of_ends hruns)
      · exact ⟨run, before, after, hm, hs, Outcome.dispatched.inj hresult, rfl⟩

/-- What becomes of the handle at the end of a run. -/
inductive Settled (l : Ledger α) (name : Nat) : Prop
  /-- It is closed. -/
  | closed : l.partings name = [.tells, .closes, .retires] → l.closeCalls = 1 →
      l.connection.isClosed = true → Settled l name
  /-- The wait for it has run out, and it is left where it is. -/
  | abandoned {run : Dispatch α} {next : Next α} : l.partings name = [.tells, .abandons] →
      ⟨.goOn (.dispatch run) .timeUp, next⟩ ∈ l.deeds name → run.stage = .awaitingClose →
      l.closeCalls = 0 → l.connection.isClosed = false → Settled l name

/-- Where a run has done all that it does towards its end, the handle is closed or left. -/
theorem Reachable.settled {l : Ledger α} {name : Nat} (h : l.Reachable) (begun : l.Begun name)
    (parts : (Stage.clearing : Stage α).Parts (l.partings name)) : l.Settled name := by
  have only : ∀ n, l.Begun n → n = name := fun n hn => h.single.begun n name hn begun
  have hcalls : l.closeCalls = (l.partings name).count .closes := by
    obtain ⟨d, hd, _⟩ := begun
    obtain ⟨_, htrail, _⟩ := h.sound.underWay name (List.ne_nil_of_mem hd)
    rw [closeCalls_eq only, htrail.countP_closes, partings]
  have hclosed : l.connection.isClosed = true ↔ Parting.retires ∈ l.partings name := by
    rw [h.isClosed_iff, partings, mem_partings]
    constructor
    · rintro ⟨⟨n, d⟩, hmem, hretires⟩
      obtain rfl := only n ⟨d, mem_deeds.mpr hmem, Deed.runs_of_retires hretires⟩
      exact ⟨d, mem_deeds.mpr hmem, hretires⟩
    · rintro ⟨d, hd, hretires⟩
      exact ⟨(name, d), mem_deeds.mp hd, hretires⟩
  rcases parts with hparts | hparts
  · refine .closed hparts ?_ ?_
    · rw [hcalls, hparts]
      rfl
    · rw [hclosed, hparts]
      decide
  · have habandons : Parting.abandons ∈ WorkerLink.partings (l.deeds name) := by
      have hall : WorkerLink.partings (l.deeds name) = [.tells, .abandons] := hparts
      rw [hall]
      decide
    obtain ⟨d, hd, hd'⟩ := mem_partings.mp habandons
    obtain ⟨run, next, rfl, hs⟩ := h.abandons_late _ (mem_deeds.mp hd) hd'
    refine .abandoned hparts hd hs ?_ ?_
    · rw [hcalls, hparts]
      rfl
    · rw [Bool.eq_false_iff, ne_eq, hclosed, hparts]
      decide

/-- A run that has begun and returns leaves a connection that is done and not dispatching. It has
told the last event once, as the last; after that it has closed the handle, or waited in vain for it.
The result tells a lack of memory if and only if the reader reported one, and otherwise what the
receiver was told and what the reader reported. -/
theorem cleans_up {l l' : Ledger α} {thread name : Nat} {move : Move α} {call : Call α}
    {result : Except DispatchError Summary} (reachable : l.Reachable)
    (next : l.next thread move = some l') (running : l.fate name = some (.goesOn call))
    (returned : l'.fate name = some (.ends (.dispatched result))) (begun : l'.Begun name) :
    (l'.connection.done = true ∧ l'.connection.dispatching = false) ∧
    (∃ events, (∀ event ∈ events, event.isEndOfStream = false) ∧
      l'.told name = events ++ [.endOfStream]) ∧
    l'.Settled name ∧
    (∀ n, result = .error (.outOfMemory n) ↔ .allocation n ∈ l'.reported name) ∧
    ((∀ n, .allocation n ∉ l'.reported name) → ∃ reason : StopReason,
      reason.Follows (l'.reported name) ∧
      result = .ok ⟨(l'.told name).countP Event.isMessage, (l'.told name).countP Event.isFailure,
        reason⟩) := by
  obtain ⟨run, before, after, hm, hs, rfl, hconnection⟩ :=
    reachable.returns next running returned begun
  have hreachable := reachable.next next
  have htrail := reachable.sound.trail _ hm.self_mem
  have hsteady : ∀ d ∈ l.deeds name, ¬ d.Leaves := fun d hd =>
    reachable.steady (name, d) (mem_deeds.mp hd)
  have hdone := (reachable.single.fits name run hm.self_mem).ending (by rw [hs]; rfl)
  have hpartings : l'.partings name = l.partings name := by
    simp only [partings, hm.deeds_self, partings_snoc]
    exact List.append_nil _
  have hreported : l'.reported name = l.reported name := by
    have hnone : Deed.reports? ⟨.goOn (.dispatch run) .proceed, .ends (.dispatched run.result)⟩ =
        none := Dispatch.reports?_of_endsWait rfl
    simp only [reported, hm.deeds_self, reported_snoc, hnone]
    exact List.append_nil _
  have htold : l'.told name = l.told name := by
    simp only [told, hm.deeds_self]
    exact told_snoc_of_not_runs _ Deed.not_runs_of_ends
  have hparts := htrail.parts
  have hexplains := htrail.explains hsteady
  have htracks := htrail.tracks hsteady
  rw [hs] at hparts htracks
  rw [Dispatch.Explains, hs] at hexplains
  obtain ⟨events, hevents, hover⟩ := htracks
  obtain ⟨hmessages, herrors⟩ := hover.counts
  obtain ⟨houtOfMemory, hok⟩ := Dispatch.result_of_follows hexplains
  have htoldAll : l'.told name = events ++ [.endOfStream] := htold.trans hevents
  refine ⟨⟨?_, ?_⟩, ?_, ?_, ?_, ?_⟩
  · rw [hconnection]
    exact hdone
  · rw [hconnection]
  · exact (hreachable.sound.trail_of_fate returned).finished begun
  · refine hreachable.settled begun ?_
    rw [hpartings]
    exact hparts
  · rw [hreported]
    exact houtOfMemory
  · intro hmemory
    rw [hreported] at hmemory ⊢
    refine ⟨run.stopReason, hexplains, ?_⟩
    rw [hok hmemory, htoldAll, ← hmessages, ← herrors]

end Ledger

end WorkerLink

namespace WorkerLink.Ledger

attribute [local instance] Memory.kilobyte

/-- The worker announces a body for which there is no memory. A shutdown is at the handle when the
run waits for it, and does not let go of it in time. -/
theorem cleans_up_without_memory : ∃ (l l' : Ledger Unit) (call : Call Unit), l.Reachable ∧
    l.next 0 (.goOn .proceed) = some l' ∧ l.fate 0 = some (.goesOn call) ∧
    l'.fate 0 = some (.ends (.dispatched (.error (.outOfMemory 2000)))) ∧
    l'.Begun 0 ∧ (l'.connection.done = true ∧ l'.connection.dispatching = false) ∧
    l'.partings 0 = [.tells, .abandons] ∧ l'.Settled 0 ∧
    .allocation 2000 ∈ l'.reported 0 := by
  obtain ⟨l, hl, l', hl', call, hrunning, hreturned, hbegun, hpartings⟩ : ∃ l,
      Ledger.follow (Ledger.spawn { connection := .start 7 {} })
        [(0, .start (.dispatch ⟨fun _ => .ok (), fun _ => .ok []⟩ .unserialized)),
          (0, .goOn .proceed), (0, .goOn .proceed), (0, .goOn .proceed), (0, .goOn (.alive true)),
          (0, .goOn (.read [] (.ok (Frame.marker ++ [50, 48, 48, 48] ++ Frame.terminator)))),
          (0, .goOn .proceed), (0, .goOn .proceed), (1, .start .shutdown), (1, .goOn .proceed),
          (0, .goOn .returned), (0, .goOn .timeUp)] = some l ∧
      ∃ l', l.next 0 (.goOn .proceed) = some l' ∧
      ∃ call, l.fate 0 = some (.goesOn call) ∧
        l'.fate 0 = some (.ends (.dispatched (.error (.outOfMemory 2000)))) ∧
        l'.Begun 0 ∧ l'.partings 0 = [.tells, .abandons] := by
    refine ⟨_, rfl, _, rfl, _, rfl, rfl, ?_, rfl⟩
    exact ⟨_, .tail _ (.tail _ (.tail _ (.head _))), _, rfl, nofun⟩
  have hr := (Reachable.start 7 {}).spawn.follow hl
  obtain ⟨hflags, _, hsettled, hmemory, _⟩ := cleans_up hr hl' hrunning hreturned hbegun
  exact ⟨l, l', call, hr, hl', hrunning, hreturned, hbegun, hflags, hpartings, hsettled,
    (hmemory _).mp rfl⟩

end WorkerLink.Ledger
