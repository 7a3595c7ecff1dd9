import WorkerLink.Proofs.Connection.Ledger

/-!
# What one call does and tells

The phases of a dispatch follow one another and none comes back. A dispatch that
has left the first one has begun: only then does it read and tell its receiver
anything. What it tells is any number of events that are not the last one, and
then, if it comes that far, the last one (`Trail.delivered`). All this holds of
the deeds of one call, whatever else happens to the connection.
-/

namespace WorkerLink

variable {α : Type}

inductive Phase
  /-- It may still be refused. -/
  | deciding
  /-- It reads frames and delivers them. -/
  | reading
  /-- Reading is over. -/
  | stopping
  /-- The connection is done: what is left is the last event and the handle. -/
  | ending
deriving DecidableEq

namespace Stage

def phase : Stage α → Phase
  | .claiming | .confirming | .refusing => .deciding
  | .looping | .probing | .receiving _ | .retrying _ | .decoding _ => .reading
  | .entering event | .notifying event => if event.isEndOfStream then .ending else .reading
  | .concluding => .stopping
  | .awaitingClose | .closing | .retiring | .releasing | .clearing => .ending

theorem phase_eq_deciding {stage : Stage α} :
    stage.phase = .deciding ↔ stage = .claiming ∨ stage = .confirming ∨ stage = .refusing := by
  cases stage with
  | entering event => cases he : event.isEndOfStream <;> simp [phase, he]
  | notifying event => cases he : event.isEndOfStream <;> simp [phase, he]
  | _ => simp [phase]

def hasToldLast : Stage α → Bool
  | .notifying event => event.isEndOfStream
  | .awaitingClose | .closing | .retiring | .releasing | .clearing => true
  | _ => false

end Stage

def Call.Serves : Call α → Operation α → Prop
  | .awaitingSend payload, .send given | .framing payload, .send given => given = .ok payload
  | .sending framed, .send given => ∃ payload, given = .ok payload ∧ framed = Frame.encode payload
  | .awaitingCancel, .shutdown | .cancelling, .shutdown => True
  | .dispatch run, .dispatch codec host => run.codec = codec ∧ run.host = host
  | _, _ => False

namespace Deed

/-- The event that the receiver is told at the end of a deed. -/
def delivery? (d : Deed α) : Option (Event α) :=
  match d.next with
  | .goesOn call => call.event?
  | .ends _ | .unwinds => none

def Runs (d : Deed α) : Prop :=
  ∃ run, d.next = .goesOn (.dispatch run) ∧ run.stage.phase ≠ .deciding

theorem runs_of_delivery {d : Deed α} {event : Event α} (h : d.delivery? = some event) :
    d.Runs := by
  unfold delivery? at h
  split at h
  · next call hnext =>
    cases call with
    | dispatch run =>
      refine ⟨run, hnext, ?_⟩
      unfold Call.event? at h
      simp only at h
      split at h
      · next hs =>
        rw [hs, Stage.phase]
        split <;> simp
      · cases h
    | awaitingSend _ => cases h
    | framing _ => cases h
    | sending _ => cases h
    | awaitingCancel => cases h
    | cancelling => cases h
  · cases h
  · cases h

end Deed

def told (deeds : List (Deed α)) : List (Event α) := deeds.filterMap Deed.delivery?

def Begun (deeds : List (Deed α)) : Prop := ∃ d ∈ deeds, d.Runs

theorem told_snoc (deeds : List (Deed α)) (d : Deed α) :
    told (deeds ++ [d]) = told deeds ++ d.delivery?.toList := by
  cases hd : d.delivery? <;> simp [told, hd]

theorem begun_snoc {deeds : List (Deed α)} {d : Deed α} :
    Begun (deeds ++ [d]) ↔ Begun deeds ∨ d.Runs := by
  simp only [Begun, List.mem_append, List.mem_singleton]
  constructor
  · rintro ⟨e, he | rfl, hr⟩
    · exact .inl ⟨e, he, hr⟩
    · exact .inr hr
  · rintro (⟨e, he, hr⟩ | hr)
    · exact ⟨e, .inl he, hr⟩
    · exact ⟨d, .inr rfl, hr⟩

/-- A call that has not begun has told nothing. -/
theorem told_of_not_begun {deeds : List (Deed α)} (h : ¬ Begun deeds) : told deeds = [] := by
  refine List.filterMap_eq_nil_iff.mpr fun d hd => ?_
  cases hv : d.delivery? with
  | none => rfl
  | some event => exact False.elim (h ⟨d, hd, Deed.runs_of_delivery hv⟩)

namespace Dispatch

/-- One step of a dispatch that goes on, by its phase and by what becomes of the flag `done`. -/
inductive Passes (c c' : Connection) : Phase → Phase → Prop
  | stays (phase : Phase) : c'.done = c.done → Passes c c' phase phase
  | begins : c.done = false → c'.done = false → Passes c c' .deciding .reading
  | stops : c'.done = c.done ∨ c'.done = true → Passes c c' .reading .stopping
  | concludes : c'.done = true → Passes c c' .stopping .ending

theorem Passes.eq_deciding {c c' : Connection} {phase phase' : Phase}
    (h : Passes c c' phase phase') (new : phase' = .deciding) : phase = .deciding := by
  subst new
  cases h
  rfl

/-- One step of a dispatch that goes on, by what the receiver is told. -/
def Tells (stage stage' : Stage α) : Prop :=
  (∃ event, stage = .entering event ∧ stage' = .notifying event) ∨
    (∀ event, stage' ≠ .notifying event) ∧ stage'.hasToldLast = stage.hasToldLast

/-- One step of a dispatch that goes on: it stays itself, is in its phase or the next, and tells an
event if one is due. -/
structure Advances (c c' : Connection) (run run' : Dispatch α) : Prop where
  codec : run'.codec = run.codec
  host : run'.host = run.host
  dispatching : c'.dispatching = c.dispatching
  cancelSend : c'.cancelSend = c.cancelSend
  passes : Passes c c' run.stage.phase run'.stage.phase
  tells : Tells run.stage run'.stage

theorem Absorbs.advances {run : Dispatch α} {c c₁ c' : Connection} {a : Advance} {call : Call α}
    (h : Absorbs run c₁ a c' (.goesOn call)) (reading : run.stage.phase = .reading)
    (silent : run.stage.hasToldLast = false) (dispatching : c₁.dispatching = c.dispatching)
    (cancelSend : c₁.cancelSend = c.cancelSend) (done : c₁.done = c.done) :
    ∃ run', call = .dispatch run' ∧ Advances c c' run run' := by
  cases h with
  | wants _ =>
    refine ⟨_, rfl, rfl, rfl, dispatching, cancelSend, ?_, .inr ⟨nofun, silent.symm⟩⟩
    rw [reading]
    exact .stays _ done
  | finds _ =>
    refine ⟨_, rfl, rfl, rfl, dispatching, cancelSend, ?_, .inr ⟨nofun, silent.symm⟩⟩
    rw [reading]
    exact .stays _ done
  | stops _ =>
    refine ⟨_, rfl, rfl, rfl, dispatching, cancelSend, ?_, .inr ⟨nofun, silent.symm⟩⟩
    rw [reading]
    exact .stops (.inr rfl)

/-- A step to another stage, in which nothing is told. -/
theorem advances_going {run run' : Dispatch α} {c c' : Connection} {old new : Stage α}
    (stage : run.stage = old) (passes : Passes c c' old.phase new.phase)
    (silent : ∀ event, new ≠ .notifying event) (last : new.hasToldLast = old.hasToldLast)
    (codec : run'.codec = run.codec := by rfl) (host : run'.host = run.host := by rfl)
    (dispatching : c'.dispatching = c.dispatching := by rfl)
    (cancelSend : c'.cancelSend = c.cancelSend := by rfl) : ∃ r,
      Call.dispatch { run' with stage := new } = .dispatch r ∧ Advances c c' run r := by
  subst stage
  exact ⟨_, rfl, codec, host, dispatching, cancelSend, passes, .inr ⟨silent, last⟩⟩

/-- A dispatch waits for no collaborator before it begins. -/
theorem inside_of_deciding {run : Dispatch α} (h : run.stage.phase = .deciding) :
    (Call.dispatch run).isOutside = false := by
  rcases Stage.phase_eq_deciding.mp h with hs | hs | hs <;>
    simp [Call.isOutside, Call.request?, Call.event?, hs]

variable [Memory]

theorem Goes.advances {run : Dispatch α} {c c' : Connection} {input : Input} {call : Call α}
    (h : Goes run c input c' (.goesOn call)) :
    ∃ run', call = .dispatch run' ∧ Advances c c' run run' := by
  cases h with
  | found hs _ => exact advances_going hs (.stays _ rfl) nofun rfl
  | missed hs _ => exact advances_going hs (.stays _ rfl) nofun rfl
  | tooLate hs _ => exact advances_going hs (.stays _ rfl) nofun rfl
  | begins hs hd => exact advances_going hs (.begins hd hd) nofun rfl
  | leaves hs _ => exact advances_going hs (.stops (.inl rfl)) nofun rfl
  | probes hs _ => exact advances_going hs (.stays _ rfl) nofun rfl
  | inactive hs _ => exact advances_going hs (.stops (.inl rfl)) nofun rfl
  | seeks hs ha => exact ha.advances (by rw [hs]; rfl) (by rw [hs]; rfl) rfl rfl rfl
  | fails hs => exact advances_going hs (.stops (.inr rfl)) nofun rfl
  | hearsNothing hs => exact advances_going hs (.stays _ rfl) nofun rfl
  | hears hs _ ha => exact ha.advances (by rw [hs]; rfl) (by rw [hs]; rfl) rfl rfl rfl
  | retries hs => exact advances_going hs (.stays _ rfl) nofun rfl
  | givesUp hs ha => exact ha.advances (by rw [hs]; rfl) (by rw [hs]; rfl) rfl rfl rfl
  | decodes hs _ => exact advances_going hs (.stays _ rfl) nofun rfl
  | stumbles hs _ => exact advances_going hs (.stays _ rfl) nofun rfl
  | concludes hs => exact advances_going hs (.concludes rfl) nofun rfl
  | delivers hs =>
    exact ⟨_, rfl, rfl, rfl, rfl, rfl, by rw [hs]; exact .stays _ rfl, .inl ⟨_, hs, rfl⟩⟩
  | continues hs he =>
    refine advances_going hs ?_ nofun he.symm
    simp only [Stage.phase, he]
    exact .stays _ rfl
  | finishes hs he =>
    refine advances_going hs ?_ nofun he.symm
    simp only [Stage.phase, he]
    exact .stays _ rfl
  | closes hs hc =>
    obtain ⟨_, _, rfl⟩ := Connection.claim_eq_ok.mp hc
    exact advances_going hs (.stays _ rfl) nofun rfl
  | abandons hs _ => exact advances_going hs (.stays _ rfl) nofun rfl
  | closed hs => exact advances_going hs (.stays _ rfl) nofun rfl
  | retires hs => exact advances_going hs (.stays _ rfl) nofun rfl
  | releases hs => exact advances_going hs (.stays _ rfl) nofun rfl

/-- How a dispatch ends. -/
theorem Goes.ends {run : Dispatch α} {c c' : Connection} {input : Input} {outcome : Outcome}
    (h : Goes run c input c' (.ends outcome)) :
    input = .proceed ∧ c' = { c with dispatching := false } ∧
      (run.stage = .refusing ∧ outcome = .dispatched (.error .closed) ∨
        run.stage = .clearing ∧ outcome = .dispatched run.result) := by
  cases h with
  | refused hs => exact ⟨rfl, rfl, .inl ⟨hs, rfl⟩⟩
  | clears hs => exact ⟨rfl, rfl, .inr ⟨hs, rfl⟩⟩
  | seeks _ ha => cases ha
  | hears _ _ ha => cases ha
  | givesUp _ ha => cases ha

/-- A dispatch is unwound only out of the handle or the receiver, so it has begun. -/
theorem Goes.unwinds {run : Dispatch α} {c c' : Connection} {input : Input}
    (h : Goes run c input c' .unwinds) :
    (c' = c ∨ c' = c.release) ∧ run.stage.phase ≠ .deciding := by
  cases h with
  | closeRaises hs => exact ⟨.inr rfl, by simp [hs, Stage.phase]⟩
  | raises ho _ =>
    refine ⟨.inl rfl, fun hp => ?_⟩
    rw [inside_of_deciding hp] at ho
    cases ho
  | seeks _ ha => cases ha
  | hears _ _ ha => cases ha
  | givesUp _ ha => cases ha

end Dispatch

/-- Only dispatches run. -/
theorem Deed.not_runs {d : Deed α} (h : ∀ run, d.next ≠ .goesOn (.dispatch run)) : ¬ d.Runs := by
  rintro ⟨run, hnext, _⟩
  exact h run hnext

theorem Deed.not_runs_of_ends {cause : Cause α} {outcome : Outcome} :
    ¬ Deed.Runs ⟨cause, .ends outcome⟩ := by
  rintro ⟨run, hnext, _⟩
  cases hnext

/-- A deed after which a call of another kind, or none, is there. -/
theorem told_snoc_of_not_runs (deeds : List (Deed α)) {d : Deed α} (h : ¬ d.Runs) :
    told (deeds ++ [d]) = told deeds := by
  rw [told_snoc]
  cases hv : d.delivery? with
  | none => exact List.append_nil _
  | some event => exact False.elim (h (Deed.runs_of_delivery hv))

theorem begun_snoc_of_not_runs {deeds : List (Deed α)} {d : Deed α} (h : ¬ d.Runs) :
    Begun (deeds ++ [d]) ↔ Begun deeds := by
  rw [begun_snoc]
  exact or_iff_left h

/-- The receiver has been told some events that are not the last one, and then the last one or
not. -/
def Delivered (deeds : List (Deed α)) (last : Bool) : Prop :=
  ∃ events, (∀ event ∈ events, event.isEndOfStream = false) ∧
    told deeds = events ++ if last then [.endOfStream] else []

theorem Event.eq_endOfStream {event : Event α} (h : event.isEndOfStream = true) :
    event = .endOfStream := by
  cases event with
  | endOfStream => rfl
  | message _ => cases h
  | decodeFailed _ => cases h

def Stands (deeds : List (Deed α)) : Call α → Prop
  | .dispatch run => (Begun deeds ↔ run.stage.phase ≠ .deciding) ∧
      Delivered deeds run.stage.hasToldLast
  | _ => ¬ Begun deeds

theorem stands_start {c c' : Connection} {operation : Operation α} {call : Call α}
    (h : Call.Starts c operation c' (.goesOn call)) :
    Stands [⟨.start operation, .goesOn call⟩] call := by
  have quiet {call : Call α} (hc : ∀ run, call = .dispatch run → run.stage.phase = .deciding) :
      ¬ Begun [⟨.start operation, .goesOn call⟩] := by
    rintro ⟨d, hd, run, hnext, hp⟩
    rw [List.mem_singleton] at hd
    subst hd
    cases hnext
    exact hp (hc run rfl)
  cases h with
  | sends => exact quiet (by simp)
  | shutsDown => exact quiet (by simp)
  | @dispatches codec host _ =>
    have hb : ¬ Begun [⟨.start (.dispatch codec host), .goesOn (.dispatch { codec, host })⟩] := by
      refine quiet ?_
      rintro run ⟨⟩
      rfl
    refine ⟨⟨fun h => False.elim (hb h), fun h => False.elim (h rfl)⟩, [], by simp, ?_⟩
    exact told_of_not_begun hb

theorem Stands.dispatch_goes {deeds : List (Deed α)} {run run' : Dispatch α}
    {c c' : Connection} {input : Input} (h : Stands deeds (.dispatch run))
    (ha : Dispatch.Advances c c' run run') :
    Stands (deeds ++ [⟨.goOn (.dispatch run) input, .goesOn (.dispatch run')⟩])
      (.dispatch run') := by
  obtain ⟨hbegun, events, hevents, htold⟩ := h
  constructor
  · rw [begun_snoc, hbegun]
    constructor
    · rintro (hp | ⟨r, hr, hp⟩)
      · intro hp'
        exact hp (ha.passes.eq_deciding hp')
      · cases hr
        exact hp
    · intro hp
      exact .inr ⟨run', rfl, hp⟩
  · rw [Delivered, told_snoc, htold]
    rcases ha.tells with ⟨event, hold, hnew⟩ | ⟨hsilent, hlast⟩
    · have hv : Deed.delivery? ⟨.goOn (.dispatch run) input, .goesOn (.dispatch run')⟩ =
          some event := by
        simp [Deed.delivery?, Call.event?, hnew]
      rw [hv, hold, hnew]
      cases he : event.isEndOfStream with
      | false =>
        refine ⟨events ++ [event], ?_, by simp [Stage.hasToldLast, he]⟩
        intro e hmem
        rcases List.mem_append.mp hmem with h | h
        · exact hevents e h
        · rw [List.mem_singleton.mp h]
          exact he
      | true =>
        refine ⟨events, hevents, ?_⟩
        rw [Event.eq_endOfStream he]
        simp [Stage.hasToldLast, Event.isEndOfStream]
    · have hv : Deed.delivery? ⟨.goOn (.dispatch run) input, .goesOn (.dispatch run')⟩ = none := by
        simp only [Deed.delivery?, Call.event?]
      rw [hv, hlast]
      exact ⟨events, hevents, List.append_nil _⟩

theorem Call.Serves.exists_dispatch {call : Call α} {codec : Codec α} {host : Host}
    (h : call.Serves (.dispatch codec host)) :
    ∃ run, call = .dispatch run ∧ run.codec = codec ∧ run.host = host := by
  cases call with
  | dispatch run => exact ⟨run, rfl, h⟩
  | awaitingSend _ | framing _ | sending _ | awaitingCancel | cancelling => cases h

theorem serves_start {c c' : Connection} {operation : Operation α} {call : Call α}
    (h : Call.Starts c operation c' (.goesOn call)) : call.Serves operation := by
  cases h with
  | sends => rfl
  | shutsDown => trivial
  | dispatches _ => exact ⟨rfl, rfl⟩

def Opens (deeds : List (Deed α)) (operation : Operation α) : Prop :=
  ∃ next, deeds.head? = some ⟨.start operation, next⟩

theorem opens_snoc {deeds : List (Deed α)} {operation : Operation α} {d : Deed α}
    (ne : deeds ≠ []) : Opens (deeds ++ [d]) operation ↔ Opens deeds operation := by
  cases deeds with
  | nil => exact False.elim (ne rfl)
  | cons e deeds => rfl

theorem Opens.ne_nil {deeds : List (Deed α)} {operation : Operation α} (h : Opens deeds operation) :
    deeds ≠ [] := by
  rintro rfl
  obtain ⟨_, hhead⟩ := h
  cases hhead

theorem Opens.unique {deeds : List (Deed α)} {operation operation' : Operation α}
    (h : Opens deeds operation) (k : Opens deeds operation') : operation = operation' := by
  obtain ⟨_, hhead⟩ := h
  obtain ⟨_, hhead'⟩ := k
  rw [hhead] at hhead'
  cases hhead'
  rfl

variable [Memory]

theorem Stands.goes {deeds : List (Deed α)} {call call' : Call α} {c c' : Connection}
    {input : Input} (h : Stands deeds call) (hg : Call.Goes c call input c' (.goesOn call')) :
    Stands (deeds ++ [⟨.goOn call input, .goesOn call'⟩]) call' := by
  have still {call call' : Call α} (hb : ¬ Begun deeds) (hc : ∀ run, call' ≠ .dispatch run) :
      ¬ Begun (deeds ++ [⟨.goOn call input, .goesOn call'⟩]) := by
    rw [begun_snoc_of_not_runs (Deed.not_runs fun run hr => hc run (Next.goesOn.inj hr))]
    exact hb
  cases hg with
  | takesHandle _ _ => exact still h (by simp)
  | frames _ => exact still h (by simp)
  | cancels _ => exact still h (by simp)
  | dispatches hd =>
    obtain ⟨run', rfl, ha⟩ := hd.advances
    exact h.dispatch_goes ha

/-- What a call under way has done. -/
theorem Trail.stands {deeds : List (Deed α)} {call : Call α} (h : Trail deeds (.goesOn call)) :
    Stands deeds call := by
  generalize hn : Next.goesOn call = next at h
  induction h generalizing call with
  | start hs =>
    subst hn
    exact stands_start hs
  | goOn _ hg ih =>
    subst hn
    exact (ih rfl).goes hg

theorem Call.Serves.goes {call call' : Call α} {operation : Operation α} {c c' : Connection}
    {input : Input} (h : call.Serves operation) (hg : Call.Goes c call input c' (.goesOn call')) :
    call'.Serves operation := by
  cases hg with
  | takesHandle _ _ =>
    cases operation with
    | send given => exact h
    | shutdown => cases h
    | dispatch codec host => cases h
  | frames _ =>
    cases operation with
    | send given => exact ⟨_, h, rfl⟩
    | shutdown => cases h
    | dispatch codec host => cases h
  | cancels _ =>
    cases operation with
    | send given => cases h
    | shutdown => trivial
    | dispatch codec host => cases h
  | dispatches hd =>
    obtain ⟨run', rfl, ha⟩ := hd.advances
    cases operation with
    | send given => cases h
    | shutdown => cases h
    | dispatch codec host => exact ⟨ha.codec.trans h.1, ha.host.trans h.2⟩

theorem Trail.opens {deeds : List (Deed α)} {next : Next α} (h : Trail deeds next) :
    ∃ operation, Opens deeds operation := by
  induction h with
  | start _ => exact ⟨_, _, rfl⟩
  | goOn ht _ ih =>
    obtain ⟨operation, ho⟩ := ih
    exact ⟨operation, (opens_snoc ht.ne_nil).mpr ho⟩

/-- What holds of a dispatch at its start, and with every step of it, holds throughout. -/
@[elab_as_elim]
theorem Trail.of_dispatch {holds : List (Deed α) → Dispatch α → Prop}
    (start : ∀ codec host, holds
      [⟨.start (.dispatch codec host), .goesOn (.dispatch { codec, host })⟩] { codec, host })
    (goes : ∀ deeds run input c c' run', holds deeds run →
      Dispatch.Goes run c input c' (.goesOn (.dispatch run')) →
      holds (deeds ++ [⟨.goOn (.dispatch run) input, .goesOn (.dispatch run')⟩]) run')
    {deeds : List (Deed α)} {run : Dispatch α} (h : Trail deeds (.goesOn (.dispatch run))) :
    holds deeds run := by
  generalize hn : Next.goesOn (Call.dispatch run) = next at h
  induction h generalizing run with
  | start hs =>
    subst hn
    cases hs with
    | dispatches _ => exact start _ _
  | goOn _ hg ih =>
    subst hn
    cases hg with
    | dispatches hd => exact goes _ _ _ _ _ _ (ih rfl) hd

/-- A call under way serves the operation that it was started for. -/
theorem Trail.serves {deeds : List (Deed α)} {call : Call α} {operation : Operation α}
    (h : Trail deeds (.goesOn call)) (opens : Opens deeds operation) : call.Serves operation := by
  generalize hn : Next.goesOn call = next at h
  induction h generalizing call with
  | start hs =>
    subst hn
    obtain ⟨_, ho⟩ := opens
    cases ho
    exact serves_start hs
  | goOn ht hg ih =>
    subst hn
    exact (ih ((opens_snoc ht.ne_nil).mp opens) rfl).goes hg

/-- A dispatch that ends without having begun is refused. -/
theorem Trail.refused {deeds : List (Deed α)} {outcome : Outcome} {codec : Codec α} {host : Host}
    (h : Trail deeds (.ends outcome)) (opens : Opens deeds (.dispatch codec host))
    (never : ¬ Begun deeds) : outcome = .dispatched (.error .alreadyRunning) ∨
      outcome = .dispatched (.error .closed) := by
  cases h with
  | start hs =>
    obtain ⟨_, ho⟩ := opens
    cases ho
    cases hs with
    | refuses _ => exact .inl rfl
  | goOn ht hg =>
    obtain ⟨run, rfl, _⟩ := (ht.serves ((opens_snoc ht.ne_nil).mp opens)).exists_dispatch
    rw [begun_snoc_of_not_runs Deed.not_runs_of_ends] at never
    cases hg with
    | dispatches hd =>
      obtain ⟨_, _, ⟨_, rfl⟩ | ⟨hs, _⟩⟩ := hd.ends
      · exact .inr rfl
      · exact False.elim (never (ht.stands.1.mpr (by simp [hs, Stage.phase])))

/-- A dispatch that ends after it has begun has come to its last stage. -/
theorem Trail.of_ended {deeds : List (Deed α)} {outcome : Outcome}
    (h : Trail deeds (.ends outcome)) (begun : Begun deeds) :
    ∃ earlier run, deeds = earlier ++ [⟨.goOn (.dispatch run) .proceed, .ends outcome⟩] ∧
      Trail earlier (.goesOn (.dispatch run)) ∧ run.stage = .clearing ∧
        outcome = .dispatched run.result := by
  cases h with
  | start hs =>
    obtain ⟨d, hd, run, hnext, _⟩ := begun
    rw [List.mem_singleton.mp hd] at hnext
    cases hnext
  | goOn ht hg =>
    rw [begun_snoc_of_not_runs Deed.not_runs_of_ends] at begun
    have hstands := ht.stands
    cases hg with
    | dispatches hd =>
      obtain ⟨rfl, _, ⟨hs, _⟩ | ⟨hs, hresult⟩⟩ := hd.ends
      · exact False.elim (hstands.1.mp begun (by rw [hs]; rfl))
      · exact ⟨_, _, rfl, ht, hs, hresult⟩
    | lacksMemory _ | lacksHandle _ _ | wrote | skipsCancel _ _ | cancelled =>
      exact False.elim (hstands begun)

/-- A dispatch that ends after it has begun has told the last event. -/
theorem Trail.finished {deeds : List (Deed α)} {outcome : Outcome}
    (h : Trail deeds (.ends outcome)) (begun : Begun deeds) : Delivered deeds true := by
  obtain ⟨earlier, run, rfl, htrail, hs, -⟩ := h.of_ended begun
  have htold := htrail.stands.2
  rw [hs] at htold
  rw [Delivered, told_snoc_of_not_runs _ Deed.not_runs_of_ends]
  exact htold

/-- A dispatch that is unwound had begun. -/
theorem Trail.unwound {deeds : List (Deed α)} {codec : Codec α} {host : Host}
    (h : Trail deeds .unwinds) (opens : Opens deeds (.dispatch codec host)) : Begun deeds := by
  cases h with
  | start hs => cases hs
  | goOn ht hg =>
    obtain ⟨run, rfl, _⟩ := (ht.serves ((opens_snoc ht.ne_nil).mp opens)).exists_dispatch
    cases hg with
    | dispatches hd => exact begun_snoc.mpr (.inl (ht.stands.1.mpr hd.unwinds.2))

/-- Whatever becomes of a call, its receiver is told the last event once at most, as the last. -/
theorem Trail.delivered {deeds : List (Deed α)} {next : Next α} (h : Trail deeds next) :
    ∃ last, Delivered deeds last := by
  have quiet {ds : List (Deed α)} (hb : ¬ Begun ds) : ∃ last, Delivered ds last :=
    ⟨false, [], by simp, told_of_not_begun hb⟩
  have under {ds : List (Deed α)} {call : Call α} (ht : Trail ds (.goesOn call)) :
      ∃ last, Delivered ds last := by
    have hs := ht.stands
    cases call with
    | dispatch run => exact ⟨_, hs.2⟩
    | awaitingSend _ => exact quiet hs
    | framing _ => exact quiet hs
    | sending _ => exact quiet hs
    | awaitingCancel => exact quiet hs
    | cancelling => exact quiet hs
  by_cases hn : ∃ call, next = .goesOn call
  · obtain ⟨call, rfl⟩ := hn
    exact under h
  · have stop {cause : Cause α} : ¬ Deed.Runs ⟨cause, next⟩ :=
      Deed.not_runs fun run hr => hn ⟨_, hr⟩
    cases h with
    | start _ => exact quiet fun ⟨d, hd, hr⟩ => stop (List.mem_singleton.mp hd ▸ hr)
    | goOn ht _ =>
      unfold Delivered
      rw [told_snoc_of_not_runs _ stop]
      exact under ht

end WorkerLink
