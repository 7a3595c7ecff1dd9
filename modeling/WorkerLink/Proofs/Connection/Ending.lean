import WorkerLink.Proofs.Connection.Cleanup
import WorkerLink.Proofs.Connection.HostLock

/-!
# A dispatch comes to its end

Every step of a dispatch is paid for: by a byte received, by an empty read of a
handle that is alive, by an event of a frame, or by getting to a later stage
(`Dispatch.Goes.pace`). A frame takes up twenty bytes at least. So with a handle
that has only so many bytes to give, and is idle only so many times, a dispatch
takes only so many steps (`Reachable.length_deeds_le`), whatever the bytes are
and whatever others do in between. None of its stages waits for something that
cannot come: it goes on with whatever it is answered (`Reachable.exists_next`).
-/

namespace WorkerLink

variable {α : Type}

def Event.isFrame (event : Event α) : Bool := !event.isEndOfStream

theorem Event.countP_isFrame (events : List (Event α)) :
    events.countP isFrame =
      events.countP isMessage + events.countP isFailure := by
  induction events with
  | nil => rfl
  | cons event events ih =>
    simp only [List.countP_cons, ih]
    cases event <;> simp [isFrame, isEndOfStream, isMessage, isFailure] <;> omega

namespace Deed

def idles (d : Deed α) : Bool :=
  match d.cause with
  | .goOn (.dispatch run) (.alive true) => match run.stage with
    | .retrying _ => true
    | _ => false
  | _ => false

def worth (d : Deed α) : Nat :=
  d.heard.length + 2 * d.idles.toNat + 5 * d.delivery?.toList.countP Event.isFrame

end Deed

/-- How often a read has been empty with the handle alive. -/
def idleReads (deeds : List (Deed α)) : Nat := deeds.countP Deed.idles

def framesTold (deeds : List (Deed α)) : Nat := (told deeds).countP Event.isFrame

def worth (deeds : List (Deed α)) : Nat :=
  (received deeds).length + 2 * idleReads deeds + 5 * framesTold deeds

theorem worth_snoc (deeds : List (Deed α)) (d : Deed α) :
    worth (deeds ++ [d]) = worth deeds + d.worth := by
  simp only [worth, Deed.worth, received_snoc, idleReads, framesTold, told_snoc,
    List.length_append, List.countP_append, List.countP_singleton]
  cases d.idles <;> simp <;> omega

/-- How many steps may lead to a stage, beyond those that are paid for. -/
def Stage.pace : Stage α → Nat
  | .claiming => 1
  | .confirming => 2
  | .refusing | .looping => 3
  | .probing => 4
  | .receiving _ | .decoding _ => 5
  | .retrying _ => 6
  | .concluding => 7
  | .entering event => if event.isEndOfStream then 8 else 6
  | .notifying event => if event.isEndOfStream then 9 else 2
  | .awaitingClose => 10
  | .closing => 11
  | .retiring => 12
  | .releasing => 13
  | .clearing => 14

theorem Stage.pace_le (stage : Stage α) : stage.pace ≤ 14 := by
  cases stage with
  | entering event | notifying event => cases he : event.isEndOfStream <;> simp [pace, he]
  | _ => simp [pace]

namespace Dispatch

section Steps

variable {run run' : Dispatch α} {c c' : Connection} {input : Input}

/-- An advance leads to a later stage, or to the same one. -/
theorem Absorbs.pace {a : Advance} (h : Absorbs run c a c' (.goesOn (.dispatch run'))) :
    5 ≤ run'.stage.pace := by
  cases h <;> simp [Stage.pace]

/-- At the end of the output reading is over. -/
theorem Absorbs.pace_of_ended {scan : Scan} {buffered : Bytes}
    (h : Absorbs run c (scan.ended buffered) c' (.goesOn (.dispatch run'))) :
    run'.stage = .concluding := by
  obtain ⟨error, left, hpull⟩ := Wire.exists_ended scan buffered
  cases h with
  | wants hp | finds hp =>
    rw [hpull] at hp
    cases hp
  | stops _ => rfl

/-- A step that is not paid for leads to a later stage. -/
theorem Goes.pace [Memory] (h : Goes run c input c' (.goesOn (.dispatch run'))) :
    run.stage.pace + 1 ≤
      Deed.worth ⟨.goOn (.dispatch run) input, .goesOn (.dispatch run')⟩ + run'.stage.pace := by
  have later {d : Deed α} (hlt : run.stage.pace < run'.stage.pace) :
      run.stage.pace + 1 ≤ d.worth + run'.stage.pace :=
    Nat.le_trans hlt (Nat.le_add_left _ _)
  cases h with
  | found hs _ | missed hs _ | tooLate hs _ | begins hs _ | leaves hs _ | probes hs _
  | inactive hs _ | fails hs | hearsNothing hs | decodes hs _ | stumbles hs _ | concludes hs
  | closes hs _ _ | abandons hs _ _ | closed hs | retires hs | releases hs =>
    refine later ?_
    rw [hs]
    simp [Stage.pace, Event.isEndOfStream]
  | seeks hs ha =>
    have hpace := ha.pace
    refine later ?_
    rw [hs]
    exact hpace
  | givesUp hs ha =>
    refine later ?_
    rw [hs, ha.pace_of_ended]
    exact Nat.lt_succ_self 6
  | @hears _ stderr bytes _ _ hs hne ha =>
    have hpace := ha.pace
    have hheard : 0 < bytes.length := List.length_pos_iff.mpr hne
    have hpaid : bytes.length ≤ Deed.worth ⟨.goOn (.dispatch run) (.read stderr (.ok bytes)),
        .goesOn (.dispatch run')⟩ := by
      simp only [Deed.worth, Deed.heard, Input.heard]
      omega
    have hold : run.stage.pace = 5 := by
      rw [hs]
      rfl
    omega
  | retries hs =>
    simp only [Stage.pace, Deed.worth, Deed.idles, hs, Bool.toNat_true]
    omega
  | @delivers event hs =>
    cases he : event.isEndOfStream with
    | true =>
      refine later ?_
      rw [hs]
      simp [Stage.pace, he]
    | false =>
      rw [hs]
      simp [Stage.pace, Deed.worth, Deed.delivery?, Call.event?, Event.isFrame, he]
  | continues hs he | finishes hs he =>
    refine later ?_
    rw [hs]
    simp [Stage.pace, he]

end Steps

end Dispatch

/-- The steps of a dispatch are paid for, but for the stages that it has gone through. -/
theorem Trail.pace [Memory] {deeds : List (Deed α)} {run : Dispatch α}
    (h : Trail deeds (.goesOn (.dispatch run))) :
    deeds.length ≤ worth deeds + run.stage.pace := by
  refine Trail.of_dispatch ?_ ?_ h
  · intro codec host
    exact Nat.le_add_left _ _
  · intro deeds old input c c' run ih hd
    have hpace := hd.pace
    rw [worth_snoc, List.length_append, List.length_singleton]
    omega

/-- What a dispatch has told of are frames that have been read off the bytes received. -/
theorem Dispatch.Tracks.exists_reads [Memory] {run : Dispatch α} {failed : Bool} {bytes : Bytes}
    {events : List (Event α)} {stage : Stage α} (h : run.Tracks failed bytes events stage) :
    ∃ frames rest, Wire.Reads bytes frames rest ∧ events.countP Event.isFrame ≤ frames.length := by
  have mapped (frames : List Frame) :
      (frames.map run.codec.event).countP Event.isFrame ≤ frames.length :=
    List.countP_le_length.trans_eq (List.length_map _)
  have concluded {told : List (Event α)} (hover : run.Over failed bytes told) : ∃ frames rest,
      Wire.Reads bytes frames rest ∧ told.countP Event.isFrame ≤ frames.length := by
    obtain ⟨frames, rest, ⟨hreads, -⟩, rfl, -⟩ := hover
    exact ⟨frames, rest, hreads, mapped frames⟩
  have ended (hended : ∃ told, events = told ++ [.endOfStream] ∧ run.Over failed bytes told) :
      ∃ frames rest, Wire.Reads bytes frames rest ∧
        events.countP Event.isFrame ≤ frames.length := by
    obtain ⟨told, rfl, hover⟩ := hended
    rw [List.countP_append]
    exact concluded hover
  cases stage with
  | claiming | confirming | refusing | looping | probing =>
    obtain ⟨frames, ⟨hreads, -⟩, rfl⟩ := h
    exact ⟨frames, _, hreads, mapped frames⟩
  | receiving scan | retrying scan | decoding frame =>
    obtain ⟨frames, rest, ⟨hreads, -⟩, -, rfl⟩ := h
    exact ⟨frames, rest, hreads, mapped frames⟩
  | concluding => exact concluded h
  | entering event =>
    rw [Tracks] at h
    split at h
    · exact concluded h
    · obtain ⟨frames, frame, ⟨hreads, -⟩, -, rfl⟩ := h
      refine ⟨_, _, hreads, (mapped frames).trans ?_⟩
      rw [List.length_append]
      exact Nat.le_add_right _ _
  | notifying event =>
    rw [Tracks] at h
    split at h
    · exact ended h
    · obtain ⟨frames, ⟨hreads, -⟩, rfl⟩ := h
      exact ⟨frames, _, hreads, mapped frames⟩
  | awaitingClose | closing | retiring | releasing | clearing => exact ended h

/-- What a dispatch has done, whatever has become of it, is paid for by the bytes received and by the
reads without any. -/
theorem Trail.paid [Memory] {deeds : List (Deed α)} {next : Next α} {codec : Codec α} {host : Host}
    (h : Trail deeds next) (opens : Opens deeds (.dispatch codec host))
    (steady : ∀ d ∈ deeds, ¬ d.Leaves) :
    deeds.length ≤ worth deeds + 15 ∧
      Wire.minFrameLength * framesTold deeds ≤ (received deeds).length := by
  have under {deeds : List (Deed α)} {run : Dispatch α} (ht : Trail deeds (.goesOn (.dispatch run)))
      (steady : ∀ d ∈ deeds, ¬ d.Leaves) : deeds.length ≤ worth deeds + 14 ∧
        Wire.minFrameLength * framesTold deeds ≤ (received deeds).length := by
    obtain ⟨frames, rest, hreads, hcount⟩ := (ht.tracks steady).exists_reads
    have hlength := hreads.length_le
    have hframes := Nat.mul_le_mul_left Wire.minFrameLength hcount
    have hpace := ht.pace
    have hlast := run.stage.pace_le
    exact ⟨by omega, by rw [framesTold]; omega⟩
  by_cases hn : ∃ run, next = .goesOn (.dispatch run)
  · obtain ⟨run, rfl⟩ := hn
    obtain ⟨hlength, hframes⟩ := under h steady
    exact ⟨by omega, hframes⟩
  · have stop {cause : Cause α} : ¬ Deed.Runs ⟨cause, next⟩ :=
      Deed.not_runs fun run hr => hn ⟨run, hr⟩
    cases h with
    | @start operation _ _ _ hs =>
      have hbegun : ¬ Begun [⟨.start operation, next⟩] := fun ⟨d, hd, hruns⟩ =>
        stop (List.mem_singleton.mp hd ▸ hruns)
      rw [framesTold, told_of_not_begun hbegun]
      exact ⟨Nat.le_trans (by simp) (Nat.le_add_left _ _), Nat.zero_le _⟩
    | goOn ht hg =>
      obtain ⟨run, rfl, _⟩ := (ht.serves ((opens_snoc ht.ne_nil).mp opens)).exists_dispatch
      obtain ⟨hlength, hframes⟩ := under ht fun d hd => steady d (List.mem_append_left _ hd)
      rw [worth_snoc, received_snoc, framesTold, told_snoc_of_not_runs _ stop, List.length_append,
        List.length_append, List.length_singleton]
      exact ⟨by omega, by rw [framesTold] at hframes; omega⟩

/-- What a dispatch waits for at a stage. The wait for the handle ends in any case. -/
def Stage.awaits : Stage α → Input → Bool
  | .claiming, .proceed | .confirming, .proceed | .refusing, .proceed | .looping, .proceed
  | .decoding _, .proceed | .concluding, .proceed | .entering _, .proceed | .retiring, .proceed
  | .releasing, .proceed | .clearing, .proceed => true
  | .probing, .alive _ | .retrying _, .alive _ => true
  | .receiving _, .read _ _ => true
  | .notifying _, .returned | .closing, .returned => true
  | .awaitingClose, .timeUp => true
  | _, _ => false

/-- What a dispatch is answered by a handle that has nothing more to give and is gone, and by a
receiver that returns. -/
def Stage.lastAnswer : Stage α → Input
  | .probing | .retrying _ => .alive false
  | .receiving _ => .read [] (.ok [])
  | .notifying _ | .closing => .returned
  | .awaitingClose => .timeUp
  | _ => .proceed

theorem Stage.awaits_lastAnswer (stage : Stage α) : stage.awaits stage.lastAnswer = true := by
  cases stage <;> rfl

section Answers

variable {run : Dispatch α}

theorem Dispatch.heard_lastAnswer {next : Next α} :
    Deed.heard ⟨.goOn (.dispatch run) run.stage.lastAnswer, next⟩ = [] := by
  cases hs : run.stage <;> rfl

theorem Dispatch.idles_lastAnswer {next : Next α} :
    Deed.idles ⟨.goOn (.dispatch run) run.stage.lastAnswer, next⟩ = false := by
  cases hs : run.stage <;> simp [Deed.idles, Stage.lastAnswer]

end Answers

namespace Ledger

/-- The handle has handed over for a call some of the bytes that it has to give, and no others, and
has not been idle more often than it may. -/
structure Within (output : Bytes) (idle name : Nat) (l : Ledger α) : Prop where
  received : l.received name <+: output
  idleReads : idleReads (l.deeds name) ≤ idle

section Within

variable {l l' : Ledger α} {name : Nat} {run : Dispatch α} {output : Bytes} {idle : Nat}

/-- A handle that has nothing more to give and is gone keeps within its means. -/
theorem Within.of_lastAnswer {next : Next α} (h : l.Within output idle name)
    (deeds : l'.deeds name =
      l.deeds name ++ [⟨.goOn (.dispatch run) run.stage.lastAnswer, next⟩]) :
    l'.Within output idle name := by
  refine ⟨?_, ?_⟩
  · rw [Ledger.received, deeds, received_snoc, Dispatch.heard_lastAnswer, List.append_nil]
    exact h.received
  · rw [deeds, WorkerLink.idleReads, List.countP_append, List.countP_singleton,
      Dispatch.idles_lastAnswer]
    exact h.idleReads

theorem Within.of_deeds (h : l.Within output idle name) (deeds : l'.deeds name = l.deeds name) :
    l'.Within output idle name := by
  refine ⟨?_, ?_⟩
  · rw [Ledger.received, deeds]
    exact h.received
  · rw [deeds]
    exact h.idleReads

end Within

end Ledger

variable [Memory]

namespace Dispatch

variable {run : Dispatch α} {c c' : Connection} {input : Input}

/-- A dispatch goes on with whatever it is answered. -/
theorem exists_step (c : Connection) (awaits : run.stage.awaits input = true) :
    ∃ s, run.step c input = some s := by
  rw [← Option.isSome_iff_exists]
  unfold Stage.awaits at awaits
  split at awaits
  case h_17 => cases awaits
  all_goals
    next hs =>
    simp only [step, hs]
    first
    | rfl
    | split <;> rfl

theorem Goes.raised_of_unwinds (h : Goes run c input c' .unwinds) : input = .raised := by
  cases h with
  | closeRaises _ | raises _ _ => rfl
  | seeks _ ha | hears _ _ ha | givesUp _ ha => cases ha

end Dispatch

namespace Ledger

variable {l l' : Ledger α} {thread name : Nat} {run : Dispatch α} {below : List (Named α)}
  {input : Input} {output : Bytes} {idle : Nat}

/-- While a dispatch is outside of its host, nobody is inside. -/
theorem Reachable.host_free (h : l.Reachable) (under : l.Dispatches name run)
    (outside : Machine.holdsHost (.dispatch run) = false) : l.hostHolder = none := by
  cases hholder : l.hostHolder with
  | none => rfl
  | some holder =>
    obtain ⟨named, hmem, hholds⟩ := (h.kept holder).mp hholder
    have hcalls := mem_calls_of_stack hmem
    obtain ⟨other, hother⟩ := dispatches_of_locked hcalls (isLocked_of_holdsHost hholds)
    have hsame := List.inj_on_of_nodup_map h.sound.distinct hcalls under
      (h.single.one _ _ _ _ hother under)
    rw [hsame, outside] at hholds
    cases hholds

/-- A dispatch that is the newest call of its thread goes on with whatever it is answered. -/
theorem Reachable.exists_next (h : l.Reachable)
    (newest : l.stack thread = ⟨name, .dispatch run⟩ :: below)
    (awaits : run.stage.awaits input = true) : ∃ l', l.next thread (.goOn input) = some l' := by
  obtain ⟨s, hstep⟩ := Dispatch.exists_step l.connection awaits
  have hcall : (Call.dispatch run).step l.connection input = some s := hstep
  have hlock : ∃ holder, l.machine.hostAfter thread (.dispatch run) s = some holder := by
    rw [Machine.hostAfter_eq]
    cases hholds : Machine.holdsHost (.dispatch run) with
    | true => exact ⟨none, rfl⟩
    | false =>
      have hunder : l.Dispatches name run := mem_calls_of_stack (by rw [newest]; exact .head _)
      have hfree : l.machine.hostHolder = none := h.host_free hunder hholds
      rw [hfree]
      cases s.next.goesOnWith Machine.holdsHost <;> exact ⟨_, rfl⟩
  obtain ⟨holder, hholder⟩ := hlock
  obtain ⟨l', hl', -⟩ := exists_goOn newest hcall hholder
  exact ⟨l', hl'⟩

/-- The step of a dispatch that is the newest call of its thread. -/
theorem deeds_of_next (newest : l.stack thread = ⟨name, .dispatch run⟩ :: below)
    (next : l.next thread (.goOn input) = some l') : ∃ next,
      l'.deeds name = l.deeds name ++ [⟨.goOn (.dispatch run) input, next⟩] ∧
      l'.fate name = some next ∧
      Dispatch.Goes run l.connection input l'.connection next := by
  obtain ⟨name', call, below', after, _, _, hstack, hm, -⟩ := goesOn_of_next next
  rw [newest] at hstack
  cases hstack
  refine ⟨after, hm.deeds_self, hm.fate_self, ?_⟩
  have hdoes := hm.does
  generalize l'.connection = c' at hdoes ⊢
  cases hdoes with
  | goesOn hg =>
    cases hg with
    | dispatches hd => exact hd

/-- Others may have moved, but not the dispatch, and it is the newest call of the thread. -/
structure Resumes (l between : Ledger α) (thread name : Nat) (run : Dispatch α) : Prop where
  reaches : l.Reaches between
  deeds : between.deeds name = l.deeds name
  newest : ∃ below, between.stack thread = ⟨name, .dispatch run⟩ :: below

/-- The dispatch goes on with whatever it is answered, and a handle that is gone keeps within its
means. -/
structure GoesOn (output : Bytes) (idle name : Nat) (l : Ledger α) (thread : Nat)
    (run : Dispatch α) : Prop where
  answered : ∀ input, run.stage.awaits input = true → ∃ l', l.next thread (.goOn input) = some l'
  last : ∃ l', l.next thread (.goOn run.stage.lastAnswer) = some l' ∧ l'.Within output idle name

/-- As long as the handle keeps within its means and nothing raises, every run of the dispatch ends,
and none comes to a halt before, whatever others do in between. -/
inductive ComesToEnd (output : Bytes) (idle name : Nat) : Ledger α → Prop
  | ended {l : Ledger α} {outcome : Outcome} : l.fate name = some (.ends outcome) →
      ComesToEnd output idle name l
  | goesOn {l : Ledger α} {run : Dispatch α} : l.fate name = some (.goesOn (.dispatch run)) →
      (∀ between thread, l.Resumes between thread name run →
        between.GoesOn output idle name thread run) →
      (∀ between thread input l', l.Resumes between thread name run → input ≠ .raised →
        between.next thread (.goOn input) = some l' → l'.Within output idle name →
        ComesToEnd output idle name l') →
      ComesToEnd output idle name l

theorem Reachable.paid {codec : Codec α} {host : Host} (h : l.Reachable)
    (opens : Opens (l.deeds name) (.dispatch codec host)) :
    (l.deeds name).length ≤ worth (l.deeds name) + 15 ∧
      Wire.minFrameLength * framesTold (l.deeds name) ≤ (l.received name).length := by
  obtain ⟨next, htrail, -⟩ := h.sound.underWay name opens.ne_nil
  exact htrail.paid opens fun d hd => h.steady (name, d) (mem_deeds.mp hd)

/-- A dispatch takes only so many steps. -/
theorem Reachable.length_deeds_le {codec : Codec α} {host : Host} (h : l.Reachable)
    (opens : Opens (l.deeds name) (.dispatch codec host)) (within : l.Within output idle name) :
    4 * (l.deeds name).length ≤ 5 * output.length + 8 * idle + 60 := by
  obtain ⟨hpaid, hframes⟩ := h.paid opens
  have hreceived := within.received.length_le
  have hidle := within.idleReads
  simp only [worth, Wire.minFrameLength, Ledger.received] at hpaid hframes hreceived
  omega

theorem Reachable.goesOn (h : l.Reachable) (within : l.Within output idle name)
    (newest : l.stack thread = ⟨name, .dispatch run⟩ :: below) :
    l.GoesOn output idle name thread run := by
  refine ⟨fun input awaits => h.exists_next newest awaits, ?_⟩
  obtain ⟨l', hl'⟩ := h.exists_next newest run.stage.awaits_lastAnswer
  obtain ⟨next, hdeeds, -⟩ := deeds_of_next newest hl'
  exact ⟨l', hl', within.of_lastAnswer hdeeds⟩

/-- A dispatch that has so many steps left at most comes to its end. -/
theorem Reachable.comesToEnd {codec : Codec α} {host : Host} {steps : Nat} (h : l.Reachable)
    (opens : Opens (l.deeds name) (.dispatch codec host)) (within : l.Within output idle name)
    (returns : l.fate name ≠ some .unwinds)
    (left : 5 * output.length + 8 * idle + 60 < 4 * ((l.deeds name).length + steps)) :
    l.ComesToEnd output idle name := by
  induction steps generalizing l with
  | zero =>
    have hlength := h.length_deeds_le opens within
    omega
  | succ steps ih =>
    obtain ⟨next, htrail, -⟩ := h.sound.underWay name opens.ne_nil
    have hfate : l.fate name = some next := htrail.last
    cases next with
    | ends outcome => exact .ended hfate
    | unwinds => exact absurd hfate returns
    | goesOn call =>
      obtain ⟨run, rfl, _⟩ := (htrail.serves opens).exists_dispatch
      refine .goesOn hfate ?_ ?_
      · rintro between thread ⟨hreaches, hdeeds, below, hnewest⟩
        exact (hreaches.reachable h).goesOn (within.of_deeds hdeeds) hnewest
      · rintro between thread input l' ⟨hreaches, hdeeds, below, hnewest⟩ hinput hnext hwithin
        obtain ⟨next, hdeeds', hfate', hgoes⟩ := deeds_of_next hnewest hnext
        rw [hdeeds] at hdeeds'
        refine ih ((hreaches.reachable h).next hnext) ?_ hwithin ?_ ?_
        · rw [hdeeds']
          exact (opens_snoc opens.ne_nil).mpr opens
        · rw [hfate']
          rintro ⟨⟩
          exact hinput hgoes.raised_of_unwinds
        · rw [hdeeds', List.length_append, List.length_singleton]
          omega

/-- Of a handle that has so many bytes to give, and is idle so many times, a dispatch takes so many
steps at most, and it tells its receiver of a frame for each twenty bytes at most. Unless the handle
or the receiver raises, it comes to its end, whatever the bytes are. -/
theorem ends_within_means {codec : Codec α} {host : Host} (reachable : l.Reachable)
    (opens : Opens (l.deeds name) (.dispatch codec host)) (within : l.Within output idle name) :
    4 * (l.deeds name).length ≤ 5 * output.length + 8 * idle + 60 ∧
    (l.told name).countP Event.isMessage + (l.told name).countP Event.isFailure ≤
      output.length / 20 ∧
    (l.fate name ≠ some .unwinds → l.ComesToEnd output idle name) := by
  refine ⟨reachable.length_deeds_le opens within, ?_, fun returns => ?_⟩
  · obtain ⟨-, hframes⟩ := reachable.paid opens
    have hreceived := within.received.length_le
    rw [framesTold, Event.countP_isFrame] at hframes
    simp only [Wire.minFrameLength] at hframes
    rw [Nat.le_div_iff_mul_le (by decide), Nat.mul_comm]
    exact hframes.trans hreceived
  · have hsteps : 5 * output.length + 8 * idle + 60 <
        4 * ((l.deeds name).length + (5 * output.length + 8 * idle + 61)) := by omega
    exact reachable.comesToEnd opens within returns hsteps

end Ledger

end WorkerLink

namespace WorkerLink.Ledger

attribute [local instance] Memory.kilobyte

/-- The shortest frame, in two pieces with an empty read between them: its event is all that the
receiver can be told of a frame. -/
theorem ends_within_means_of_one_frame : ∃ (l : Ledger Unit) (output : Bytes), l.Reachable ∧
    output.length = 20 ∧ l.received 0 = output ∧ idleReads (l.deeds 0) = 1 ∧
    (l.told 0).countP Event.isMessage = 1 ∧
    (l.told 0).countP Event.isMessage + (l.told 0).countP Event.isFailure ≤ output.length / 20 ∧
    4 * (l.deeds 0).length ≤ 5 * output.length + 8 * 1 + 60 ∧ l.ComesToEnd output 1 0 := by
  obtain ⟨l, hl, hopens, hreceived, hidle, hmessages, hfate⟩ : ∃ l,
      Ledger.follow { connection := .start 7 {} }
        [(0, .start (.dispatch ⟨fun _ => .ok (), fun _ => .ok []⟩ .unserialized)),
          (0, .goOn .proceed), (0, .goOn .proceed), (0, .goOn .proceed), (0, .goOn (.alive true)),
          (0, .goOn (.read [] (.ok ((Frame.marker ++ [48, 13, 10, 13, 10]).take 6)))),
          (0, .goOn (.read [1] (.ok []))), (0, .goOn (.alive true)),
          (0, .goOn (.read [] (.ok ((Frame.marker ++ [48, 13, 10, 13, 10]).drop 6)))),
          (0, .goOn .proceed), (0, .goOn .proceed)] = some l ∧
      Opens (l.deeds 0) (.dispatch ⟨fun _ => .ok (), fun _ => .ok []⟩ .unserialized) ∧
      l.received 0 = Frame.marker ++ [48, 13, 10, 13, 10] ∧ idleReads (l.deeds 0) = 1 ∧
      (l.told 0).countP Event.isMessage = 1 ∧ ∃ call, l.fate 0 = some (.goesOn call) :=
    ⟨_, rfl, ⟨_, rfl⟩, rfl, rfl, rfl, _, rfl⟩
  obtain ⟨call, hfate⟩ := hfate
  have hr := (Reachable.start 7 {}).follow hl
  have hwithin : l.Within (l.received 0) 1 0 := ⟨List.prefix_refl _, Nat.le_of_eq hidle⟩
  obtain ⟨hsteps, hframes, hends⟩ := ends_within_means hr hopens hwithin
  exact ⟨l, l.received 0, hr, by rw [hreceived]; rfl, rfl, hidle, hmessages, hframes, hsteps,
    hends (by simp [hfate])⟩

end WorkerLink.Ledger
