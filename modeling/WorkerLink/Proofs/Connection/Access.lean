import WorkerLink.Proofs.Connection.Exclusion
import WorkerLink.Proofs.Connection.Later
import WorkerLink.Proofs.Connection.SingleRun

/-!
# Access to the handle

Three kinds of calls wait for the handle. What the end of a wait brings depends
on the place of the handle alone: the call is turned away because the place is
empty or because somebody is at the handle, or else it has the handle
(`Call.step_of_wait`). After the handle has been given up, every call under way
is `Spent`: it may still end, but it neither gets the handle nor asks it for
anything (`Reachable.retired`).
-/

namespace WorkerLink

variable {α : Type}

theorem Connection.claim_eq_error {c : Connection} {reason : Unavailable} :
    c.claim = .error reason ↔ c.slot.claim = .error reason := by
  unfold claim
  cases c.slot.claim <;> simp

def Input.mayEndWait (slot : Slot) : Input → Bool
  | .proceed => !slot.mustWait
  | .timeUp => true
  | _ => false

namespace Call

/-- The handle is at work for the call, and must not be at work for another one. -/
def isGuarded (call : Call α) : Bool :=
  match call.request? with
  | some (.send _) | some .cancel | some .close => true
  | some .receive | some .isAlive | none => false

theorem holdsHandle_of_isGuarded {call : Call α} (h : call.isGuarded = true) :
    call.holdsHandle = true := by
  cases call with
  | dispatch run => cases hs : run.stage <;> simp_all [isGuarded, request?, holdsHandle]
  | sending _ => rfl
  | cancelling => rfl
  | framing _ => cases h
  | awaitingSend _ => cases h
  | awaitingCancel => cases h

inductive TurnedAway (c : Connection) : Unavailable → Call α → Step α → Prop
  | send {payload : Bytes} {reason : Unavailable} :
      TurnedAway c reason (.awaitingSend payload)
        ⟨c, .ends (.sent (.error (.unavailable reason))),
          [c.record .debug "send unavailable" [("reason", .text reason.message)]]⟩
  | cancelClosed : TurnedAway c .closed .awaitingCancel
      ⟨c, .ends .shutDown, [c.record .debug "shutdown after close"]⟩
  | cancelBusy : TurnedAway c .timedOut .awaitingCancel
      ⟨c, .ends .shutDown, [c.record .warn "handle busy; receive cancel skipped"]⟩
  | closeClosed {run : Dispatch α} : run.stage = .awaitingClose →
      TurnedAway c .closed (.dispatch run) (run.goesTo c .clearing)
  | closeBusy {run : Dispatch α} : run.stage = .awaitingClose →
      TurnedAway c .timedOut (.dispatch run) (run.goesTo c .clearing
        [c.record .warn "handle lock timed out; abandoning handle"])

/-- The call has got the handle, and the connection has become `c'`. -/
inductive Admitted (c' : Connection) : Call α → Step α → Prop
  | send {payload : Bytes} :
      Admitted c' (.awaitingSend payload) ⟨c', .goesOn (.framing payload), []⟩
  | cancel : Admitted c' .awaitingCancel ⟨c', .goesOn .cancelling, []⟩
  | close {run : Dispatch α} : run.stage = .awaitingClose →
      Admitted c' (.dispatch run) (run.goesTo c' .closing)

section Waits

variable {c : Connection} {call : Call α} {input : Input} {s : Step α}

theorem waits_cases {tuning : Tuning} (h : (call.wait? tuning).isSome = true) :
    (∃ payload, call = .awaitingSend payload) ∨ call = .awaitingCancel ∨
      ∃ run, call = .dispatch run ∧ run.stage = .awaitingClose := by
  cases call with
  | awaitingSend payload => exact .inl ⟨payload, rfl⟩
  | awaitingCancel => exact .inr (.inl rfl)
  | dispatch run =>
    refine .inr (.inr ⟨run, rfl, ?_⟩)
    cases hs : run.stage <;> simp [wait?, hs] at h ⊢
  | framing _ => cases h
  | sending _ => cases h
  | cancelling => cases h

/-- A wait can end when its time is up, and when there is nothing to wait for any more. -/
theorem step_isSome_of_wait [Memory] (waits : (call.wait? c.tuning).isSome = true) :
    (call.step c input).isSome = input.mayEndWait c.slot := by
  rcases waits_cases waits with ⟨payload, rfl⟩ | rfl | ⟨run, rfl, hs⟩
  · cases input <;> cases hm : c.slot.mustWait <;> simp [step, Input.mayEndWait, hm]
  · cases input <;> cases hm : c.slot.mustWait <;> simp [step, Input.mayEndWait, hm]
  · cases input <;> cases hm : c.slot.mustWait <;>
      simp [step, Dispatch.step, hs, Input.mayEndWait, hm]

/-- The wait has ended as a claim of the handle does. -/
def Settled (c : Connection) (call : Call α) (s : Step α) : Prop :=
  match c.claim with
  | .ok c' => Admitted c' call s
  | .error reason => TurnedAway c reason call s

theorem settled_claimSend (c : Connection) (payload : Bytes) :
    Settled (α := α) c (.awaitingSend payload) (claimSend c payload) := by
  unfold Settled claimSend
  cases c.claim with
  | ok c' => exact .send
  | error reason => exact .send

theorem settled_claimCancel (c : Connection) :
    Settled (α := α) c .awaitingCancel (claimCancel c) := by
  unfold Settled claimCancel
  cases c.claim with
  | ok c' => exact .cancel
  | error reason =>
    cases reason with
    | timedOut => exact .cancelBusy
    | closed => exact .cancelClosed

theorem settled_claimClose (c : Connection) {run : Dispatch α} (hs : run.stage = .awaitingClose) :
    Settled c (.dispatch run) (run.claimClose c) := by
  unfold Settled Dispatch.claimClose
  cases c.claim with
  | ok c' => exact .close hs
  | error reason =>
    cases reason with
    | timedOut => exact .closeBusy hs
    | closed => exact .closeClosed hs

/-- Where a wait ends, the handle is claimed. -/
theorem settled_of_step [Memory] (waits : (call.wait? c.tuning).isSome = true)
    (h : call.step c input = some s) : Settled c call s := by
  have hends : input.mayEndWait c.slot = true := by
    rw [← step_isSome_of_wait waits, h]
    rfl
  rcases waits_cases waits with ⟨payload, rfl⟩ | rfl | ⟨run, rfl, hs⟩
  · have hs : s = claimSend c payload := by
      cases input <;> cases hm : c.slot.mustWait <;> simp_all [step, Input.mayEndWait]
    rw [hs]
    exact settled_claimSend c payload
  · have hs : s = claimCancel c := by
      cases input <;> cases hm : c.slot.mustWait <;> simp_all [step, Input.mayEndWait]
    rw [hs]
    exact settled_claimCancel c
  · have hs' : s = run.claimClose c := by
      cases input <;> cases hm : c.slot.mustWait <;>
        simp_all [step, Dispatch.step, Input.mayEndWait]
    rw [hs']
    exact settled_claimClose c hs

theorem TurnedAway.unique {reason reason' : Unavailable} (h : TurnedAway c reason call s)
    (k : TurnedAway c reason' call s) : reason = reason' := by
  cases h with
  | send => cases k; rfl
  | cancelClosed => cases k; rfl
  | cancelBusy => cases k; rfl
  | closeClosed _ =>
    generalize hk : Dispatch.goesTo _ c .clearing = step at k
    cases k with
    | closeClosed _ => rfl
    | closeBusy _ => simp [Dispatch.goesTo] at hk
  | closeBusy _ =>
    generalize hk : Dispatch.goesTo _ c .clearing _ = step at k
    cases k with
    | closeClosed _ => simp [Dispatch.goesTo] at hk
    | closeBusy _ => rfl

theorem TurnedAway.not_admitted {reason : Unavailable} {c' : Connection}
    (h : TurnedAway c reason call s) : ¬ Admitted c' call s := by
  intro k
  cases h with
  | send => cases k
  | cancelClosed => cases k
  | cancelBusy => cases k
  | closeClosed _ =>
    generalize hk : Dispatch.goesTo _ c .clearing = step at k
    cases k with
    | close _ => simp [Dispatch.goesTo] at hk
  | closeBusy _ =>
    generalize hk : Dispatch.goesTo _ c .clearing _ = step at k
    cases k with
    | close _ => simp [Dispatch.goesTo] at hk

theorem Settled.turnedAway_iff (h : Settled c call s) {reason : Unavailable} :
    TurnedAway c reason call s ↔ c.slot.claim = .error reason := by
  unfold Settled at h
  rw [← Connection.claim_eq_error]
  split at h
  · next hc =>
    rw [hc]
    exact ⟨fun ht => False.elim (ht.not_admitted h), nofun⟩
  · next other hc =>
    rw [hc, Except.error.injEq]
    exact ⟨fun ht => h.unique ht, fun he => he ▸ h⟩

theorem Settled.admitted_iff (h : Settled c call s) :
    Admitted { c with slot := { c.slot with busy := true } } call s ↔
      c.slot.present = true ∧ c.slot.busy = false := by
  unfold Settled at h
  split at h
  · next hc =>
    obtain ⟨hp, hb, rfl⟩ := Connection.claim_eq_ok.mp hc
    exact ⟨fun _ => ⟨hp, hb⟩, fun _ => h⟩
  · next hc =>
    refine ⟨fun ha => False.elim (h.not_admitted ha), fun ⟨hp, hb⟩ => ?_⟩
    rw [Connection.claim_eq_ok.mpr ⟨hp, hb, rfl⟩] at hc
    cases hc

/-- What the end of a wait brings is decided by the place of the handle alone. -/
theorem step_of_wait [Memory] (waits : (call.wait? c.tuning).isSome = true)
    (h : call.step c input = some s) :
    (TurnedAway c .closed call s ↔ c.slot.present = false) ∧
    (TurnedAway c .timedOut call s ↔ c.slot.present = true ∧ c.slot.busy = true) ∧
    (Admitted { c with slot := { c.slot with busy := true } } call s ↔
      c.slot.present = true ∧ c.slot.busy = false) := by
  have settled := settled_of_step waits h
  exact ⟨settled.turnedAway_iff.trans Slot.claim_eq_closed,
    settled.turnedAway_iff.trans Slot.claim_eq_timedOut, settled.admitted_iff⟩

end Waits

/-- The call will have nothing more to do with the handle than to let go of it. -/
def Spent : Call α → Prop
  | .awaitingSend _ | .awaitingCancel => True
  | .framing _ | .sending _ | .cancelling => False
  | .dispatch run => run.stage.phase = .deciding ∨ run.stage = .releasing ∨ run.stage = .clearing

theorem Spent.request?_eq_none {call : Call α} (h : call.Spent) : call.request? = none := by
  cases call with
  | awaitingSend _ => rfl
  | awaitingCancel => rfl
  | framing _ => exact False.elim h
  | sending _ => exact False.elim h
  | cancelling => exact False.elim h
  | dispatch run =>
    rcases h with h | h | h
    · rcases Stage.phase_eq_deciding.mp h with hs | hs | hs <;> simp [request?, hs]
    · simp [request?, h]
    · simp [request?, h]

end Call

/-- A call that neither holds the handle nor dispatches is spent when the handle is given up. -/
theorem Call.spent_of_free {call : Call α} (free : call.holdsHandle = false)
    (other : ∀ run, call ≠ .dispatch run) : call.Spent := by
  cases call with
  | awaitingSend _ => trivial
  | awaitingCancel => trivial
  | framing _ => cases free
  | sending _ => cases free
  | cancelling => cases free
  | dispatch run => exact False.elim (other run rfl)

/-- The deed takes the handle for reading, gets it for itself, or leaves it at work. -/
inductive Deed.UsesHandle : Deed α → Prop
  | shares {run run' : Dispatch α} {input : Input} : run.stage = .claiming →
      run'.stage = .confirming → UsesHandle ⟨.goOn (.dispatch run) input, .goesOn (.dispatch run')⟩
  | acquires {call call' : Call α} {input : Input} : call.holdsHandle = false →
      call'.holdsHandle = true → UsesHandle ⟨.goOn call input, .goesOn call'⟩
  | asks {cause : Cause α} {call : Call α} : call.request?.isSome = true →
      UsesHandle ⟨cause, .goesOn call⟩

section Retired

variable {c c' : Connection}

/-- Where the handle has been given up, nobody gets it. -/
theorem Connection.claim_of_gone (gone : c.slot.present = false) : c.claim = .error .closed :=
  claim_eq_error.mpr (Slot.claim_eq_closed.mpr gone)

/-- A dispatch that goes on at a stage in which it has no use for the handle. -/
theorem Deed.not_usesHandle_going {run : Dispatch α} {call : Call α} {input : Input}
    {stage : Stage α} (apart : stage ≠ .confirming)
    (free : (Call.dispatch { run with stage }).holdsHandle = false)
    (quiet : (Call.dispatch { run with stage }).request? = none) :
    ¬ UsesHandle ⟨.goOn call input, Dispatch.going run stage⟩ := by
  intro h
  generalize hd : (⟨.goOn call input, Dispatch.going run stage⟩ : Deed α) = d at h
  cases h with
  | shares _ hs =>
    cases hd
    exact apart hs
  | acquires _ hh =>
    cases hd
    rw [free] at hh
    cases hh
  | asks hr =>
    cases hd
    rw [quiet] at hr
    cases hr

theorem Dispatch.Absorbs.present {run : Dispatch α} {a : Advance} {next : Next α}
    (h : Absorbs run c a c' next) : c'.slot.present = c.slot.present := by
  cases h <;> rfl

variable [Memory]

theorem Dispatch.Goes.spent {run : Dispatch α} {input : Input} {next : Next α}
    (h : Goes run c input c' next) (gone : c.slot.present = false) (done : c.done = true)
    (spent : (Call.dispatch run).Spent) :
    (∀ call, next = .goesOn call → call.Spent) ∧
      ¬ Deed.UsesHandle ⟨.goOn (.dispatch run) input, next⟩ := by
  have stages : run.stage = .claiming ∨ run.stage = .confirming ∨ run.stage = .refusing ∨
      run.stage = .releasing ∨ run.stage = .clearing := by
    rcases spent with h | h | h
    · rcases Stage.phase_eq_deciding.mp h with hs | hs | hs <;> simp [hs]
    · simp [h]
    · simp [h]
  cases h with
  | found _ hp =>
    rw [gone] at hp
    cases hp
  | begins _ hd =>
    rw [done] at hd
    cases hd
  | missed _ _ | tooLate _ _ =>
    refine ⟨?_, Deed.not_usesHandle_going nofun rfl rfl⟩
    rintro _ ⟨⟩
    exact .inl rfl
  | releases _ =>
    refine ⟨?_, Deed.not_usesHandle_going nofun rfl rfl⟩
    rintro _ ⟨⟩
    exact .inr (.inr rfl)
  | refused _ | clears _ => exact ⟨fun _ hnext => (nomatch hnext), fun huses => (nomatch huses)⟩
  | raises ho _ =>
    rcases stages with hs | hs | hs | hs | hs <;>
      simp [Call.isOutside, Call.request?, Call.event?, hs] at ho
  | leaves hs _ | probes hs _ | inactive hs _ | seeks hs _ | fails hs | hearsNothing hs
  | hears hs _ _ | retries hs | givesUp hs _ | decodes hs _ | stumbles hs _ | concludes hs
  | delivers hs | continues hs _ | finishes hs _ | closes hs _ _ | abandons hs _ _ | closed hs
  | retires hs | closeRaises hs =>
    rw [hs] at stages
    simp at stages

/-- Where the handle has been given up, spent calls stay so and do not use it. -/
theorem Deed.Does.spent {d : Deed α} (h : d.Does c c') (gone : c.slot.present = false)
    (done : c.done = true) (spent : ∀ call input, d.cause = .goOn call input → call.Spent) :
    (∀ call, d.next = .goesOn call → call.Spent) ∧ ¬ d.UsesHandle := by
  cases h with
  | starts hs =>
    cases hs with
    | lacksPayload | refuses _ =>
      exact ⟨fun _ hnext => (nomatch hnext), fun huses => (nomatch huses)⟩
    | sends | shutsDown =>
      refine ⟨?_, fun hu => by cases hu with | asks hr => cases hr⟩
      rintro _ ⟨⟩
      trivial
    | dispatches _ =>
      refine ⟨?_, fun hu => by cases hu with | asks hr => cases hr⟩
      rintro _ ⟨⟩
      exact .inl rfl
  | goesOn hg =>
    have hspent := spent _ _ rfl
    cases hg with
    | takesHandle hc _ | cancels hc _ =>
      rw [Connection.claim_of_gone gone] at hc
      cases hc
    | lacksHandle _ _ | skipsCancel _ _ =>
      exact ⟨fun _ hnext => (nomatch hnext), fun huses => (nomatch huses)⟩
    | frames _ | lacksMemory _ | wrote | cancelled | sendRaises | cancelRaises =>
      exact False.elim hspent
    | dispatches hd => exact hd.spent gone done hspent

/-- Only a dispatch that has closed the handle gives it up. -/
theorem Dispatch.Goes.present {run : Dispatch α} {input : Input} {next : Next α}
    (h : Goes run c input c' next) : c'.slot.present = c.slot.present ∨
      run.stage = .retiring ∧ next = going run .releasing := by
  cases h with
  | retires hs => exact .inr ⟨hs, rfl⟩
  | seeks _ ha | givesUp _ ha => exact .inl ha.present
  | hears _ _ ha => exact .inl ha.present
  | closes _ hc _ =>
    obtain ⟨_, _, rfl⟩ := Connection.claim_eq_ok.mp hc
    exact .inl rfl
  | found _ _ | missed _ _ | tooLate _ _ | begins _ _ | refused _ | leaves _ _ | probes _ _
  | inactive _ _ | fails _ | hearsNothing _ | retries _ | decodes _ _ | stumbles _ _ | concludes _
  | delivers _ | continues _ _ | finishes _ _ | abandons _ _ _ | closed _ | releases _ | clears _
  | closeRaises _ | raises _ _ => exact .inl rfl

theorem Deed.Does.present {d : Deed α} (h : d.Does c c') : c'.slot.present = c.slot.present ∨
    ∃ run input, d = ⟨.goOn (.dispatch run) input, Dispatch.going run .releasing⟩ ∧
      run.stage = .retiring := by
  cases h with
  | starts hs => cases hs <;> exact .inl rfl
  | goesOn hg =>
    cases hg with
    | takesHandle hc _ | cancels hc _ =>
      obtain ⟨_, _, rfl⟩ := Connection.claim_eq_ok.mp hc
      exact .inl rfl
    | frames _ | lacksMemory _ | lacksHandle _ _ | wrote | skipsCancel _ _ | cancelled
    | sendRaises | cancelRaises => exact .inl rfl
    | dispatches hd =>
      rcases hd.present with h | ⟨hs, rfl⟩
      · exact .inl h
      · exact .inr ⟨_, _, rfl, hs⟩

end Retired

namespace Ledger

/-- The handle has been given up: the connection is done and no call under way will use it. -/
structure Retired (l : Ledger α) : Prop where
  done : l.connection.done = true
  spent : ∀ named ∈ l.calls, named.call.Spent

/-- Two handle calls that must not overlap are one. -/
theorem Exclusive.countP_isGuarded_le {l : Ledger α} (h : Exclusive l) :
    l.calls.countP (fun named => named.call.isGuarded) ≤ 1 := by
  have hle := Bool.toNat_le l.connection.slot.busy
  rw [← h] at hle
  refine Nat.le_trans (List.countP_mono_left fun named _ hguarded => ?_) hle
  exact Call.holdsHandle_of_isGuarded hguarded

variable [Memory]

section Moved

variable {l l' : Ledger α} {name : Nat} {deed : Deed α} {before after : List (Named α)}

theorem Retired.moved (r : Retired l) (gone : l.connection.slot.present = false)
    (m : Moves l l' name deed before after) : Retired l' ∧ ¬ deed.UsesHandle := by
  have hfound : ∀ call input, deed.cause = .goOn call input → call.Spent := by
    intro call input hcause
    apply r.spent ⟨name, call⟩
    rw [m.mem_calls, Deed.found, hcause]
    exact .inr (List.mem_singleton_self _)
  obtain ⟨hspent, huses⟩ := m.does.spent gone r.done hfound
  refine ⟨⟨m.does.follows.done r.done, ?_⟩, huses⟩
  intro named hmem
  rcases m.mem_calls_next.mp hmem with hside | hleft
  · exact r.spent named (m.mem_calls.mpr (.inl hside))
  · exact hspent named.call (Deed.mem_left.mp hleft).2

/-- The move that gives up the handle. -/
theorem Moves.retires (m : Moves l l' name deed before after) (r : l.Reachable)
    (there : l.connection.slot.present = true) (gone : l'.connection.slot.present = false) :
    Retired l' := by
  rcases m.does.present with hsame | ⟨run, input, rfl, hs⟩
  · rw [hsame, there] at gone
    cases gone
  · have hself := m.self_mem
    have hholds : (Call.dispatch run).holdsHandle = true := by simp [Call.holdsHandle, hs]
    refine ⟨m.does.follows.done ((r.single.fits name run hself).ending (by rw [hs]; rfl)), ?_⟩
    intro named hmem
    rcases m.mem_calls_next.mp hmem with hside | hleft
    · have hnamed := m.mem_calls.mpr (.inl hside)
      have hne := r.sound.name_ne m hside
      refine Call.spent_of_free ?_ fun other hother => ?_
      · rw [Bool.eq_false_iff]
        intro hh
        exact hne (congrArg Named.name (r.exclusive.unique hnamed hself hh hholds))
      · have hdispatches : l.Dispatches named.name other := by
          rw [Dispatches, ← hother]
          exact hnamed
        exact hne (r.single.one _ _ _ _ hdispatches hself)
    · obtain ⟨_, hnext⟩ := Deed.mem_left.mp hleft
      rw [← Next.goesOn.inj hnext]
      exact .inr (.inl rfl)

end Moved

/-- Where the handle has been given up, nothing under way will use it. -/
theorem Reachable.retired {l : Ledger α} (h : Reachable l)
    (gone : l.connection.slot.present = false) : Retired l := by
  induction h with
  | start pid tuning => cases gone
  | @spawn l _ ih =>
    have hold := ih gone
    refine ⟨hold.done, ?_⟩
    rw [calls_spawn]
    exact hold.spent
  | @next l l' thread move hr hn ih =>
    obtain ⟨name, deed, before, after, hm⟩ := moves_of_next hn
    cases hp : l.connection.slot.present with
    | true => exact hm.retires hr hp gone
    | false => exact ((ih hp).moved hp hm).1

/-- Nobody uses the handle after it has been given up. -/
theorem Reaches.unused {l l' : Ledger α} (h : l.Reaches l') (r : l.Reachable)
    (gone : l.connection.slot.present = false) : l'.connection.slot.present = false ∧
      ∃ since, l'.history = l.history ++ since ∧ ∀ entry ∈ since, ¬ entry.2.UsesHandle := by
  induction h with
  | refl => exact ⟨gone, [], (List.append_nil _).symm, by simp⟩
  | spawn _ ih => exact ih
  | @next l' l'' thread move hreach hn ih =>
    obtain ⟨hgone, since, hhistory, hunused⟩ := ih
    obtain ⟨name, deed, before, after, hm⟩ := moves_of_next hn
    have huses := (((hreach.reachable r).retired hgone).moved hgone hm).2
    refine ⟨?_, since ++ [(name, deed)], ?_, ?_⟩
    · have hclosed := hm.does.follows.closed
      simpa [Connection.isClosed, hgone] using hclosed
    · rw [hm.history, hhistory, List.append_assoc]
    · intro entry hmem
      rcases List.mem_append.mp hmem with hold | hnew
      · exact hunused entry hold
      · rw [List.mem_singleton.mp hnew]
        exact huses

/-- One call has the handle for itself where it is marked busy, and none where it is not, so sends,
cancels and closes do not overlap. A wait for the handle ends as the place of the handle says at
that moment. Once the handle has been given up, nobody takes it or asks it for anything. -/
theorem exclusive_access {l : Ledger α} (reachable : l.Reachable) :
    (l.calls.countP holds = l.connection.slot.busy.toNat ∧
      l.calls.countP (fun named => named.call.isGuarded) ≤ 1) ∧
    (∀ named ∈ l.calls, (named.call.wait? l.connection.tuning).isSome = true → ∀ input,
      (named.call.step l.connection input).isSome = input.mayEndWait l.connection.slot ∧
      ∀ s, named.call.step l.connection input = some s →
        (Call.TurnedAway l.connection .closed named.call s ↔
          l.connection.slot.present = false) ∧
        (Call.TurnedAway l.connection .timedOut named.call s ↔
          l.connection.slot.present = true ∧ l.connection.slot.busy = true) ∧
        (Call.Admitted { l.connection with slot := { l.connection.slot with busy := true } }
          named.call s ↔ l.connection.slot.present = true ∧ l.connection.slot.busy = false)) ∧
    (l.connection.slot.present = false → ∀ l', l.Reaches l' →
      l'.connection.slot.present = false ∧ (∀ named ∈ l'.calls, named.call.request? = none) ∧
      ∃ since, l'.history = l.history ++ since ∧ ∀ entry ∈ since, ¬ entry.2.UsesHandle) := by
  refine ⟨⟨reachable.exclusive, reachable.exclusive.countP_isGuarded_le⟩, ?_, ?_⟩
  · intro named _ hwaits input
    exact ⟨Call.step_isSome_of_wait hwaits, fun s hs => Call.step_of_wait hwaits hs⟩
  · intro hgone l' hreaches
    obtain ⟨hgone', hsince⟩ := hreaches.unused reachable hgone
    have hretired := (hreaches.reachable reachable).retired hgone'
    exact ⟨hgone', fun named hmem => (hretired.spent named hmem).request?_eq_none, hsince⟩

end Ledger

end WorkerLink

namespace WorkerLink.Ledger

attribute [local instance] Memory.kilobyte

/-- A shutdown that is at the handle is called again out of it, in vain, while a dispatch waits to
close the handle. The dispatch then closes it, and a send comes too late. -/
theorem exclusive_access_at_close : ∃ l l' : Ledger Unit, l.Reachable ∧ l.Reaches l' ∧
    l.calls.countP holds = 1 ∧ l.connection.slot.present = false ∧
    l'.fate 17 = some (.ends (.sent (.error (.unavailable .closed)))) ∧
    (∀ named ∈ l'.calls, named.call.request? = none) ∧
    ∃ since, l'.history = l.history ++ since ∧ ∀ entry ∈ since, ¬ entry.2.UsesHandle := by
  obtain ⟨l, hl, hbusy, hgone, l', hl', hfate⟩ : ∃ l,
      Ledger.follow (Ledger.spawn { connection := .start 7 {} })
        [(0, .start (.dispatch ⟨fun _ => .ok (), fun _ => .ok []⟩ .unserialized)),
          (0, .goOn .proceed), (0, .goOn .proceed), (0, .goOn .proceed), (0, .goOn (.alive false)),
          (0, .goOn .proceed), (0, .goOn .proceed), (0, .goOn .returned),
          (1, .start .shutdown), (1, .goOn .proceed), (1, .start .shutdown), (1, .goOn .timeUp),
          (1, .goOn .returned), (0, .goOn .proceed), (0, .goOn .returned), (0, .goOn .proceed)] =
        some l ∧
      l.connection.slot.busy = true ∧ l.connection.slot.present = false ∧
      ∃ l', l.follow [(0, .goOn .proceed), (1, .start (.send (.ok []))), (1, .goOn .proceed),
          (0, .goOn .proceed)] = some l' ∧
        l'.fate 17 = some (.ends (.sent (.error (.unavailable .closed)))) :=
    ⟨_, rfl, rfl, rfl, _, rfl, rfl⟩
  have hr := (Reachable.start 7 {}).spawn.follow hl
  have hreaches := reaches_follow hl'
  obtain ⟨⟨hcount, _⟩, _, hafter⟩ := exclusive_access hr
  obtain ⟨_, hquiet, hsince⟩ := hafter hgone l' hreaches
  rw [hbusy] at hcount
  exact ⟨l, l', hr, hreaches, hcount, hgone, hfate, hquiet, hsince⟩

end WorkerLink.Ledger
