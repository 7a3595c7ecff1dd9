import WorkerLink.Proofs.Connection.Telling

/-!
# One run and one end of stream

Four updates of a dispatch guard each other: it sets the running flag before it
looks at anything, reads only if the connection is not done, is done before it
tells the last event, and takes the running flag back after that. `Single` says
what holds between them at every moment. From it at most one dispatch ever
begins to read, and the last event is told at most once and is the last,
whatever the threads do, and also where the receiver or the handle raises.
-/

namespace WorkerLink

variable {α : Type}

/-- The flags of the connection suit a dispatch under way. -/
structure Dispatch.Fits (run : Dispatch α) (c : Connection) : Prop where
  dispatching : c.dispatching = true
  reading : run.stage.phase = .reading → c.done = false
  ending : run.stage.phase = .ending → c.done = true

theorem Dispatch.Passes.done_of_done {c c' : Connection} {phase phase' : Phase}
    (h : Passes c c' phase phase') (done : c.done = true) : c'.done = true := by
  cases h with
  | stays _ hs => rw [hs, done]
  | begins hd _ => rw [done] at hd; cases hd
  | stops hs =>
    rcases hs with hs | hs
    · rw [hs, done]
    · exact hs
  | concludes hs => exact hs

theorem Dispatch.Advances.fits {run run' : Dispatch α} {c c' : Connection}
    (h : Advances c c' run run') (fits : run.Fits c) : run'.Fits c' := by
  have hpasses := h.passes
  refine ⟨by rw [h.dispatching, fits.dispatching], fun hr => ?_, fun he => ?_⟩
  · rw [hr] at hpasses
    generalize hp : run.stage.phase = phase at hpasses
    cases hpasses with
    | stays _ hs => rw [hs, fits.reading hp]
    | begins _ hd => exact hd
  · rw [he] at hpasses
    generalize hp : run.stage.phase = phase at hpasses
    cases hpasses with
    | stays _ hs => rw [hs, fits.ending hp]
    | concludes hd => exact hd

/-- A dispatch that tells nothing has no use for its host. -/
theorem Machine.not_holdsHost {run : Dispatch α} (h : ∀ event, run.stage ≠ .notifying event) :
    holdsHost (.dispatch run) = false := by
  have hnone : (Call.dispatch run).event? = none := by
    cases hs : run.stage <;> simp [Call.event?, hs]
    exact h _ hs
  simp [holdsHost, Call.isInsideHost, hnone]

/-- The last event stands at the end and nowhere else. -/
theorem Delivered.nothing_after {deeds : List (Deed α)} {last : Bool} (h : Delivered deeds last)
    {before after : List (Event α)} (split : told deeds = before ++ .endOfStream :: after) :
    (∀ event ∈ before, event.isEndOfStream = false) ∧ after = [] := by
  obtain ⟨events, hevents, htold⟩ := h
  rw [htold] at split
  have hnot : Event.endOfStream ∉ events := fun hmem => nomatch hevents _ hmem
  cases last with
  | false =>
    rw [if_neg Bool.false_ne_true, List.append_nil] at split
    exact False.elim (hnot (by simp [split]))
  | true =>
    rw [if_pos rfl] at split
    rcases List.eq_nil_or_concat after with rfl | ⟨rest, event, rfl⟩
    · have hevents' := List.append_inj_left' split rfl
      rw [← hevents']
      exact ⟨hevents, rfl⟩
    · have hsplit : events ++ [.endOfStream] = (before ++ .endOfStream :: rest) ++ [event] := by
        simpa using split
      have hmem := List.append_inj_left' hsplit rfl
      exact False.elim (hnot (by simp [hmem]))

namespace Ledger

def Begun (l : Ledger α) (name : Nat) : Prop := WorkerLink.Begun (l.deeds name)

def Dispatches (l : Ledger α) (name : Nat) (run : Dispatch α) : Prop :=
  ⟨name, .dispatch run⟩ ∈ l.calls

/-- At most one dispatch is under way and the flags suit it. At most one has ever begun, and if it
is gone, the connection is done, or else the running flag stands for good. -/
structure Single (l : Ledger α) : Prop where
  one : ∀ n m run run', l.Dispatches n run → l.Dispatches m run' → n = m
  fits : ∀ n run, l.Dispatches n run → run.Fits l.connection
  begun : ∀ n m, l.Begun n → l.Begun m → n = m
  gone : ∀ n, l.Begun n → (∀ run, ¬ l.Dispatches n run) → l.connection.done = true ∨
    l.connection.dispatching = true ∧ ∀ m run, ¬ l.Dispatches m run

/-- Another dispatch that has begun is gone, and this one is not, so the connection is done. -/
theorem Single.done_of_begun {l : Ledger α} (s : Single l) {name : Nat} {run : Dispatch α}
    (self : l.Dispatches name run) {n : Nat} (begun : l.Begun n) (ne : n ≠ name) :
    l.connection.done = true := by
  have hgone : ∀ r, ¬ l.Dispatches n r := fun r hr => ne (s.one n name r run hr self)
  rcases s.gone n begun hgone with hdone | ⟨_, hnone⟩
  · exact hdone
  · exact False.elim (hnone name run self)

def told (l : Ledger α) (name : Nat) : List (Event α) := WorkerLink.told (l.deeds name)

/-- What all receivers together have been told, in order. -/
def toldByAll (l : Ledger α) : List (Event α) := WorkerLink.told (l.history.map Prod.snd)

theorem toldByAll_snoc {l l' : Ledger α} {name : Nat} {deed : Deed α}
    (h : l'.history = l.history ++ [(name, deed)]) :
    l'.toldByAll = l.toldByAll ++ deed.delivery?.toList := by
  rw [toldByAll, h, List.map_append, List.map_singleton, told_snoc, toldByAll]

/-- Where one call alone has begun, it alone tells. -/
theorem toldByAll_eq {l : Ledger α} {name : Nat} (only : ∀ n, l.Begun n → n = name) :
    l.toldByAll = l.told name := by
  simp only [toldByAll, told, WorkerLink.told, deeds, List.filterMap_map, List.filterMap_filterMap]
  refine List.filterMap_congr fun entry hmem => ?_
  obtain ⟨n, d⟩ := entry
  by_cases he : n = name
  · simp [he]
  · have hnone : d.delivery? = none := by
      cases hv : d.delivery? with
      | none => rfl
      | some event =>
        exact False.elim (he (only n ⟨d, mem_deeds.mpr hmem, Deed.runs_of_delivery hv⟩))
    simp [he, hnone]

theorem toldByAll_eq_nil {l : Ledger α} (none : ∀ n, ¬ l.Begun n) : l.toldByAll = [] := by
  refine List.filterMap_eq_nil_iff.mpr fun d hd => ?_
  obtain ⟨⟨n, d⟩, hmem, rfl⟩ := List.mem_map.mp hd
  cases hv : d.delivery? with
  | none => rfl
  | some event => exact False.elim (none n ⟨d, mem_deeds.mpr hmem, Deed.runs_of_delivery hv⟩)

end Ledger

variable [Memory]

/-- A deed that neither starts nor moves a dispatch. -/
structure Deed.Aside (c c' : Connection) (d : Deed α) : Prop where
  cause : ∀ run input, d.cause ≠ .goOn (.dispatch run) input
  next : ∀ run, d.next ≠ .goesOn (.dispatch run)
  done : c'.done = c.done
  dispatching : c'.dispatching = c.dispatching

/-- What a deed has to do with dispatches. -/
theorem Deed.Does.sort {c c' : Connection} {d : Deed α} (h : d.Does c c') :
    d.Aside c c' ∨
    (∃ codec host, d = ⟨.start (.dispatch codec host), .goesOn (.dispatch { codec, host })⟩ ∧
      c.dispatching = false ∧ c' = { c with dispatching := true }) ∨
    ∃ run input next, d = ⟨.goOn (.dispatch run) input, next⟩ ∧
      Dispatch.Goes run c input c' next := by
  cases h with
  | starts hs =>
    cases hs with
    | lacksPayload => exact .inl ⟨by simp, by simp, rfl, rfl⟩
    | sends => exact .inl ⟨by simp, by simp, rfl, rfl⟩
    | shutsDown => exact .inl ⟨by simp, by simp, rfl, rfl⟩
    | refuses _ => exact .inl ⟨by simp, by simp, rfl, rfl⟩
    | dispatches hd => exact .inr (.inl ⟨_, _, rfl, hd, rfl⟩)
  | goesOn hg =>
    cases hg with
    | takesHandle hc _ =>
      obtain ⟨_, _, rfl⟩ := Connection.claim_eq_ok.mp hc
      exact .inl ⟨by simp, by simp, rfl, rfl⟩
    | frames _ => exact .inl ⟨by simp, by simp, rfl, rfl⟩
    | lacksMemory _ => exact .inl ⟨by simp, by simp, rfl, rfl⟩
    | lacksHandle _ => exact .inl ⟨by simp, by simp, rfl, rfl⟩
    | wrote => exact .inl ⟨by simp, by simp, rfl, rfl⟩
    | cancels hc =>
      obtain ⟨_, _, rfl⟩ := Connection.claim_eq_ok.mp hc
      exact .inl ⟨by simp, by simp, rfl, rfl⟩
    | skipsCancel _ => exact .inl ⟨by simp, by simp, rfl, rfl⟩
    | cancelled => exact .inl ⟨by simp, by simp, rfl, rfl⟩
    | sendRaises => exact .inl ⟨by simp, by simp, rfl, rfl⟩
    | cancelRaises => exact .inl ⟨by simp, by simp, rfl, rfl⟩
    | dispatches hd => exact .inr (.inr ⟨_, _, _, rfl, hd⟩)

namespace Ledger

section Preservation

variable {l l' : Ledger α} {name : Nat} {deed : Deed α} {before after : List (Named α)}

theorem Moves.begun_iff (h : Moves l l' name deed before after) {n : Nat} :
    l'.Begun n ↔ l.Begun n ∨ n = name ∧ deed.Runs := by
  by_cases he : n = name
  · subst he
    rw [Begun, h.deeds_self, begun_snoc]
    simp [Begun]
  · rw [Begun, h.deeds_other he]
    simp [Begun, he]

theorem Moves.dispatches_next_iff (h : Moves l l' name deed before after) {n : Nat}
    {run : Dispatch α} : l'.Dispatches n run ↔
      (⟨n, .dispatch run⟩ ∈ before ∨ ⟨n, .dispatch run⟩ ∈ after) ∨
        n = name ∧ deed.next = .goesOn (.dispatch run) := by
  rw [Dispatches, h.mem_calls_next, Deed.mem_left]

theorem Moves.dispatches_iff (h : Moves l l' name deed before after) {n : Nat}
    {run : Dispatch α} : l.Dispatches n run ↔
      (⟨n, .dispatch run⟩ ∈ before ∨ ⟨n, .dispatch run⟩ ∈ after) ∨
        n = name ∧ ∃ input, deed.cause = .goOn (.dispatch run) input := by
  have hfound : ⟨n, .dispatch run⟩ ∈ deed.found name ↔
      n = name ∧ ∃ input, deed.cause = .goOn (.dispatch run) input := by
    unfold Deed.found
    cases hc : deed.cause with
    | start operation => simp
    | goOn call input => simp [eq_comm]
  rw [Dispatches, h.mem_calls, hfound]

theorem Single.aside (s : Single l) (h : Moves l l' name deed before after)
    (aside : deed.Aside l.connection l'.connection) : Single l' := by
  have same {n : Nat} {run : Dispatch α} : l'.Dispatches n run ↔ l.Dispatches n run := by
    rw [h.dispatches_next_iff, h.dispatches_iff]
    simp [aside.cause, aside.next]
  have begun {n : Nat} : l'.Begun n ↔ l.Begun n := by
    rw [h.begun_iff]
    simp [Deed.not_runs aside.next]
  refine ⟨?_, ?_, ?_, ?_⟩
  · intro n m run run' hn hm
    exact s.one n m run run' (same.mp hn) (same.mp hm)
  · intro n run hn
    have hf := s.fits n run (same.mp hn)
    refine ⟨?_, ?_, ?_⟩
    · rw [aside.dispatching, hf.dispatching]
    · rw [aside.done]
      exact hf.reading
    · rw [aside.done]
      exact hf.ending
  · intro n m hn hm
    exact s.begun n m (begun.mp hn) (begun.mp hm)
  · intro n hn hgone
    simp only [aside.done, aside.dispatching, same]
    exact s.gone n (begun.mp hn) fun run hrun => hgone run (same.mpr hrun)

theorem Single.opens (s : Single l) {codec : Codec α} {host : Host}
    (h : Moves l l' name ⟨.start (.dispatch codec host), .goesOn (.dispatch { codec, host })⟩
      before after) (free : l.connection.dispatching = false)
    (flags : l'.connection = { l.connection with dispatching := true }) : Single l' := by
  have none {n : Nat} {run : Dispatch α} : ¬ l.Dispatches n run := by
    intro hn
    have hd := (s.fits n run hn).dispatching
    rw [free] at hd
    cases hd
  have only {n : Nat} {run : Dispatch α} :
      l'.Dispatches n run ↔ n = name ∧ run = { codec, host } := by
    have hnone : ¬ l.Dispatches n run := none
    rw [h.dispatches_iff, not_or] at hnone
    rw [h.dispatches_next_iff]
    simp [hnone.1, eq_comm]
  have begun {n : Nat} : l'.Begun n ↔ l.Begun n := by
    rw [h.begun_iff]
    simp [Deed.Runs, Stage.phase]
  refine ⟨?_, ?_, ?_, ?_⟩
  · intro n m run run' hn hm
    rw [(only.mp hn).1, (only.mp hm).1]
  · intro n run hn
    obtain ⟨_, rfl⟩ := only.mp hn
    exact ⟨by rw [flags], by simp [Stage.phase], by simp [Stage.phase]⟩
  · intro n m hn hm
    exact s.begun n m (begun.mp hn) (begun.mp hm)
  · intro n hn _
    rcases s.gone n (begun.mp hn) fun _ => none with hdone | ⟨hd, _⟩
    · exact .inl (by rw [flags]; exact hdone)
    · rw [free] at hd
      cases hd

/-- A dispatch that moves is the only one. -/
theorem Single.alone (s : Single l) (sound : Sound l) {run : Dispatch α} {input : Input}
    {next : Next α} (h : Moves l l' name ⟨.goOn (.dispatch run) input, next⟩ before after)
    {n : Nat} {run' : Dispatch α} :
    ¬ (⟨n, .dispatch run'⟩ ∈ before ∨ ⟨n, .dispatch run'⟩ ∈ after) := by
  intro hmem
  have hself : l.Dispatches name run := h.dispatches_iff.mpr (.inr ⟨rfl, input, rfl⟩)
  have hother : l.Dispatches n run' := h.dispatches_iff.mpr (.inl hmem)
  exact sound.name_ne h hmem (s.one n name run' run hother hself)

/-- After a dispatch has moved there is no other one. -/
theorem Single.only (s : Single l) (sound : Sound l) {run : Dispatch α} {input : Input}
    {next : Next α} (h : Moves l l' name ⟨.goOn (.dispatch run) input, next⟩ before after)
    {n : Nat} {run' : Dispatch α} :
    l'.Dispatches n run' ↔ n = name ∧ next = .goesOn (.dispatch run') := by
  rw [h.dispatches_next_iff, or_iff_right (s.alone sound h)]

/-- The dispatch goes on. -/
theorem Single.advances (s : Single l) (sound : Sound l) {run run' : Dispatch α} {input : Input}
    (h : Moves l l' name ⟨.goOn (.dispatch run) input, .goesOn (.dispatch run')⟩ before after)
    (ha : Dispatch.Advances l.connection l'.connection run run') : Single l' := by
  have hself : l.Dispatches name run := h.dispatches_iff.mpr (.inr ⟨rfl, input, rfl⟩)
  have hstands : l.Begun name ↔ run.stage.phase ≠ .deciding := (sound.trail _ hself).stands.1
  have first {n : Nat} (hn : l.Begun n) (hr : run'.stage.phase ≠ .deciding) : n = name := by
    by_contra ne
    have hdone := s.done_of_begun hself hn ne
    have hpasses := ha.passes
    by_cases hp : run.stage.phase = .deciding
    · rw [hp] at hpasses
      generalize run'.stage.phase = phase at hpasses hr
      cases hpasses with
      | stays _ _ => exact hr rfl
      | begins hd _ => rw [hdone] at hd; cases hd
    · exact ne (s.begun n name hn (hstands.mpr hp))
  have runs : Deed.Runs ⟨.goOn (.dispatch run) input, .goesOn (.dispatch run')⟩ ↔
      run'.stage.phase ≠ .deciding :=
    ⟨fun ⟨r, hr, hp⟩ => by cases hr; exact hp, fun hp => ⟨run', rfl, hp⟩⟩
  refine ⟨?_, ?_, ?_, ?_⟩
  · intro n m r r' hn hm
    rw [((s.only sound h).mp hn).1, ((s.only sound h).mp hm).1]
  · intro n r hn
    cases ((s.only sound h).mp hn).2
    exact ha.fits (s.fits name run hself)
  · intro n m hn hm
    rw [h.begun_iff, runs] at hn hm
    rcases hn with hn | ⟨rfl, hn⟩
    · rcases hm with hm | ⟨rfl, hm⟩
      · exact s.begun n m hn hm
      · exact first hn hm
    · rcases hm with hm | ⟨rfl, _⟩
      · exact (first hm hn).symm
      · rfl
  · intro n hn hgone
    have ne : n ≠ name := fun he => hgone run' ((s.only sound h).mpr ⟨he, rfl⟩)
    rcases h.begun_iff.mp hn with hn | ⟨he, _⟩
    · exact .inl (ha.passes.done_of_done (s.done_of_begun hself hn ne))
    · exact False.elim (ne he)

/-- The dispatch is gone. -/
theorem Single.departs (s : Single l) (sound : Sound l) {run : Dispatch α} {input : Input}
    {next : Next α} (h : Moves l l' name ⟨.goOn (.dispatch run) input, next⟩ before after)
    (ended : ∀ run', next ≠ .goesOn (.dispatch run'))
    (flags : ∀ n, l.Begun n → l'.connection.done = true ∨ l'.connection.dispatching = true) :
    Single l' := by
  have hnone {n : Nat} {r : Dispatch α} : ¬ l'.Dispatches n r :=
    fun hn => ended r ((s.only sound h).mp hn).2
  have begun {n : Nat} : l'.Begun n ↔ l.Begun n := by
    have hnot : ¬ Deed.Runs ⟨.goOn (.dispatch run) input, next⟩ := Deed.not_runs ended
    rw [h.begun_iff]
    simp [hnot]
  refine ⟨?_, ?_, ?_, ?_⟩
  · intro n m r r' hn _
    exact False.elim (hnone hn)
  · intro n r hn
    exact False.elim (hnone hn)
  · intro n m hn hm
    exact s.begun n m (begun.mp hn) (begun.mp hm)
  · intro n hn _
    exact (flags n (begun.mp hn)).imp_right fun hd => ⟨hd, fun _ _ => hnone⟩

theorem Single.goes (s : Single l) (sound : Sound l) {run : Dispatch α} {input : Input}
    {next : Next α} (h : Moves l l' name ⟨.goOn (.dispatch run) input, next⟩ before after)
    (goes : Dispatch.Goes run l.connection input l'.connection next) : Single l' := by
  have hself : l.Dispatches name run := h.dispatches_iff.mpr (.inr ⟨rfl, input, rfl⟩)
  have hfits := s.fits name run hself
  have hstands : l.Begun name ↔ run.stage.phase ≠ .deciding := (sound.trail _ hself).stands.1
  cases hnext : next with
  | goesOn call =>
    subst hnext
    obtain ⟨run', rfl, ha⟩ := goes.advances
    exact s.advances sound h ha
  | ends outcome =>
    subst hnext
    obtain ⟨_, hflags, hstage⟩ := goes.ends
    refine s.departs sound h (by simp) fun n hn => .inl ?_
    rw [hflags]
    by_cases he : n = name
    · subst he
      have hp := hstands.mp hn
      rcases hstage with ⟨hs, _⟩ | ⟨hs, _⟩
      · exact False.elim (hp (by rw [hs]; rfl))
      · exact hfits.ending (by rw [hs]; rfl)
    · exact s.done_of_begun hself hn he
  | unwinds =>
    subst hnext
    obtain ⟨hflags, _⟩ := goes.unwinds
    refine s.departs sound h (by simp) fun n _ => .inr ?_
    rcases hflags with hf | hf
    · rw [hf, hfits.dispatching]
    · rw [hf]
      exact hfits.dispatching

theorem Single.moved (s : Single l) (sound : Sound l) (h : Moves l l' name deed before after) :
    Single l' := by
  rcases h.does.sort with aside | ⟨codec, host, rfl, free, flags⟩ | ⟨run, input, next, rfl, goes⟩
  · exact s.aside h aside
  · exact s.opens h free flags
  · exact s.goes sound h goes

end Preservation

theorem Reachable.single {l : Ledger α} (h : Reachable l) : Single l := by
  induction h with
  | start pid tuning =>
    refine ⟨?_, ?_, ?_, ?_⟩ <;> simp [Dispatches, calls, Begun, deeds, WorkerLink.Begun]
  | @spawn l _ ih =>
    have same {n : Nat} {run : Dispatch α} : l.spawn.Dispatches n run ↔ l.Dispatches n run := by
      rw [Dispatches, calls_spawn, Dispatches]
    refine ⟨?_, ?_, ih.begun, ?_⟩
    · simpa only [same] using ih.one
    · intro n run hn
      exact ih.fits n run (same.mp hn)
    · intro n hn hgone
      simp only [same] at hgone ⊢
      exact ih.gone n hn hgone
  | next hr hn ih =>
    obtain ⟨_, _, _, _, hm⟩ := moves_of_next hn
    exact ih.moved hr.sound hm

end Ledger

/-- How many steps a dispatch may still take before it begins or is refused. -/
def Stage.patience : Stage α → Nat
  | .claiming => 3
  | .confirming => 2
  | .refusing => 1
  | _ => 0

/-- Nothing stands in the way of a dispatch that has not begun. -/
theorem Dispatch.decides {run : Dispatch α} (c : Connection) (h : run.stage.phase = .deciding) :
    ∃ s, run.step c .proceed = some s ∧
      (s.next = .ends (.dispatched (.error .closed)) ∨
        ∃ run', s.next = .goesOn (.dispatch run') ∧ (∀ event, run'.stage ≠ .notifying event) ∧
          run'.stage.patience < run.stage.patience) := by
  rcases Stage.phase_eq_deciding.mp h with hs | hs | hs
  · simp only [step, hs]
    refine ⟨_, rfl, .inr ⟨_, rfl, ?_, ?_⟩⟩ <;> cases c.slot.present <;> simp [Stage.patience]
  · simp only [step, hs]
    by_cases hd : c.done = true
    · rw [if_pos hd]
      exact ⟨_, rfl, .inr ⟨_, rfl, nofun, Nat.lt_succ_self 1⟩⟩
    · rw [if_neg hd]
      exact ⟨_, rfl, .inr ⟨_, rfl, nofun, Nat.zero_lt_succ 1⟩⟩
  · simp only [step, hs]
    exact ⟨_, rfl, .inl rfl⟩

namespace Ledger

/-- A dispatch that has not begun can take its next step at once, whatever the others do, and with
it comes closer to a decision. -/
theorem Reachable.decides {l : Ledger α} (h : Reachable l) {name : Nat} {run : Dispatch α}
    (under : l.Dispatches name run) (deciding : run.stage.phase = .deciding) :
    ∃ thread l', l.next thread (.goOn .proceed) = some l' ∧
      (l'.fate name = some (.ends (.dispatched (.error .closed))) ∨
        ∃ run', l'.fate name = some (.goesOn (.dispatch run')) ∧
          run'.stage.patience < run.stage.patience) := by
  obtain ⟨thread, below, _, hstack⟩ := h.nested.newest under (Dispatch.inside_of_deciding deciding)
  obtain ⟨s, hstep, hnext⟩ := Dispatch.decides l.connection deciding
  have hhost : l.machine.hostAfter thread (.dispatch run) s = some l.machine.hostHolder := by
    have hold : Machine.holdsHost (.dispatch run) = false := by
      apply Machine.not_holdsHost
      rcases Stage.phase_eq_deciding.mp deciding with hs | hs | hs <;> simp [hs]
    rcases hnext with hn | ⟨run', hn, hsilent, _⟩
    · simp [Machine.hostAfter, hold, hn]
    · simp [Machine.hostAfter, hold, hn, Machine.not_holdsHost hsilent]
  have hl := next_goOn_eq_some_iff.mpr
    ⟨name, .dispatch run, below, s, _, hstack, hstep, hhost, rfl⟩
  refine ⟨thread, _, hl, ?_⟩
  have hfate : ∀ m d, (l.settle thread name below m d).fate name = some d.next := by
    intro m d
    simp [fate, deeds, settle]
  rw [hfate]
  rcases hnext with hn | ⟨run', hn, _, hlt⟩
  · exact .inl (by rw [hn])
  · exact .inr ⟨run', by rw [hn], hlt⟩

/-- The dispatch has been refused, or it can take its next step at once and then is refused or
closer to a decision. -/
def Declines (l : Ledger α) (name : Nat) : Prop :=
  l.fate name = some (.ends (.dispatched (.error .alreadyRunning))) ∨
  l.fate name = some (.ends (.dispatched (.error .closed))) ∨
  ∃ run thread l', l.fate name = some (.goesOn (.dispatch run)) ∧
    l.next thread (.goOn .proceed) = some l' ∧
    (l'.fate name = some (.ends (.dispatched (.error .closed))) ∨
      ∃ run', l'.fate name = some (.goesOn (.dispatch run')) ∧
        run'.stage.patience < run.stage.patience)

theorem Reachable.declines {l : Ledger α} (h : Reachable l) {name : Nat} {codec : Codec α}
    {host : Host} (opens : Opens (l.deeds name) (.dispatch codec host)) (never : ¬ l.Begun name) :
    l.Declines name := by
  have hne : l.deeds name ≠ [] := by
    obtain ⟨_, ho⟩ := opens
    intro hd
    rw [hd] at ho
    cases ho
  obtain ⟨next, ht, hcalls⟩ := h.sound.underWay name hne
  have hfate : l.fate name = some next := ht.last
  cases next with
  | ends outcome =>
    rcases ht.refused opens never with rfl | rfl
    · exact .inl hfate
    · exact .inr (.inl hfate)
  | unwinds => exact False.elim (never (ht.unwound opens))
  | goesOn call =>
    obtain ⟨run, rfl, _⟩ := (ht.serves opens).exists_dispatch
    have hdeciding : run.stage.phase = .deciding := by
      by_contra hp
      exact never (ht.stands.1.mpr hp)
    obtain ⟨thread, l', hl', hcloser⟩ := h.decides (hcalls _ rfl) hdeciding
    exact .inr (.inr ⟨run, thread, l', hfate, hl', hcloser⟩)

/-- At most one dispatch ever begins to read; every other one tells nothing and is refused. The last
event is told once at most, with nothing after it, and a dispatch that has begun and ended has told
it. -/
theorem single_run {l : Ledger α} (reachable : l.Reachable) :
    (∀ n m, l.Begun n → l.Begun m → n = m) ∧
    (∀ n codec host, Opens (l.deeds n) (.dispatch codec host) → ¬ l.Begun n →
      l.told n = [] ∧ l.Declines n) ∧
    (∀ before after, l.toldByAll = before ++ .endOfStream :: after →
      (∀ event ∈ before, event.isEndOfStream = false) ∧ after = []) ∧
    ∀ n outcome, l.Begun n → l.fate n = some (.ends outcome) →
      ∃ events, (∀ event ∈ events, event.isEndOfStream = false) ∧
        l.told n = events ++ [.endOfStream] := by
  have hsingle := reachable.single.begun
  have hsound := reachable.sound
  refine ⟨hsingle, ?_, ?_, ?_⟩
  · intro n codec host opens never
    exact ⟨told_of_not_begun never, reachable.declines opens never⟩
  · intro before after hsplit
    by_cases hb : ∃ n, l.Begun n
    · obtain ⟨n, hn⟩ := hb
      rw [toldByAll_eq fun m hm => hsingle m n hm hn] at hsplit
      obtain ⟨d, hd, _⟩ := hn
      obtain ⟨next, ht, _⟩ := hsound.underWay n (List.ne_nil_of_mem hd)
      obtain ⟨last, hlast⟩ := ht.delivered
      exact hlast.nothing_after hsplit
    · rw [toldByAll_eq_nil fun n hn => hb ⟨n, hn⟩] at hsplit
      simp at hsplit
  · intro n outcome hn hfate
    exact (hsound.trail_of_fate hfate).finished hn

end Ledger

end WorkerLink

namespace WorkerLink.Ledger

attribute [local instance] Memory.kilobyte

/-- A receiver that starts another dispatch while it is told the end of an empty output. -/
theorem single_run_reentered : ∃ l : Ledger Unit, l.Reachable ∧ l.Begun 0 ∧
    l.fate 7 = some (.ends (.dispatched (.error .alreadyRunning))) ∧
    (∀ n, l.Begun n → n = 0) ∧ l.toldByAll = [.endOfStream] := by
  obtain ⟨l, hl, hbegun, hfate, htold⟩ : ∃ l, Ledger.follow { connection := .start 7 {} }
      [(0, .start (.dispatch ⟨fun _ => .ok (), fun _ => .ok []⟩ .unserialized)),
        (0, .goOn .proceed), (0, .goOn .proceed), (0, .goOn .proceed), (0, .goOn (.alive false)),
        (0, .goOn .proceed), (0, .goOn .proceed),
        (0, .start (.dispatch ⟨fun _ => .ok (), fun _ => .ok []⟩ .unserialized)),
        (0, .goOn .returned), (0, .goOn .proceed), (0, .goOn .returned), (0, .goOn .proceed),
        (0, .goOn .proceed), (0, .goOn .proceed)] = some l ∧
      l.Begun 0 ∧ l.fate 7 = some (.ends (.dispatched (.error .alreadyRunning))) ∧
      l.toldByAll = [.endOfStream] := by
    refine ⟨_, rfl, ?_, rfl, rfl⟩
    exact ⟨_, .tail _ (.tail _ (.head _)), _, rfl, nofun⟩
  have hr := (Reachable.start 7 {}).follow hl
  exact ⟨l, hr, hbegun, hfate, fun n hn => (single_run hr).1 n 0 hn hbegun, htold⟩

end WorkerLink.Ledger
