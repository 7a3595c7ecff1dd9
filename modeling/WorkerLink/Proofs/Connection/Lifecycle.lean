import WorkerLink.Proofs.Connection.Access
import WorkerLink.Proofs.Connection.Delivery

/-!
# The life of a connection

What a connection tells about itself is the same for everybody and does not go
back: it is done before the receiver is told the last event, and closed after
that. At most one dispatch closes the handle, since at most one begins, and a
dispatch that has come to closing it does not come there again.
-/

namespace WorkerLink

variable {α : Type}

def Request.isClose : Request → Bool
  | .close => true
  | _ => false

namespace Deed

def closes (d : Deed α) : Bool :=
  match d.next with
  | .goesOn call => call.request?.any Request.isClose
  | .ends _ | .unwinds => false

theorem closes_iff {d : Deed α} :
    d.closes = true ↔ ∃ run, d.next = .goesOn (.dispatch run) ∧ run.stage = .closing := by
  unfold closes
  cases hn : d.next with
  | goesOn call =>
    cases call with
    | dispatch run => cases hs : run.stage <;> simp [Call.request?, Request.isClose, hs]
    | awaitingSend _ => simp [Call.request?]
    | framing _ => simp [Call.request?]
    | sending _ => simp [Call.request?, Request.isClose]
    | awaitingCancel => simp [Call.request?]
    | cancelling => simp [Call.request?, Request.isClose]
  | ends outcome => simp
  | unwinds => simp

/-- Only a dispatch that has begun closes the handle. -/
theorem runs_of_closes {d : Deed α} (h : d.closes = true) : d.Runs := by
  obtain ⟨run, hnext, hs⟩ := closes_iff.mp h
  refine ⟨run, hnext, ?_⟩
  rw [hs]
  exact nofun

end Deed

theorem Connection.currentPid_eq {c : Connection} :
    (c.currentPid = -1 ↔ c.done = true) ∧ (c.done = false → c.currentPid = c.pid) := by
  unfold currentPid deadPid
  cases c.done with
  | true => simp
  | false => simp

/-- The dispatch has not come to closing the handle. -/
def Stage.isBeforeClose : Stage α → Bool
  | .closing | .retiring | .releasing | .clearing => false
  | _ => true

theorem Dispatch.Absorbs.beforeClose {run run' : Dispatch α} {c c' : Connection} {a : Advance}
    (h : Absorbs run c a c' (.goesOn (.dispatch run'))) :
    run'.stage ≠ .closing ∧ run'.stage.isBeforeClose = true := by
  cases h <;> exact ⟨nofun, rfl⟩

def Call.isBeforeClose : Call α → Bool
  | .dispatch run => run.stage.isBeforeClose
  | _ => true

/-- How often a call has asked the handle to close, at most. -/
def Next.closeBound : Next α → Nat
  | .goesOn call => (!call.isBeforeClose).toNat
  | .ends _ | .unwinds => 1

theorem Next.closeBound_le (next : Next α) : next.closeBound ≤ 1 := by
  cases next with
  | goesOn call => exact Bool.toNat_le _
  | ends outcome => exact Nat.le_refl 1
  | unwinds => exact Nat.le_refl 1

theorem Call.event?_eq_some {call : Call α} {event : Event α} :
    call.event? = some event ↔ ∃ run, call = .dispatch run ∧ run.stage = .notifying event := by
  cases call with
  | dispatch run => cases hs : run.stage <;> simp [event?, hs]
  | awaitingSend _ | framing _ => simp [event?]
  | sending _ => simp [event?]
  | awaitingCancel => simp [event?]
  | cancelling => simp [event?]

namespace Ledger

def closeCalls (l : Ledger α) : Nat := l.history.countP fun entry => entry.2.closes

/-- All that has asked the handle to close is the one dispatch that has begun. -/
theorem closeCalls_eq {l : Ledger α} {name : Nat} (only : ∀ n, l.Begun n → n = name) :
    l.closeCalls = (l.deeds name).countP Deed.closes := by
  rw [closeCalls, deeds, List.countP_filterMap]
  refine List.countP_congr fun entry hmem => ?_
  obtain ⟨n, d⟩ := entry
  by_cases he : n = name
  · simp [he]
  · have hnot : d.closes = false := by
      rw [Bool.eq_false_iff]
      intro hc
      exact he (only n ⟨d, mem_deeds.mpr hmem, Deed.runs_of_closes hc⟩)
    simp [he, hnot]

end Ledger

variable [Memory]

/-- A dispatch comes to closing the handle from before it, and does not get before it again. -/
theorem Dispatch.Goes.beforeClose {run run' : Dispatch α} {c c' : Connection} {input : Input}
    (h : Goes run c input c' (.goesOn (.dispatch run'))) :
    run'.stage = .closing ∧ run.stage.isBeforeClose = true ∨
      run'.stage ≠ .closing ∧
        (run'.stage.isBeforeClose = true → run.stage.isBeforeClose = true) := by
  cases h with
  | closes hs _ _ => exact .inl ⟨rfl, by rw [hs]; rfl⟩
  | closed _ | retires _ | releases _ | abandons _ _ _ => exact .inr ⟨nofun, nofun⟩
  | found hs _ | missed hs _ | tooLate hs _ | begins hs _ | leaves hs _ | probes hs _
  | inactive hs _ | fails hs | hearsNothing hs | retries hs | decodes hs _ | stumbles hs _
  | concludes hs | delivers hs | continues hs _ | finishes hs _ =>
    exact .inr ⟨nofun, fun _ => by rw [hs]; rfl⟩
  | seeks hs ha | givesUp hs ha => exact .inr ⟨ha.beforeClose.1, fun _ => by rw [hs]; rfl⟩
  | hears hs _ ha => exact .inr ⟨ha.beforeClose.1, fun _ => by rw [hs]; rfl⟩

/-- A step that leaves the handle closing uses up what the call had left. -/
theorem Call.Goes.closeBound {c c' : Connection} {call : Call α} {input : Input} {next : Next α}
    (h : Goes c call input c' next) : (Next.goesOn call).closeBound +
      (Deed.closes ⟨.goOn call input, next⟩).toNat ≤ next.closeBound := by
  cases next with
  | ends outcome => exact Next.closeBound_le (.goesOn call)
  | unwinds => exact Next.closeBound_le (.goesOn call)
  | goesOn call' =>
    cases h with
    | takesHandle _ _ => exact Nat.le_refl 0
    | frames _ => exact Nat.le_refl 0
    | cancels _ _ => exact Nat.le_refl 0
    | @dispatches run _ _ _ hd =>
      obtain ⟨run', rfl, -⟩ := hd.advances
      rcases hd.beforeClose with ⟨hs, hbefore⟩ | ⟨hs, hbefore⟩
      · have hclosing : (Stage.closing : Stage α).isBeforeClose = false := rfl
        simp [Next.closeBound, Call.isBeforeClose, Deed.closes, Call.request?, Request.isClose, hs,
          hbefore, hclosing]
      · have hnot : Deed.closes ⟨.goOn (.dispatch run) input, .goesOn (.dispatch run')⟩ =
            false := by
          rw [Bool.eq_false_iff]
          intro hc
          obtain ⟨_, hnext, hclosing⟩ := Deed.closes_iff.mp hc
          cases hnext
          exact hs hclosing
        rw [hnot, Bool.toNat_false, Nat.add_zero]
        cases hb : run'.stage.isBeforeClose with
        | true => simp [Next.closeBound, Call.isBeforeClose, hbefore hb]
        | false => simp [Next.closeBound, Call.isBeforeClose, hb, Bool.toNat_le]

/-- A call asks the handle to close once at most. -/
theorem Trail.countP_closes_le {deeds : List (Deed α)} {next : Next α} (h : Trail deeds next) :
    deeds.countP Deed.closes ≤ next.closeBound := by
  induction h with
  | @start operation _ _ next hs =>
    have hnot : Deed.closes ⟨.start operation, next⟩ = false := by cases hs <;> rfl
    rw [List.countP_singleton, hnot]
    exact Nat.zero_le _
  | @goOn _ call input _ _ next _ hg ih =>
    have hstep := hg.closeBound
    rw [List.countP_append, List.countP_singleton]
    cases hc : Deed.closes ⟨.goOn call input, next⟩ <;> simp [hc] at hstep ⊢ <;> omega

namespace Ledger

theorem Reachable.closeCalls_le {l : Ledger α} (h : l.Reachable) : l.closeCalls ≤ 1 := by
  by_cases hb : ∃ n, l.Begun n
  · obtain ⟨n, hn⟩ := hb
    rw [closeCalls_eq fun m hm => h.single.begun m n hm hn]
    obtain ⟨d, hd, _⟩ := hn
    obtain ⟨next, ht, _⟩ := h.sound.underWay n (List.ne_nil_of_mem hd)
    exact Nat.le_trans ht.countP_closes_le next.closeBound_le
  · have hzero : l.closeCalls = 0 := by
      refine List.countP_eq_zero.mpr fun entry hmem hc => hb ⟨entry.1, entry.2, ?_, ?_⟩
      · exact mem_deeds.mpr hmem
      · exact Deed.runs_of_closes hc
    omega

end Ledger

/-- Only a dispatch ends as one. -/
theorem Trail.opens_dispatch {deeds : List (Deed α)} {result : Except DispatchError Summary}
    (h : Trail deeds (.ends (.dispatched result))) :
    ∃ codec host, Opens deeds (.dispatch codec host) := by
  cases h with
  | start hs =>
    cases hs with
    | refuses _ => exact ⟨_, _, _, rfl⟩
  | @goOn deeds call input c c' _ ht hg =>
    obtain ⟨operation, ho⟩ := ht.opens
    have hserves := ht.serves ho
    cases hg with
    | dispatches _ =>
      cases operation with
      | dispatch codec host => exact ⟨codec, host, (opens_snoc ht.ne_nil).mpr ho⟩
      | send _ => cases hserves
      | shutdown => cases hserves

/-- Reading does not stop because the connection was done. -/
theorem Dispatch.Stops.ne_done {failed : Bool} {rest : Bytes} {reason : StopReason}
    (h : Stops failed rest reason) : reason ≠ .done := by
  obtain ⟨error, _, rfl | ⟨rfl, _⟩ | ⟨_, fault, rfl⟩⟩ := h <;> exact nofun

/-- A dispatch that ends well has stopped for a reason of its own. -/
theorem Trail.stopReason_ne_done {deeds : List (Deed α)} {summary : Summary}
    (h : Trail deeds (.ends (.dispatched (.ok summary)))) (steady : ∀ d ∈ deeds, ¬ d.Leaves) :
    summary.stopReason ≠ .done := by
  obtain ⟨codec, host, opens⟩ := h.opens_dispatch
  by_cases begun : Begun deeds
  · obtain ⟨run, _, hresult, events, _, frames, rest, _, _, hstops⟩ := h.over opens begun steady
    have hsummary := Dispatch.result_eq_ok (Outcome.dispatched.inj hresult).symm
    rw [hsummary]
    exact hstops.ne_done
  · rcases h.refused opens begun with h | h <;> cases h

namespace Ledger

/-- While the receiver is told an event, the connection is done if it is the last one, and is not
closed. -/
theorem Reachable.done_of_event {l : Ledger α} (h : l.Reachable) {named : Named α}
    (under : named ∈ l.calls) {event : Event α} (tells : named.call.event? = some event) :
    l.connection.done = event.isEndOfStream ∧ l.connection.isClosed = false := by
  obtain ⟨run, hcall, hs⟩ := Call.event?_eq_some.mp tells
  have hdispatches : l.Dispatches named.name run := by
    rw [Dispatches, ← hcall]
    exact under
  have hfits := h.single.fits _ _ hdispatches
  constructor
  · cases he : event.isEndOfStream with
    | true => exact hfits.ending (by rw [hs, Stage.phase, he]; rfl)
    | false => exact hfits.reading (by rw [hs, Stage.phase, he]; rfl)
  · cases hp : l.connection.slot.present with
    | true => simp [Connection.isClosed, hp]
    | false =>
      have hspent := (h.retired hp).spent named under
      rw [hcall] at hspent
      cases he : event.isEndOfStream <;> simp [Call.Spent, hs, Stage.phase, he] at hspent

/-- Once the last event has been told, the connection is done. -/
theorem Reachable.done_of_told {l : Ledger α} (h : l.Reachable) {event : Event α}
    (told : event ∈ l.toldByAll) (last : event.isEndOfStream = true) :
    l.connection.done = true := by
  induction h with
  | start pid tuning => cases told
  | spawn _ ih => exact ih told
  | @next l l' thread move hr hn ih =>
    obtain ⟨name, deed, before, after, hm⟩ := moves_of_next hn
    rw [toldByAll_snoc hm.history, List.mem_append] at told
    rcases told with hold | hnew
    · exact hm.does.follows.done (ih hold)
    · rw [Option.mem_toList, Deed.delivery?] at hnew
      split at hnew
      · next call hnext =>
        have hunder : ⟨name, call⟩ ∈ l'.calls :=
          hm.mem_calls_next.mpr (.inr (Deed.mem_left.mpr ⟨rfl, hnext⟩))
        rw [((Reachable.next hr hn).done_of_event hunder hnew).1, last]
      · cases hnew
      · cases hnew

/-- No flag of a connection goes back, closed implies done, and the process id is told until then.
The handle is closed once at most. The receiver is told an event while the connection is not done,
and the last one while it is done but not closed, so that no dispatch stops because it finds the
connection done. -/
theorem lifecycle {l : Ledger α} {pid : Nat} {tuning : Tuning}
    (reaches : Reaches { connection := .start pid tuning } l) :
    (∀ l', l.Reaches l' → (l.connection.done = true → l'.connection.done = true) ∧
      (l.connection.cancelSend = true → l'.connection.cancelSend = true) ∧
      (l.connection.isClosed = true → l'.connection.isClosed = true)) ∧
    (l.connection.isClosed = true → l.connection.done = true) ∧
    ((l.connection.currentPid = -1 ↔ l.connection.done = true) ∧
      (l.connection.done = false → l.connection.currentPid = pid)) ∧
    l.closeCalls ≤ 1 ∧
    (∀ named ∈ l.calls, ∀ event, named.call.event? = some event →
      l.connection.done = event.isEndOfStream ∧ l.connection.isClosed = false) ∧
    (∀ event ∈ l.toldByAll, event.isEndOfStream = true → l.connection.done = true) ∧
    ∀ name summary, l.fate name = some (.ends (.dispatched (.ok summary))) →
      summary.stopReason ≠ .done := by
  have reachable := reaches.reachable (.start pid tuning)
  refine ⟨?_, ?_, ?_, reachable.closeCalls_le, ?_, ?_, ?_⟩
  · intro l' hlater
    have hfollows := hlater.follows
    exact ⟨hfollows.done, hfollows.cancelSend, hfollows.closed⟩
  · intro hclosed
    exact (reachable.retired (by simpa [Connection.isClosed] using hclosed)).done
  · have hpid : l.connection.pid = pid := reaches.follows.pid
    rw [← hpid]
    exact Connection.currentPid_eq
  · intro named hmem event htells
    exact reachable.done_of_event hmem htells
  · intro event htold hlast
    exact reachable.done_of_told htold hlast
  · intro name summary hfate
    exact (reachable.sound.trail_of_fate hfate).stopReason_ne_done fun d hd =>
      reachable.steady (name, d) (mem_deeds.mp hd)

end Ledger

end WorkerLink

namespace WorkerLink.Ledger

attribute [local instance] Memory.kilobyte

/-- A dispatch that tells a message, then the end of the stream, and closes the handle. -/
theorem lifecycle_of_a_message : ∃ (l l' l'' : Ledger Unit) (run : Dispatch Unit),
    Reaches { connection := .start 7 {} } l ∧ l.Reaches l' ∧ l'.Reaches l'' ∧
    (l.connection.done = false ∧ l.connection.currentPid = 7) ∧
    ⟨0, .dispatch run⟩ ∈ l'.calls ∧ run.stage = .notifying .endOfStream ∧
    (l'.connection.done = true ∧ l'.connection.currentPid = -1 ∧ l'.connection.isClosed = false) ∧
    (l''.connection.isClosed = true ∧ l''.connection.done = true) ∧
    (0 < l''.closeCalls ∧ l''.closeCalls ≤ 1) ∧
    ∃ summary, l''.fate 0 = some (.ends (.dispatched (.ok summary))) ∧
      summary.stopReason ≠ .done := by
  obtain ⟨l, hl, l', hl', l'', hl'', run, hrun, hmessage, hstage, hclosed, hcalls, hfate⟩ : ∃ l,
      Ledger.follow { connection := .start 7 {} }
        [(0, .start (.dispatch ⟨fun _ => .ok (), fun _ => .ok []⟩ .unserialized)),
          (0, .goOn .proceed), (0, .goOn .proceed), (0, .goOn .proceed), (0, .goOn (.alive true)),
          (0, .goOn (.read [] (.ok (Frame.marker ++ [49, 13, 10, 13, 10, 55])))),
          (0, .goOn .proceed), (0, .goOn .proceed)] = some l ∧
      ∃ l', l.follow [(0, .goOn .returned), (0, .goOn .proceed), (0, .goOn (.alive false)),
        (0, .goOn .proceed), (0, .goOn .proceed)] = some l' ∧
      ∃ l'', l'.follow [(0, .goOn .returned), (0, .goOn .proceed), (0, .goOn .returned),
        (0, .goOn .proceed), (0, .goOn .proceed), (0, .goOn .proceed)] = some l'' ∧
      ∃ run, ⟨0, .dispatch run⟩ ∈ l'.calls ∧
        (∃ named ∈ l.calls, named.call.event? = some (.message ())) ∧
        run.stage = .notifying .endOfStream ∧ l''.connection.isClosed = true ∧
        0 < l''.closeCalls ∧
        l''.fate 0 = some (.ends (.dispatched (.ok ⟨1, 0, .handleInactive⟩))) :=
    ⟨_, rfl, _, rfl, _, rfl, _, .head _, ⟨_, .head _, rfl⟩, rfl, rfl, by decide, rfl⟩
  have hr := reaches_follow hl
  have hr' := hr.trans (reaches_follow hl')
  have hr'' := hr'.trans (reaches_follow hl'')
  obtain ⟨named, hnamed, htells⟩ := hmessage
  obtain ⟨_, _, ⟨_, hpid⟩, _, hopen, _⟩ := lifecycle hr
  obtain ⟨_, _, ⟨hdead, _⟩, _, hlast, _⟩ := lifecycle hr'
  obtain ⟨_, hdone, _, honce, _, _, hstop⟩ := lifecycle hr''
  have hundone := (hopen named hnamed _ htells).1
  have hend := hlast _ hrun .endOfStream (Call.event?_eq_some.mpr ⟨run, rfl, hstage⟩)
  exact ⟨l, l', l'', run, hr, reaches_follow hl', reaches_follow hl'', ⟨hundone, hpid hundone⟩,
    hrun, hstage, ⟨hend.1, hdead.mpr hend.1, hend.2⟩, ⟨hclosed, hdone hclosed⟩, ⟨hcalls, honce⟩,
    _, hfate, hstop 0 _ hfate⟩

end WorkerLink.Ledger
