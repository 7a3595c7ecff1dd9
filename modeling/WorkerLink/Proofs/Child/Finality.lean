import WorkerLink.Proofs.Child.Sanity
import WorkerLink.Proofs.Connection.Shutdown

/-!
# After a shutdown

A send that starts after a shutdown has started finds its first chunk held back:
it hands nothing over, and it fails. It does not wait for the worker either, so
its own moves bring it to its end. Of the sends that started before, the one that
has already looked at the cancel flag may hand over the chunk that it looked for.
-/

namespace WorkerLink

variable {α : Type}

/-- The answer to a send that is cancelled when so many bytes have been counted. -/
def Child.cutShort (c : Child) (written : Nat) : Except Fault Nat :=
  if c.writer.isSome then .ok written else .error inputClosed

/-- A cancelled send that has chunks left ends before the next one. -/
theorem Child.sendStep_of_cancelled (c : Child) (timeUp : Bool) (chunk : Bytes)
    (rest : List Bytes) (written : Nat) :
    c.sendStep true timeUp (.next (chunk :: rest) written) =
      some ⟨c, .ends (c.cutShort written), []⟩ := by
  unfold sendStep cutShort
  cases c.writer with
  | none => rfl
  | some w => rfl

theorem Child.exists_startSend (c : Child) {framed : Bytes} (ne : framed ≠ []) :
    ∃ chunk rest, c.startSend framed = .next (chunk :: rest) 0 := by
  rw [startSend, chunks, if_neg ne]
  exact ⟨_, _, rfl⟩

theorem Call.settleSend_next (c : Connection) (framed : Bytes) (answer : Except Fault Nat) :
    (settleSend (α := α) c framed answer).next = .ends (.sent (sendResult framed answer)) := by
  cases answer with
  | error fault => rfl
  | ok written =>
    simp only [settleSend, sendResult]
    split
    · rfl
    · rfl

/-- How a send fails that does not get a byte through. -/
inductive Refuses [Memory] (given : Except EncodeError Bytes) : SendError → Prop
  | unavailable {payload : Bytes} {reason : Unavailable} : given = .ok payload →
      Refuses given (.unavailable reason)
  | inputClosed {payload : Bytes} : given = .ok payload → Refuses given (.io Child.inputClosed)
  | cutShort {payload : Bytes} : given = .ok payload →
      Refuses given (.shortWrite 0 (Frame.encode payload).length)
  | lacksPayload {error : EncodeError} : given = .error error → Refuses given (.encode error)
  | lacksMemory {payload : Bytes} : given = .ok payload →
      ¬ Memory.reserves (Frame.encode payload).length →
      Refuses given (.allocation payload.length)

/-- The error says that the handle cannot be had, that it has no input any more, or that nothing has
got through. -/
def SendError.OfHandle (error : SendError) : Prop :=
  (∃ reason, error = .unavailable reason) ∨ error = .io Child.inputClosed ∨
    ∃ expected, error = .shortWrite 0 expected

namespace Link

def Over (j : Link α) (name : Nat) : Prop :=
  ∃ next, j.ledger.fate name = some next ∧ ∀ call, next ≠ .goesOn call

theorem over_of_history {j : Link α} {name : Nat} {l : Ledger α} {deed : Deed α} {outcome : Outcome}
    (history : j.ledger.history = l.history ++ [(name, deed)]) (ends : deed.next = .ends outcome) :
    j.Over name := by
  refine ⟨.ends outcome, ?_, by rintro _ ⟨⟩⟩
  simp [Ledger.fate, Ledger.deeds, history, ends]

end Link

variable [Memory]

/-- The call is over, and it was a send that has failed without a byte. -/
def Next.Refused (given : Except EncodeError Bytes) (next : Next α) : Prop :=
  ∃ error, next = .ends (.sent (.error error)) ∧ Refuses given error

/-- A send that is over without having been at its frame. -/
theorem Deed.Does.refused {c c' : Connection} {d : Deed α} {given : Except EncodeError Bytes}
    (h : d.Does c c') (ofSend : d.IsOfSend given)
    (aside : ∀ framed input, d.cause ≠ .goOn (.sending framed) input)
    (ended : ∀ call, d.next ≠ .goesOn call) : d.next.Refused given := by
  cases h with
  | starts hs =>
    cases ofSend
    cases hs with
    | lacksPayload => exact ⟨_, rfl, .lacksPayload rfl⟩
    | sends => exact absurd rfl (ended _)
  | goesOn hg =>
    cases hg with
    | takesHandle _ _ | frames _ => exact absurd rfl (ended _)
    | lacksMemory hmemory => exact ⟨_, rfl, .lacksMemory ofSend hmemory⟩
    | lacksHandle _ _ => exact ⟨_, rfl, .unavailable ofSend⟩
    | wrote | sendRaises => exact absurd rfl (aside _ _)
    | cancels _ _ | skipsCancel _ _ | cancelled | cancelRaises | dispatches _ =>
      exact False.elim ofSend

namespace Link

/-- A link whose sends are cancelled, and what is true of the sends named `first` and later. -/
structure Late (first : Nat) (j : Link α) : Prop where
  cancelled : j.ledger.connection.cancelSend = true
  handed : ∀ entry ∈ j.handovers, entry.1 < first
  busy : ∀ name framed stage, first ≤ name → j.desk = .busy name framed stage →
    ∃ chunk rest, stage = .next (chunk :: rest) 0
  answered : ∀ name framed answer, first ≤ name → j.desk = .answered name framed answer →
    answer = .ok 0 ∨ answer = .error Child.inputClosed
  ended : ∀ name given next, first ≤ name → Opens (j.ledger.deeds name) (.send given) →
    j.ledger.fate name = some next → (∀ call, next ≠ .goesOn call) → next.Refused given

/-- The calls to come have names that no call has. -/
theorem Reachable.late {j : Link α} (h : j.Reachable)
    (cancelled : j.ledger.connection.cancelSend = true) : j.Late j.ledger.history.length := by
  have hsane := h.sane
  have hsound := hsane.reachable.sound
  have hold : ∀ name framed, ⟨name, .sending framed⟩ ∈ j.ledger.calls →
      ¬ j.ledger.history.length ≤ name := by
    intro name framed hcall
    exact Nat.not_le.mpr (hsound.name_lt (hsound.trail _ hcall).ne_nil)
  have hstands := hsane.stands
  refine ⟨cancelled, hsane.named, fun name framed stage hlate hdesk => ?_,
    fun name framed answer hlate hdesk => ?_, fun name given next hlate hopens _ _ => ?_⟩
  · rw [hdesk] at hstands
    exact absurd hlate (hold name framed hstands.1)
  · rw [hdesk] at hstands
    exact absurd hlate (hold name framed hstands.1)
  · exact absurd hlate (Nat.not_le.mpr (hsound.name_lt hopens.ne_nil))

/-- After a deed only its own call has to be looked at. -/
theorem Late.ended_of_moved {j : Link α} {first mover : Nat} {deed : Deed α}
    {before after : List (Named α)} {l : Ledger α} (h : j.Late first)
    (hm : Ledger.Moves j.ledger l mover deed before after)
    (own : ∀ given, first ≤ mover → Opens (l.deeds mover) (.send given) →
      (∀ call, deed.next ≠ .goesOn call) → deed.next.Refused given)
    (name : Nat) (given : Except EncodeError Bytes) (next : Next α) (late : first ≤ name)
    (opens : Opens (l.deeds name) (.send given)) (fate : l.fate name = some next)
    (ended : ∀ call, next ≠ .goesOn call) : next.Refused given := by
  by_cases hself : name = mover
  · subst hself
    obtain rfl : deed.next = next := Option.some.inj (hm.fate_self.symm.trans fate)
    exact own given late opens ended
  · rw [hm.deeds_other hself] at opens
    rw [hm.fate_other hself] at fate
    exact h.ended name given next late opens fate ended

/-- After a move of the ledger of a call that is not at a frame. -/
theorem Late.calls {j : Link α} {first thread : Nat} {move : Move α} {l : Ledger α}
    (h : j.Late first) (s : Sane j) (hn : j.ledger.next thread move = some l)
    (aside : ∀ input, move = .goOn input → ∀ name framed below,
      j.ledger.stack thread ≠ ⟨name, .sending framed⟩ :: below) :
    Late first { j with ledger := l } := by
  obtain ⟨mover, deed, before, after, hm, hmove⟩ := Ledger.moves_of_next_by hn
  refine ⟨hm.does.follows.cancelSend h.cancelled, h.handed, h.busy, h.answered,
    h.ended_of_moved hm ?_⟩
  intro given _ hopens hover
  refine hm.does.refused (s.reachable.sound.isOfSend hm hopens) ?_ hover
  rintro framed input hcause
  rcases hmove with ⟨_, _, hstart⟩ | ⟨input', call, below, hgo, hstack, hcause'⟩
  · cases hstart.symm.trans hcause
  · cases hcause'.symm.trans hcause
    exact aside _ hgo _ _ _ hstack

/-- After a late send has taken the answer of the handle. -/
theorem Late.answers {j : Link α} {first thread name : Nat} {framed : Bytes}
    {answer : Except Fault Nat} {below : List (Named α)} {l : Ledger α} (h : j.Late first)
    (s : Sane j) (answered : j.desk = .answered name framed answer)
    (newest : j.ledger.stack thread = ⟨name, .sending framed⟩ :: below)
    (hn : j.ledger.next thread (.goOn (.wrote answer)) = some l) :
    Late first { j with ledger := l, desk := .free } := by
  obtain ⟨before, after, hm⟩ := moves_of_answer newest hn
  refine ⟨hm.does.follows.cancelSend h.cancelled, h.handed, nofun, nofun,
    h.ended_of_moved hm ?_⟩
  intro given hlate hopens _
  obtain ⟨payload, hgiven, rfl⟩ := s.reachable.sound.isOfSend hm hopens
  have hpos := List.length_pos_iff.mpr (Frame.encode_ne_nil payload)
  rcases h.answered name _ answer hlate answered with rfl | rfl
  · refine ⟨_, ?_, .cutShort hgiven⟩
    rw [Call.sendResult, if_pos hpos]
  · exact ⟨_, rfl, .inputClosed hgiven⟩

/-- What the handle answers to a late send, without having handed anything over. -/
theorem Late.step_eq {j : Link α} {first name : Nat} {framed : Bytes} {stage : Child.Sending}
    {timeUp : Bool} {step : Child.SendStep} (h : j.Late first) (late : first ≤ name)
    (busy : j.desk = .busy name framed stage)
    (hs : j.child.sendStep j.ledger.connection.cancelSend timeUp stage = some step) :
    step = ⟨j.child, .ends (j.child.cutShort 0), []⟩ := by
  obtain ⟨chunk, rest, rfl⟩ := h.busy name framed stage late busy
  rw [h.cancelled, Child.sendStep_of_cancelled] at hs
  exact (Option.some.inj hs).symm

/-- After a step of the send that is at the handle. -/
theorem Late.steps {j : Link α} {first name : Nat} {framed : Bytes} {stage : Child.Sending}
    {timeUp : Bool} {step : Child.SendStep} (h : j.Late first)
    (busy : j.desk = .busy name framed stage)
    (hs : j.child.sendStep j.ledger.connection.cancelSend timeUp stage = some step) :
    Late first (j.stepped name framed stage step) := by
  obtain ⟨child, progress, records⟩ := step
  refine ⟨h.cancelled, ?_, ?_, ?_, h.ended⟩
  · intro entry hmem
    rcases List.mem_append.mp hmem with hold | hnew
    · exact h.handed entry hold
    · obtain ⟨chunk, hchunk, rfl⟩ := List.mem_map.mp hnew
      by_contra hlate
      cases h.step_eq (Nat.le_of_not_lt hlate) busy hs
      rw [added_same] at hchunk
      cases hchunk
  · intro other framed' stage' hlate hdesk
    cases progress with
    | goesOn stage'' =>
      cases hdesk
      cases h.step_eq hlate busy hs
    | ends answer => cases hdesk
  · intro other framed' answer hlate hdesk
    cases progress with
    | goesOn stage'' => cases hdesk
    | ends answer' =>
      cases hdesk
      cases h.step_eq hlate busy hs
      by_cases hw : j.child.writer.isSome = true
      · exact .inl (if_pos hw)
      · exact .inr (if_neg hw)

theorem Late.moved {j j' : Link α} {first : Nat} (h : j.Late first) (s : Sane j)
    (hm : j.Moves j') : j'.Late first := by
  cases hm with
  | calls hn aside => exact h.calls s hn aside
  | spawns => exact ⟨h.cancelled, h.handed, h.busy, h.answered, h.ended⟩
  | @enters name framed _ call =>
    refine ⟨h.cancelled, h.handed, ?_, nofun, h.ended⟩
    rintro _ _ _ _ ⟨⟩
    obtain ⟨_, payload, _, ⟨⟩⟩ := s.reachable.inTurn.last name _ call rfl
    exact j.child.exists_startSend (Frame.encode_ne_nil payload)
  | steps busy hs => exact h.steps busy hs
  | answers answered newest hn => exact h.answers s answered newest hn
  | takes _ _ | acknowledges _ _ | stops _ | closes _ | others _ =>
    exact ⟨h.cancelled, h.handed, h.busy, h.answered, h.ended⟩

theorem Late.reaches {j j' : Link α} {first : Nat} (h : j.Late first) (r : j.Reachable)
    (hr : j.Reaches j') : j'.Late first ∧ j'.Reachable := by
  induction hr with
  | refl => exact ⟨h, r⟩
  | next _ hm ih => exact ⟨ih.1.moved ih.2.sane hm, ih.2.next hm⟩

theorem Reaches.ledger {j j' : Link α} (h : j.Reaches j') : j.ledger.Reaches j'.ledger := by
  induction h with
  | refl => exact .refl
  | next _ hm ih =>
    cases hm with
    | calls hn _ | answers _ _ hn => exact ih.next hn
    | spawns => exact ih.spawn
    | enters _ _ | steps _ _ | takes _ _ | acknowledges _ _ | stops _ | closes _ | others _ =>
      exact ih

/-- A send takes the answer of the handle. -/
theorem over_of_answered {j : Link α} {thread name : Nat} {framed : Bytes}
    {answer : Except Fault Nat} {below : List (Named α)}
    (newest : j.ledger.stack thread = ⟨name, .sending framed⟩ :: below)
    (desk : j.desk = .answered name framed answer) : ∃ j', j.Moves j' ∧ j'.Over name := by
  have hends := Call.settleSend_next (α := α) j.ledger.connection framed answer
  have hstep : (Call.sending framed : Call α).step j.ledger.connection (.wrote answer) =
      some (Call.settleSend j.ledger.connection framed answer) := rfl
  have hlock : j.ledger.machine.hostAfter thread (.sending framed)
      (Call.settleSend j.ledger.connection framed answer) = some j.ledger.hostHolder := by
    rw [Machine.hostAfter_eq, hends]
    rfl
  obtain ⟨l, hnext, _, _, _, hhistory⟩ := Ledger.exists_goOn newest hstep hlock
  exact ⟨_, .answers desk newest hnext, over_of_history hhistory hends⟩

/-- A late send that is at the handle is answered at once. -/
theorem Late.over_of_busy {j : Link α} {first thread name : Nat} {framed : Bytes}
    {stage : Child.Sending} {below : List (Named α)} (h : j.Late first) (late : first ≤ name)
    (newest : j.ledger.stack thread = ⟨name, .sending framed⟩ :: below)
    (desk : j.desk = .busy name framed stage) : ∃ j', j.Reaches j' ∧ j'.Over name := by
  obtain ⟨chunk, rest, hstage⟩ := h.busy name framed stage late desk
  have hs : j.child.sendStep j.ledger.connection.cancelSend false stage =
      some ⟨j.child, .ends (j.child.cutShort 0), []⟩ := by
    rw [hstage, h.cancelled, Child.sendStep_of_cancelled]
  have hmoves := Moves.steps desk hs
  obtain ⟨j', hanswers, hover⟩ :=
    over_of_answered (j := j.stepped name framed stage ⟨j.child, .ends _, []⟩) newest rfl
  exact ⟨j', (Reaches.refl.next hmoves).next hanswers, hover⟩

/-- Nobody but the send that has the handle is at it. -/
theorem Late.over_of_sending {j : Link α} {first thread name : Nat} {framed : Bytes}
    {below : List (Named α)} (h : j.Late first) (r : j.Reachable) (late : first ≤ name)
    (newest : j.ledger.stack thread = ⟨name, .sending framed⟩ :: below) :
    ∃ j', j.Reaches j' ∧ j'.Over name := by
  have hsane := r.sane
  have hcall : ⟨name, .sending framed⟩ ∈ j.ledger.calls :=
    Ledger.mem_calls_of_stack (newest ▸ List.mem_cons_self ..)
  have hunique : ∀ n f, ⟨n, .sending f⟩ ∈ j.ledger.calls → n = name ∧ f = framed := by
    intro n f hother
    have hsame := hsane.reachable.exclusive.unique hother hcall rfl rfl
    cases hsame
    exact ⟨rfl, rfl⟩
  have hstands := hsane.stands
  cases hdesk : j.desk with
  | free =>
    have hmoves := Moves.enters hdesk hcall
    obtain ⟨j', hreaches, hover⟩ := (h.moved hsane hmoves).over_of_busy late newest rfl
    exact ⟨j', (Reaches.refl.next hmoves).trans hreaches, hover⟩
  | busy n f stage =>
    rw [hdesk] at hstands
    obtain ⟨rfl, rfl⟩ := hunique n f hstands.1
    exact h.over_of_busy late newest hdesk
  | answered n f answer =>
    rw [hdesk] at hstands
    obtain ⟨rfl, rfl⟩ := hunique n f hstands.1
    obtain ⟨j', hmoves, hover⟩ := over_of_answered newest hdesk
    exact ⟨j', Reaches.refl.next hmoves, hover⟩

/-- A call moves that is not at its frame. -/
theorem moves_of_aside {j : Link α} {thread name : Nat} {call : Call α} {below : List (Named α)}
    {move : Move α} {l : Ledger α} (newest : j.ledger.stack thread = ⟨name, call⟩ :: below)
    (aside : ∀ framed, call ≠ .sending framed) (hn : j.ledger.next thread move = some l) :
    j.Moves { j with ledger := l } := by
  refine .calls hn fun _ _ n framed rest hsending => ?_
  cases newest.symm.trans hsending
  exact aside framed rfl

/-- A late send that has the handle gets to its frame, or there is no memory for that. -/
theorem Late.over_of_framing {j : Link α} {first thread name : Nat} {payload : Bytes}
    {below : List (Named α)} (h : j.Late first) (r : j.Reachable) (late : first ≤ name)
    (newest : j.ledger.stack thread = ⟨name, .framing payload⟩ :: below) :
    ∃ j', j.Reaches j' ∧ j'.Over name := by
  by_cases hmemory : Memory.reserves (Frame.encode payload).length
  · have hstep : (Call.framing payload : Call α).step j.ledger.connection .proceed =
        some ⟨j.ledger.connection, .goesOn (.sending (Frame.encode payload)), []⟩ :=
      congrArg some (if_pos hmemory)
    obtain ⟨l, hnext, -, -, hstack, -⟩ := Ledger.exists_goOn newest hstep rfl
    have hmoves := moves_of_aside newest nofun hnext
    obtain ⟨j', hlater, hover⟩ :=
      (h.moved r.sane hmoves).over_of_sending (r.next hmoves) late hstack
    exact ⟨j', (Reaches.refl.next hmoves).trans hlater, hover⟩
  · have hstep : (Call.framing payload : Call α).step j.ledger.connection .proceed =
        some ⟨j.ledger.connection.release,
          .ends (.sent (.error (.allocation payload.length))), []⟩ :=
      congrArg some (if_neg hmemory)
    obtain ⟨l, hnext, -, -, -, hhistory⟩ := Ledger.exists_goOn newest hstep rfl
    have hmoves := moves_of_aside newest nofun hnext
    exact ⟨_, Reaches.refl.next hmoves, over_of_history hhistory rfl⟩

/-- A late send that waits for the handle gets it when its time is up, or fails. -/
theorem Late.over_of_awaiting {j : Link α} {first thread name : Nat} {payload : Bytes}
    {below : List (Named α)} (h : j.Late first) (r : j.Reachable) (late : first ≤ name)
    (newest : j.ledger.stack thread = ⟨name, .awaitingSend payload⟩ :: below) :
    ∃ j', j.Reaches j' ∧ j'.Over name := by
  have hsettled := Call.settled_claimSend (α := α) j.ledger.connection payload
  have hstep : (Call.awaitingSend payload : Call α).step j.ledger.connection .timeUp =
      some (Call.claimSend j.ledger.connection payload) := rfl
  obtain ⟨l, hnext, hstack, hhistory⟩ := Ledger.exists_next_of_wait newest rfl hstep
  have hmoves := moves_of_aside newest nofun hnext
  have hreaches := Reaches.refl.next hmoves
  generalize Call.claimSend j.ledger.connection payload = s at hsettled hstack hhistory
  unfold Call.Settled at hsettled
  split at hsettled
  · cases hsettled with
    | send =>
      obtain ⟨j', hlater, hover⟩ :=
        (h.moved r.sane hmoves).over_of_framing (r.next hmoves) late hstack
      exact ⟨j', hreaches.trans hlater, hover⟩
  · cases hsettled with
    | send => exact ⟨_, hreaches, over_of_history hhistory rfl⟩

/-- A late send that nothing stands on comes to its end by its own moves. -/
theorem Late.over_of_newest {j : Link α} {first thread name : Nat} {call : Call α}
    {given : Except EncodeError Bytes} {below : List (Named α)} (h : j.Late first)
    (r : j.Reachable) (late : first ≤ name)
    (newest : j.ledger.stack thread = ⟨name, call⟩ :: below)
    (opens : Opens (j.ledger.deeds name) (.send given)) : ∃ j', j.Reaches j' ∧ j'.Over name := by
  have hcall : ⟨name, call⟩ ∈ j.ledger.calls :=
    Ledger.mem_calls_of_stack (newest ▸ List.mem_cons_self ..)
  have hserves := (r.sane.reachable.sound.trail _ hcall).serves opens
  cases call with
  | awaitingSend payload => exact h.over_of_awaiting r late newest
  | framing payload => exact h.over_of_framing r late newest
  | sending framed => exact h.over_of_sending r late newest
  | awaitingCancel | cancelling | dispatch _ => cases hserves

/-- A send that starts after a shutdown has started hands nothing over. It can always come to its
end, and it has failed then. The sends from before hand over one chunk at most, for which one of
them had looked before the shutdown. A shutdown cancels the sends and asks the handle at most to
cancel its read, which it does when it gets the handle. It leaves the rest of the connection alone,
and all of it when it is not the first. -/
theorem shutdown_final {j : Link α} (reachable : j.Reachable) :
    (∀ earlier, Opens (j.ledger.deeds earlier) .shutdown → ∀ j', j.Reaches j' →
      j.Trails j' ∧
      ∀ name given, j.ledger.history.length ≤ name → Opens (j'.ledger.deeds name) (.send given) →
        (∀ chunk, (name, chunk) ∉ j'.handovers) ∧
        (∀ next, j'.ledger.fate name = some next → (∀ call, next ≠ .goesOn call) →
          next.Refused given) ∧
        ∀ thread call below, j'.ledger.stack thread = ⟨name, call⟩ :: below →
          ∃ j'' next, j'.Reaches j'' ∧ j''.ledger.fate name = some next ∧ next.Refused given) ∧
    (∀ thread move l name deed, j.ledger.next thread move = some l →
      l.history = j.ledger.history ++ [(name, deed)] → Opens (l.deeds name) .shutdown →
      l.connection = { j.ledger.connection with
        cancelSend := true
        slot := { j.ledger.connection.slot with busy := l.connection.slot.busy } } ∧
      (deed.request? = some .cancel ↔
        j.ledger.connection.slot.busy = false ∧ l.connection.slot.busy = true)) ∧
    (∀ name, Opens (j.ledger.deeds name) .shutdown →
      (j.ledger.dealings name).requests = [] ∨ (j.ledger.dealings name).requests = [.cancel]) ∧
    ∀ l name since next, j.ledger.Reaches l → j.ledger.deeds name = [] →
      l.history = j.ledger.history ++ since → (∀ entry ∈ since, entry.1 = name) →
      (∀ operation, Opens (l.deeds name) operation → operation = .shutdown) →
      l.fate name = some next → (∀ call, next ≠ .goesOn call) →
      l.connection = { j.ledger.connection with cancelSend := true } ∧
      ∀ earlier, Opens (j.ledger.deeds earlier) .shutdown → l.connection = j.ledger.connection := by
  have hledger := reachable.sane.reachable
  refine ⟨?final, ?inert, ?asks, ?alone⟩
  case final =>
    -- A call is named after the length of the history at its start, so the sends that start from now
    -- on are those with the names from there on.
    intro earlier hopens j' hreaches
    have hcancelled := hledger.cancelSend_of_opens hopens
    obtain ⟨hlate, hreachable⟩ := (reachable.late hcancelled).reaches reachable hreaches
    refine ⟨hreaches.trails (.inl hcancelled), fun name given hstarted hsend => ⟨?_, ?_, ?_⟩⟩
    · intro chunk hmem
      exact Nat.not_le_of_lt (hlate.handed _ hmem) hstarted
    · exact fun next hfate hover => hlate.ended name given next hstarted hsend hfate hover
    · intro thread call below hnewest
      obtain ⟨j'', hlater, next, hfate, hover⟩ :=
        hlate.over_of_newest hreachable hstarted hnewest hsend
      have hsend' := hlater.ledger.opens_of_opens hsend
      have hlate' := (hlate.reaches hreachable hlater).1
      exact ⟨j'', next, hlater, hfate, hlate'.ended name given next hstarted hsend' hfate hover⟩
  case inert =>
    intro thread move l name deed hnext htold hopens
    obtain ⟨mover, deed', before, after, hm⟩ := Ledger.moves_of_next hnext
    cases List.append_cancel_left (hm.history.symm.trans htold)
    have hshuts := hledger.sound.shuts hm hopens
    have hcancelled := (hledger.next hnext).cancelSend_of_opens hopens
    exact ⟨hshuts.eq_with hcancelled, hshuts.asks_iff⟩
  case asks =>
    intro name hopens
    obtain ⟨next, htrail, _⟩ := hledger.sound.underWay name hopens.ne_nil
    exact (htrail.cancels hopens).requests_eq
  case alone =>
    intro l name since next hreaches hfresh htold halone hopens hfate hover
    have hfrom := hreaches.shutFrom hledger hfresh htold halone hopens
    rw [hfate] at hfrom
    have hconnection : l.connection = { j.ledger.connection with cancelSend := true } := by
      generalize l.connection = c at hfrom ⊢
      cases hfrom with
      | waits | asks _ => exact absurd rfl (hover _)
      | ended _ => rfl
    refine ⟨hconnection, fun earlier hearlier => ?_⟩
    rw [hconnection, ← hledger.cancelSend_of_opens hearlier]

end Link

end WorkerLink

namespace WorkerLink.Link

attribute [local instance] Memory.kilobyte

/-- A shutdown that has not got the handle, because a send is about to hand over its first chunk.
That chunk follows, and nothing after it: the next send waits for the handle too, and all it can do
is fail. -/
theorem late_send_fails_after_missed_shutdown : ∃ j j' : Link Unit,
    j.Reachable ∧ j.ledger.fate 3 = some (.ends .shutDown) ∧ j.handed = [] ∧
    j.Reaches j' ∧ j'.handed = Bytes.ofChars ['C', 'o', 'n', 't'] ∧ j.Trails j' ∧
    (∀ chunk, (5, chunk) ∉ j'.handovers) ∧
    ∃ j'' next, j'.Reaches j'' ∧ j''.ledger.fate 5 = some next ∧ next.Refused (.ok [98]) := by
  obtain ⟨j, j', hj, hopens, hfate, hnone, hreaches, hlength, hsend, newest, hhanded⟩ :
      ∃ j j' : Link Unit, j.Reachable ∧ Opens (j.ledger.deeds 3) .shutdown ∧
      j.ledger.fate 3 = some (.ends .shutDown) ∧ j.handed = [] ∧ j.Reaches j' ∧
      j.ledger.history.length = 5 ∧ Opens (j'.ledger.deeds 5) (.send (.ok [98])) ∧
      j'.ledger.stack 1 = [⟨5, .awaitingSend [98]⟩] ∧
      j'.handed = Bytes.ofChars ['C', 'o', 'n', 't'] := by
    have start := Reachable.start (α := Unit) 7 {} { pid := 7, chunkSize := 4 } rfl
    have sends := start.next (@Moves.calls _ _ _ 0 (.start (.send (.ok [97]))) _ rfl nofun)
    have claims := sends.next (@Moves.calls _ _ _ 0 (.goOn .proceed) _
      (by with_unfolding_all rfl) (by intro _ _ _ _ _ h; cases h))
    have frames := claims.next (@Moves.calls _ _ _ 0 (.goOn .proceed) _
      (by with_unfolding_all rfl) (by intro _ _ _ _ _ h; cases h))
    have enters := frames.next (@Moves.enters _ _ _ 0 (Frame.encode [97]) rfl
      (by with_unfolding_all exact List.mem_singleton_self _))
    have looks := enters.next (@Moves.steps _ _ _ 0 _ _ false _ rfl (by with_unfolding_all rfl))
    have spawns := looks.next .spawns
    have cancels := spawns.next (@Moves.calls _ _ _ 1 (.start .shutdown) _ rfl nofun)
    have misses := cancels.next (@Moves.calls _ _ _ 1 (.goOn .timeUp) _
      (by with_unfolding_all rfl) (by intro _ _ _ _ _ h; cases h))
    refine ⟨_, _, misses, ⟨.goesOn .awaitingCancel, ?_⟩, ?_, ?_,
      (Reaches.refl.next (@Moves.steps _ _ _ 0 _ _ false _ rfl (by with_unfolding_all rfl))).next
        (@Moves.calls _ _ _ 1 (.start (.send (.ok [98]))) _ (by with_unfolding_all rfl) nofun),
      ?_, ⟨.goesOn (.awaitingSend [98]), ?_⟩, ?_, ?_⟩
    all_goals with_unfolding_all rfl
  obtain ⟨htrails, hlater⟩ := (shutdown_final hj).1 3 hopens j' hreaches
  obtain ⟨hhands, -, hends⟩ := hlater 5 _ (Nat.le_of_eq hlength) hsend
  exact ⟨j, j', hj, hfate, hnone, hreaches, hhanded, htrails, hhands, hends 1 _ _ newest⟩

/-- After a shutdown a message that cannot be encoded is still told apart, and so is one whose frame
does not fit into memory. -/
theorem late_send_fails_otherwise : ∃ (j j' : Link Unit) (payload : Bytes),
    (j.Reachable ∧ Opens (j.ledger.deeds 0) .shutdown ∧ j.ledger.history.length = 1 ∧
      j.Reaches j') ∧
    (Opens (j'.ledger.deeds 1) (.send (.error .keyNotString)) ∧
      ∃ error, j'.ledger.fate 1 = some (.ends (.sent (.error error))) ∧ ¬ error.OfHandle) ∧
    Opens (j'.ledger.deeds 2) (.send (.ok payload)) ∧ payload.length = 1024 ∧
      ∃ error, j'.ledger.fate 2 = some (.ends (.sent (.error error))) ∧ ¬ error.OfHandle := by
  obtain ⟨payload, hlength⟩ : ∃ payload : Bytes, payload.length = 1024 :=
    ⟨List.replicate 1024 0, List.length_replicate⟩
  have hmemory : ¬ Memory.reserves (Frame.encode payload).length := by
    have hlarge : 1024 < (Frame.encode payload).length := by
      rw [Frame.encode, List.length_append, hlength]
      exact Nat.lt_add_of_pos_left (List.length_pos_of_ne_nil (by simp [Frame.terminator]))
    simp [Memory.reserves, Nat.not_le_of_lt hlarge]
  obtain ⟨j, j', hj, hopens, hstarted, hreaches, newest, hhistory⟩ : ∃ j j' : Link Unit,
      j.Reachable ∧ Opens (j.ledger.deeds 0) .shutdown ∧ j.ledger.history.length = 1 ∧
      j.Reaches j' ∧ j'.ledger.stack 1 = [⟨2, .framing payload⟩] ∧
      j'.ledger.history = [(0, ⟨.start .shutdown, .goesOn .awaitingCancel⟩),
        (1, ⟨.start (.send (.error .keyNotString)),
          .ends (.sent (.error (.encode .keyNotString)))⟩),
        (2, ⟨.start (.send (.ok payload)), .goesOn (.awaitingSend payload)⟩),
        (2, ⟨.goOn (.awaitingSend payload) .proceed, .goesOn (.framing payload)⟩)] := by
    have start := Reachable.start (α := Unit) 7 {} { pid := 7 } rfl
    have cancels := start.next (@Moves.calls _ _ _ 0 (.start .shutdown) _ rfl (by rintro _ ⟨⟩))
    refine ⟨_, _, cancels.next .spawns, ⟨_, rfl⟩, rfl, ((Reaches.refl.next
      (@Moves.calls _ _ _ 1 (.start (.send (.error .keyNotString))) _ rfl (by rintro _ ⟨⟩))).next
      (@Moves.calls _ _ _ 1 (.start (.send (.ok payload))) _ rfl (by rintro _ ⟨⟩))).next
      (@Moves.calls _ _ _ 1 (.goOn .proceed) _ rfl (by intro _ _ _ _ _ h; cases h)), rfl, rfl⟩
  have hstep : (Call.framing payload : Call Unit).step j'.ledger.connection .proceed =
      some ⟨j'.ledger.connection.release,
        .ends (.sent (.error (.allocation payload.length))), []⟩ :=
    congrArg some (if_neg hmemory)
  obtain ⟨l, hnext, -, -, -, htold⟩ := Ledger.exists_goOn newest hstep rfl
  rw [hhistory] at htold
  have hfirst : l.deeds 1 = [⟨.start (.send (.error .keyNotString)),
      .ends (.sent (.error (.encode .keyNotString)))⟩] := by
    rw [Ledger.deeds, htold]
    rfl
  have hsecond : l.deeds 2 = [⟨.start (.send (.ok payload)), .goesOn (.awaitingSend payload)⟩,
      ⟨.goOn (.awaitingSend payload) .proceed, .goesOn (.framing payload)⟩,
      ⟨.goOn (.framing payload) .proceed,
        .ends (.sent (.error (.allocation payload.length)))⟩] := by
    rw [Ledger.deeds, htold]
    rfl
  refine ⟨j, _, payload,
    ⟨hj, hopens, hstarted, hreaches.next (moves_of_aside newest (by rintro _ ⟨⟩) hnext)⟩,
    ⟨⟨_, congrArg List.head? hfirst⟩, .encode .keyNotString, ?_, ?_⟩,
    ⟨_, congrArg List.head? hsecond⟩, hlength, .allocation payload.length, ?_, ?_⟩
  · rw [Ledger.fate, hfirst]
    rfl
  · rintro (⟨_, ⟨⟩⟩ | ⟨⟨⟩⟩ | ⟨_, ⟨⟩⟩)
  · rw [Ledger.fate, hsecond]
    rfl
  · rintro (⟨_, ⟨⟩⟩ | ⟨⟨⟩⟩ | ⟨_, ⟨⟩⟩)

end WorkerLink.Link
