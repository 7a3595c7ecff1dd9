import WorkerLink.Proofs.Connection.Access
import WorkerLink.Proofs.Connection.HostLock
import WorkerLink.Proofs.Connection.Turns

/-!
# What a send does

A send asks the handle once at most, for its frame and while it has the handle
for itself. How it ends tells what the handle has answered, or why the handle
was not asked (`Sends`). Of the connection it changes nothing but who is at the
handle. When it is over, it has let go of the handle, and it has left the
connection as it found it where nobody else has changed it (`Borrows`).
-/

namespace WorkerLink

variable {α : Type}

def Deed.answer? (d : Deed α) : Option (Except Fault Nat) :=
  match d.cause with
  | .goOn (.sending _) (.wrote result) => some result
  | _ => none

/-- What a call has had to do with the handle. -/
structure Dealings where
  /-- For which payloads it got the handle. -/
  payloads : List Bytes
  /-- What it asked of the handle. -/
  requests : List Request
  /-- What the handle has answered. -/
  answers : List (Except Fault Nat)

def Dealings.after (x : Dealings) (d : Deed α) : Dealings where
  payloads := x.payloads ++ d.acquires?.toList
  requests := x.requests ++ d.request?.toList
  answers := x.answers ++ d.answer?.toList

def dealings (deeds : List (Deed α)) : Dealings where
  payloads := deeds.filterMap Deed.acquires?
  requests := deeds.filterMap Deed.request?
  answers := deeds.filterMap Deed.answer?

theorem dealings_snoc (deeds : List (Deed α)) (d : Deed α) :
    dealings (deeds ++ [d]) = (dealings deeds).after d := by
  simp only [dealings, Dealings.after, List.filterMap_append, List.filterMap_cons,
    List.filterMap_nil]
  cases d.acquires? <;> cases d.request? <;> cases d.answer? <;> rfl

/-- What a send has had to do with the handle, and what has become of it. -/
inductive Sends (given : Except EncodeError Bytes) : Dealings → Next α → Prop
  | lacksPayload {error : EncodeError} : given = .error error →
      Sends given ⟨[], [], []⟩ (.ends (.sent (.error (.encode error))))
  | waits {payload : Bytes} : given = .ok payload →
      Sends given ⟨[], [], []⟩ (.goesOn (.awaitingSend payload))
  | turnedAway {payload : Bytes} {reason : Unavailable} : given = .ok payload →
      Sends given ⟨[], [], []⟩ (.ends (.sent (.error (.unavailable reason))))
  | frames {payload : Bytes} : given = .ok payload →
      Sends given ⟨[payload], [], []⟩ (.goesOn (.framing payload))
  | asks {payload : Bytes} : given = .ok payload →
      Sends given ⟨[payload], [.send (Frame.encode payload)], []⟩
        (.goesOn (.sending (Frame.encode payload)))
  | sent {payload : Bytes} {written : Nat} : given = .ok payload →
      (Frame.encode payload).length ≤ written →
      Sends given ⟨[payload], [.send (Frame.encode payload)], [.ok written]⟩
        (.ends (.sent (.ok ())))
  | shortWrite {payload : Bytes} {written : Nat} : given = .ok payload →
      written < (Frame.encode payload).length →
      Sends given ⟨[payload], [.send (Frame.encode payload)], [.ok written]⟩
        (.ends (.sent (.error (.shortWrite written (Frame.encode payload).length))))
  | fails {payload : Bytes} {fault : Fault} : given = .ok payload →
      Sends given ⟨[payload], [.send (Frame.encode payload)], [.error fault]⟩
        (.ends (.sent (.error (.io fault))))
  | raised {payload : Bytes} : given = .ok payload →
      Sends given ⟨[payload], [.send (Frame.encode payload)], []⟩ .unwinds

/-- There is memory for the frame of a payload, if there is one. -/
def Fits [Memory] (given : Except EncodeError Bytes) : Prop :=
  ∀ payload, given = .ok payload → Memory.reserves (Frame.encode payload).length

section Sends

variable {given : Except EncodeError Bytes} {x : Dealings} {next : Next α}

theorem Sends.goes [Memory] {call : Call α} {input : Input} {c c' : Connection}
    (h : Sends given x (.goesOn call)) (fits : Fits given) (hg : Call.Goes c call input c' next) :
    Sends given (x.after ⟨.goOn call input, next⟩) next := by
  cases h with
  | waits hgiven =>
    cases hg with
    | takesHandle _ _ => exact .frames hgiven
    | lacksHandle _ _ => exact .turnedAway hgiven
  | frames hgiven =>
    cases hg with
    | frames _ => exact .asks hgiven
    | lacksMemory hmemory => exact False.elim (hmemory (fits _ hgiven))
  | asks hgiven =>
    cases hg with
    | @wrote _ answer =>
      cases answer with
      | error fault => exact .fails hgiven
      | ok written =>
        rw [Call.sendResult]
        split
        · next hshort => exact .shortWrite hgiven hshort
        · next hall => exact .sent hgiven (Nat.le_of_not_lt hall)
    | sendRaises => exact .raised hgiven

/-- What a send has done is told by what has become of it. -/
theorem Trail.sends [Memory] {deeds : List (Deed α)} (h : Trail deeds next)
    (opens : Opens deeds (.send given)) (fits : Fits given) : Sends given (dealings deeds) next := by
  induction h with
  | start hs =>
    obtain ⟨_, ho⟩ := opens
    cases ho
    cases hs with
    | lacksPayload => exact .lacksPayload rfl
    | sends => exact .waits rfl
  | goOn ht hg ih =>
    rw [dealings_snoc]
    exact (ih ((opens_snoc ht.ne_nil).mp opens)).goes fits hg

/-- A send that has got the handle asks it for the frame of the payload as soon as it has it. -/
theorem Sends.requests_eq (h : Sends given x next) : x.payloads = [] ∧ x.requests = [] ∨
    ∃ payload, given = .ok payload ∧ x.payloads = [payload] ∧
      (x.requests = [.send (Frame.encode payload)] ∨
        x.requests = [] ∧ next = .goesOn (.framing payload)) := by
  cases h with
  | lacksPayload _ | waits _ | turnedAway _ => exact .inl ⟨rfl, rfl⟩
  | frames hgiven => exact .inr ⟨_, hgiven, rfl, .inr ⟨rfl, rfl⟩⟩
  | asks hgiven | sent hgiven _ | shortWrite hgiven _ | fails hgiven | raised hgiven =>
    exact .inr ⟨_, hgiven, rfl, .inl rfl⟩

theorem Sends.encode_iff (h : Sends given x next) {error : EncodeError} :
    next = .ends (.sent (.error (.encode error))) ↔ given = .error error := by
  cases h with
  | lacksPayload hgiven | waits hgiven | turnedAway hgiven | frames hgiven | asks hgiven
  | sent hgiven _ | shortWrite hgiven _ | fails hgiven | raised hgiven => simp [hgiven]

variable {payload : Bytes}

theorem Sends.sent_iff (h : Sends given x next) (ok : given = .ok payload) :
    next = .ends (.sent (.ok ())) ↔
      ∃ written, x.answers = [.ok written] ∧ (Frame.encode payload).length ≤ written := by
  cases h with
  | lacksPayload _ | waits _ | turnedAway _ | frames _ | asks _ | fails _ | raised _ => simp
  | sent hgiven hall =>
    cases ok.symm.trans hgiven
    simpa using hall
  | shortWrite hgiven hshort =>
    cases ok.symm.trans hgiven
    simpa using hshort

theorem Sends.shortWrite_iff (h : Sends given x next) (ok : given = .ok payload)
    {written expected : Nat} :
    next = .ends (.sent (.error (.shortWrite written expected))) ↔
      x.answers = [.ok written] ∧ written < expected ∧
        expected = (Frame.encode payload).length := by
  cases h with
  | lacksPayload _ | waits _ | turnedAway _ | frames _ | asks _ | fails _ | raised _ => simp
  | sent hgiven hall =>
    cases ok.symm.trans hgiven
    refine ⟨nofun, ?_⟩
    rintro ⟨hanswer, hshort, rfl⟩
    cases hanswer
    exact False.elim (Nat.not_lt_of_le hall hshort)
  | shortWrite hgiven hshort =>
    cases ok.symm.trans hgiven
    constructor
    · rintro ⟨⟩
      exact ⟨rfl, hshort, rfl⟩
    · rintro ⟨hanswer, _, rfl⟩
      cases hanswer
      rfl

theorem Sends.io_iff (h : Sends given x next) {fault : Fault} :
    next = .ends (.sent (.error (.io fault))) ↔ x.answers = [.error fault] := by
  cases h <;> simp

/-- A send that is over is told that it could not have the handle if and only if it did not. -/
theorem Sends.unavailable_iff (h : Sends given x next) (ok : given = .ok payload) :
    (∃ reason, next = .ends (.sent (.error (.unavailable reason)))) ↔
      x.payloads = [] ∧ ∃ outcome, next = .ends outcome := by
  cases h with
  | lacksPayload hgiven => cases ok.symm.trans hgiven
  | waits _ | turnedAway _ | frames _ | asks _ | sent _ _ | shortWrite _ _ | fails _ | raised _ =>
    simp

end Sends

section Deeds

variable {c c' : Connection} {d : Deed α} {given : Except EncodeError Bytes}

def Deed.IsOfSend (given : Except EncodeError Bytes) (d : Deed α) : Prop :=
  match d.cause with
  | .start operation => operation = .send given
  | .goOn call _ => call.Serves (.send given)

/-- What a deed of a send does to the connection, by whether the send has the handle before and
after. -/
inductive Deed.Borrows (c c' : Connection) (d : Deed α) : Prop
  | takes : d.after Call.isAtFrame = true → c.slot.busy = false →
      c' = { c with slot := { c.slot with busy := true } } → Borrows c c' d
  | givesBack : d.before Call.isAtFrame = true → d.after Call.isAtFrame = false →
      c' = c.release → Borrows c c' d
  | keeps : d.before Call.isAtFrame = d.after Call.isAtFrame → c' = c → Borrows c c' d

theorem Connection.release_of_free {c : Connection} (free : c.slot.busy = false) :
    { c with slot := { c.slot with busy := true } }.release = c := by
  obtain ⟨_, ⟨_, _⟩, _, _, _, _, _⟩ := c
  cases free
  rfl

theorem Deed.Does.borrows [Memory] (h : d.Does c c') (ofSend : d.IsOfSend given) :
    d.Borrows c c' := by
  cases h with
  | starts hs =>
    cases ofSend
    cases hs with
    | lacksPayload | sends => exact .keeps rfl rfl
  | goesOn hg =>
    cases hg with
    | takesHandle hc _ =>
      obtain ⟨_, hfree, rfl⟩ := Connection.claim_eq_ok.mp hc
      exact .takes rfl hfree rfl
    | lacksHandle _ _ | frames _ => exact .keeps rfl rfl
    | lacksMemory _ | wrote | sendRaises => exact .givesBack rfl rfl rfl
    | cancels _ _ | skipsCancel _ _ | cancelled | cancelRaises | dispatches _ =>
      exact False.elim ofSend

/-- A deed of a send changes nothing but who is at the handle. -/
theorem Deed.Borrows.exists_busy (h : d.Borrows c c') :
    ∃ busy, c' = { c with slot := { c.slot with busy } } := by
  cases h with
  | takes _ _ hc => exact ⟨true, hc⟩
  | givesBack _ _ hc => exact ⟨false, hc⟩
  | keeps _ hc => exact ⟨c.slot.busy, hc⟩

end Deeds

def Cause.found : Cause α → Option (Next α)
  | .start _ => none
  | .goOn call _ => some (.goesOn call)

namespace Ledger

def dealings (l : Ledger α) (name : Nat) : Dealings := WorkerLink.dealings (l.deeds name)

theorem mem_payloads {l : Ledger α} {name : Nat} {payload : Bytes} :
    payload ∈ (l.dealings name).payloads ↔ (name, payload) ∈ l.acquired := by
  rw [mem_acquired]
  exact List.mem_filterMap

def isAtFrame (l : Ledger α) (name : Nat) : Bool :=
  (l.fate name).any (Next.goesOnWith Call.isAtFrame)

variable [Memory]

section Moved

variable {l l' : Ledger α} {name : Nat} {deed : Deed α} {before after : List (Named α)}
  {given : Except EncodeError Bytes}

/-- The deeds of a send are those of a send. -/
theorem Sound.isOfSend (s : Sound l) (m : Moves l l' name deed before after)
    (opens : Opens (l'.deeds name) (.send given)) : deed.IsOfSend given := by
  rw [m.deeds_self] at opens
  cases m.does with
  | starts _ =>
    obtain ⟨_, hopens⟩ := opens
    rw [m.fresh _ rfl, s.deeds_fresh] at hopens
    cases hopens
    rfl
  | goesOn _ =>
    have htrail := s.trail _ m.self_mem
    exact htrail.serves ((opens_snoc htrail.ne_nil).mp opens)

/-- A deed takes up its call where the call has come to. -/
theorem Sound.fate_of_cause (s : Sound l) (m : Moves l l' name deed before after) :
    l.fate name = deed.cause.found := by
  cases m.does with
  | starts _ =>
    rw [m.fresh _ rfl, fate, s.deeds_fresh]
    rfl
  | goesOn _ => exact (s.trail _ m.self_mem).last

theorem Sound.isAtFrame_eq (s : Sound l) (m : Moves l l' name deed before after) :
    l.isAtFrame name = deed.before Call.isAtFrame := by
  rw [isAtFrame, s.fate_of_cause m, Deed.before]
  cases deed.cause <;> rfl

theorem Moves.isAtFrame_eq (m : Moves l l' name deed before after) :
    l'.isAtFrame name = deed.after Call.isAtFrame := by
  rw [isAtFrame, m.fate_self]
  rfl

/-- The handle is in its place while a send is at it. -/
theorem Reachable.present_of_isAtFrame (r : l.Reachable) {call : Call α}
    (under : ⟨name, call⟩ ∈ l.calls) (atFrame : call.isAtFrame = true) :
    l.connection.slot.present = true := by
  by_contra hgone
  have hspent := (r.retired (by simpa using hgone)).spent _ under
  cases call with
  | framing _ | sending _ => exact hspent
  | awaitingSend _ | awaitingCancel | cancelling | dispatch _ => cases atFrame

/-- A send that ends has let go of the handle if it had it, and has changed nothing if not. -/
theorem Reachable.ends_send (r : l.Reachable) (m : Moves l l' name deed before after)
    (opens : Opens (l'.deeds name) (.send given)) {outcome : Outcome}
    (ends : deed.next = .ends outcome) :
    ((l'.dealings name).payloads ≠ [] → ∃ c, l'.connection.claim = .ok c) ∧
      ((l'.dealings name).payloads = [] → l'.connection = l.connection) := by
  have hacquires : deed.acquires? = none := by
    unfold Deed.acquires?
    rw [ends]
    split <;> simp_all
  have hpayloads : (l'.dealings name).payloads = (l.dealings name).payloads := by
    simp only [dealings, m.deeds_self, dealings_snoc, Dealings.after, hacquires]
    exact List.append_nil _
  rw [hpayloads]
  cases m.does.borrows (r.sound.isOfSend m opens) with
  | takes hnext _ _ =>
    rw [Deed.after, ends] at hnext
    cases hnext
  | givesBack hbefore _ hconnection =>
    obtain ⟨cause, next⟩ := deed
    cases cause with
    | start _ => cases hbefore
    | goOn call input =>
      have hat : call.isAtFrame = true := hbefore
      have hpresent := r.present_of_isAtFrame m.self_mem hat
      refine ⟨fun _ => ⟨_, Connection.claim_eq_ok.mpr ⟨?_, ?_, rfl⟩⟩, fun hnone => ?_⟩
      · rw [hconnection]
        exact hpresent
      · rw [hconnection]
        rfl
      · obtain ⟨d, hd, payload, hp⟩ :=
          (r.sound.trail _ m.self_mem).acquires_of_isAtFrame call rfl hat
        have hmem := mem_payloads.mpr (mem_acquired.mpr ⟨d, hd, hp⟩)
        rw [hnone] at hmem
        cases hmem
  | keeps hsame hconnection =>
    refine ⟨fun hsome => ?_, fun _ => hconnection⟩
    have haside : deed.before Call.isAtFrame = false := by
      rw [hsame, Deed.after, ends]
      rfl
    obtain ⟨payload, hmem⟩ := List.exists_mem_of_ne_nil _ hsome
    exact False.elim (r.sound.not_acquired m haside (mem_payloads.mp hmem))

end Moved

/-- Later there are more deeds. -/
theorem Reaches.exists_since {l l' : Ledger α} (h : l.Reaches l') :
    ∃ since, l'.history = l.history ++ since := by
  induction h with
  | refl => exact ⟨[], (List.append_nil _).symm⟩
  | spawn _ ih => exact ih
  | next _ hn ih =>
    obtain ⟨since, hsince⟩ := ih
    obtain ⟨name, deed, _, _, hm⟩ := moves_of_next hn
    exact ⟨since ++ [(name, deed)], by rw [hm.history, hsince, List.append_assoc]⟩

/-- What a call has been started for stays the same. -/
theorem Reaches.opens_of_opens {l l' : Ledger α} (h : l.Reaches l') {name : Nat}
    {operation : Operation α} (opens : Opens (l.deeds name) operation) :
    Opens (l'.deeds name) operation := by
  induction h with
  | refl => exact opens
  | spawn _ ih => exact ih
  | next _ hn ih =>
    obtain ⟨mover, _, _, _, hm⟩ := moves_of_next hn
    by_cases he : name = mover
    · subst he
      rw [hm.deeds_self]
      exact (opens_snoc ih.ne_nil).mpr ih
    · rwa [hm.deeds_other he]

/-- The connection is as it was, or a send has got the handle of it, which was free. -/
structure Borrows (l₀ l : Ledger α) (name : Nat) : Prop where
  away : l.isAtFrame name = false → l.connection = l₀.connection
  holding : l.isAtFrame name = true → l₀.connection.slot.busy = false ∧
    l.connection = { l₀.connection with slot := { l₀.connection.slot with busy := true } }

theorem Borrows.moved {l₀ l l' : Ledger α} {name : Nat} {deed : Deed α}
    {before after : List (Named α)} (b : Borrows l₀ l name) (s : Sound l)
    (m : Moves l l' name deed before after) (borrows : deed.Borrows l.connection l'.connection) :
    Borrows l₀ l' name := by
  have hbefore := s.isAtFrame_eq m
  have hafter := m.isAtFrame_eq
  cases borrows with
  | takes hnext hfree hconnection =>
    have haway : l.connection = l₀.connection := by
      refine b.away ?_
      rw [Bool.eq_false_iff]
      intro hat
      rw [(b.holding hat).2] at hfree
      cases hfree
    rw [haway] at hfree hconnection
    refine ⟨fun haside => ?_, fun _ => ⟨hfree, hconnection⟩⟩
    rw [hafter, hnext] at haside
    cases haside
  | givesBack hhad hends hconnection =>
    obtain ⟨hfree, hbusy⟩ := b.holding (hbefore.trans hhad)
    refine ⟨fun _ => ?_, fun hat => ?_⟩
    · rw [hconnection, hbusy, Connection.release_of_free hfree]
    · rw [hafter, hends] at hat
      cases hat
  | keeps hsame hconnection =>
    have hat : l'.isAtFrame name = l.isAtFrame name := by rw [hafter, hbefore, hsame]
    constructor
    · intro haway
      rw [hconnection]
      exact b.away (hat.symm.trans haway)
    · intro hholding
      rw [hconnection]
      exact b.holding (hat.symm.trans hholding)

/-- While only one call moves, what holds at first and with each of its moves holds in the end. -/
theorem Reaches.of_alone {l₀ l : Ledger α} {name : Nat} {operation : Operation α}
    {since : List (Nat × Deed α)} (holds : Ledger α → Prop) (h : l₀.Reaches l) (r : l₀.Reachable)
    (told : l.history = l₀.history ++ since) (alone : ∀ entry ∈ since, entry.1 = name)
    (opens : ∀ other, Opens (l.deeds name) other → other = operation) (first : holds l₀)
    (spawn : ∀ l', holds l' → holds l'.spawn)
    (moved : ∀ l' l'' deed before after, Sound l' → holds l' →
      Moves l' l'' name deed before after → Opens (l''.deeds name) operation → holds l'') :
    holds l := by
  induction h generalizing since with
  | refl => exact first
  | spawn _ ih => exact spawn _ (ih told alone opens)
  | @next l l' thread move hreach hn ih =>
    obtain ⟨mover, deed, before, after, hm⟩ := moves_of_next hn
    obtain ⟨earlier, hearlier⟩ := hreach.exists_since
    obtain rfl : since = earlier ++ [(mover, deed)] := by
      rw [hm.history, hearlier, List.append_assoc] at told
      exact (List.append_cancel_left told).symm
    obtain rfl : mover = name := alone (mover, deed) (by simp)
    have hsound := (hreach.reachable r).sound
    have hopens : Opens (l'.deeds mover) operation := by
      obtain ⟨other, ho⟩ := (hsound.trail_moved hm).opens
      rw [← opens other ho]
      exact ho
    refine moved l l' deed before after hsound (ih hearlier ?_ ?_) hm hopens
    · exact fun entry hmem => alone entry (List.mem_append_left _ hmem)
    · intro other ho
      refine opens other ?_
      rw [hm.deeds_self]
      exact (opens_snoc ho.ne_nil).mpr ho

/-- While only one send moves, the connection stays as it was but for that send at the handle. -/
theorem Reaches.borrows {l₀ l : Ledger α} {name : Nat} {given : Except EncodeError Bytes}
    {since : List (Nat × Deed α)} (h : l₀.Reaches l) (r : l₀.Reachable)
    (fresh : l₀.deeds name = []) (told : l.history = l₀.history ++ since)
    (alone : ∀ entry ∈ since, entry.1 = name)
    (opens : ∀ operation, Opens (l.deeds name) operation → operation = .send given) :
    Borrows l₀ l name := by
  refine h.of_alone (Borrows l₀ · name) r told alone opens ?_ ?_ ?_
  · refine ⟨fun _ => rfl, fun hat => ?_⟩
    rw [isAtFrame, fate, fresh] at hat
    cases hat
  · rintro l' ⟨haway, hholding⟩
    exact ⟨haway, hholding⟩
  · intro l' l'' deed before after hsound hborrows hm hopens
    exact hborrows.moved hsound hm (hm.does.borrows (hsound.isOfSend hm hopens))

/-- While a send asks the handle, it is the one call that has the handle. -/
theorem Reachable.only_holder {l : Ledger α} (r : l.Reachable) {name : Nat} {call : Call α}
    {given : Except EncodeError Bytes} (under : ⟨name, call⟩ ∈ l.calls)
    (opens : Opens (l.deeds name) (.send given)) (asks : call.request?.isSome = true) :
    l.connection.slot.busy = true ∧
      ∀ other ∈ l.calls, other.call.holdsHandle = true → other = ⟨name, call⟩ := by
  have hserves := (r.sound.trail _ under).serves opens
  have hholds : call.holdsHandle = true := by
    cases call with
    | sending framed => rfl
    | awaitingSend payload | framing payload => cases asks
    | awaitingCancel | cancelling | dispatch _ => cases hserves
  refine ⟨?_, fun other hother hh => r.exclusive.unique hother under hh hholds⟩
  by_contra hfree
  have hnot := r.exclusive.free (by simpa using hfree) under
  rw [hholds] at hnot
  cases hnot

/-- A send asks the handle once at most, for the frame of its payload and while it alone has the
handle; it asks as soon as it has the handle and the frame. How it ends tells whether there was a
payload, whether it got the handle, and what the handle answered. No step of it changes anything but
who is at the handle, and with the last one the handle is free if the send had it. If nothing but the
send has moved, the connection is what it was. -/
theorem sends_exactly {l : Ledger α} {name : Nat} {given : Except EncodeError Bytes}
    (reachable : l.Reachable) (opens : Opens (l.deeds name) (.send given)) (fits : Fits given) :
    ((l.dealings name).payloads = [] ∧ (l.dealings name).requests = [] ∨
      ∃ payload, given = .ok payload ∧ (l.dealings name).payloads = [payload] ∧
        ((l.dealings name).requests = [.send (Frame.encode payload)] ∨
          (l.dealings name).requests = [] ∧ l.fate name = some (.goesOn (.framing payload)))) ∧
    (∀ call, ⟨name, call⟩ ∈ l.calls → call.request?.isSome = true →
      l.connection.slot.busy = true ∧
        ∀ other ∈ l.calls, other.call.holdsHandle = true → other = ⟨name, call⟩) ∧
    (∀ error, l.fate name = some (.ends (.sent (.error (.encode error)))) ↔
      given = .error error) ∧
    (∀ payload, given = .ok payload →
      (l.fate name = some (.ends (.sent (.ok ()))) ↔ ∃ written,
        (l.dealings name).answers = [.ok written] ∧ (Frame.encode payload).length ≤ written) ∧
      (∀ written expected,
        l.fate name = some (.ends (.sent (.error (.shortWrite written expected)))) ↔
          (l.dealings name).answers = [.ok written] ∧ written < expected ∧
            expected = (Frame.encode payload).length) ∧
      (∀ fault, l.fate name = some (.ends (.sent (.error (.io fault)))) ↔
        (l.dealings name).answers = [.error fault]) ∧
      ((∃ reason, l.fate name = some (.ends (.sent (.error (.unavailable reason))))) ↔
        (l.dealings name).payloads = [] ∧ ∃ outcome, l.fate name = some (.ends outcome))) ∧
    (∀ (l₀ : Ledger α) thread move deed, l₀.Reachable → l₀.next thread move = some l →
      l.history = l₀.history ++ [(name, deed)] →
      (∃ busy, l.connection =
        { l₀.connection with slot := { l₀.connection.slot with busy } }) ∧
      ∀ outcome, deed.next = .ends outcome →
        ((l.dealings name).payloads ≠ [] → ∃ c, l.connection.claim = .ok c) ∧
        ((l.dealings name).payloads = [] → l.connection = l₀.connection)) ∧
    (∀ (l₀ : Ledger α) since, l₀.Reachable → l₀.Reaches l → l.history = l₀.history ++ since →
      l₀.deeds name = [] → (∀ entry ∈ since, entry.1 = name) → ∀ outcome,
      l.fate name = some (.ends outcome) → l.connection = l₀.connection) := by
  obtain ⟨next, htrail, -⟩ := reachable.sound.underWay name opens.ne_nil
  have hfate : l.fate name = some next := htrail.last
  have hsends : Sends given (l.dealings name) next := htrail.sends opens fits
  simp only [hfate, Option.some.injEq]
  refine ⟨hsends.requests_eq, ?_, fun _ => hsends.encode_iff, ?_, ?_, ?_⟩
  · intro call hunder hasks
    exact reachable.only_holder hunder opens hasks
  · intro payload hgiven
    exact ⟨hsends.sent_iff hgiven, fun _ _ => hsends.shortWrite_iff hgiven,
      fun _ => hsends.io_iff, hsends.unavailable_iff hgiven⟩
  · intro l₀ thread move deed hr hn hhistory
    obtain ⟨mover, deed', before, after, hm⟩ := moves_of_next hn
    cases List.append_cancel_left (hm.history.symm.trans hhistory)
    exact ⟨(hm.does.borrows (hr.sound.isOfSend hm opens)).exists_busy,
      fun outcome hends => hr.ends_send hm opens hends⟩
  · intro l₀ since hr hreaches hhistory hfresh halone outcome hends
    have hborrows : Borrows l₀ l name :=
      hreaches.borrows hr hfresh hhistory halone fun _ ho => ho.unique opens
    refine hborrows.away ?_
    rw [isAtFrame, hfate, hends]
    rfl

end Ledger

end WorkerLink

namespace WorkerLink.Ledger

attribute [local instance] Memory.kilobyte

/-- The worker takes three bytes of a frame. The send tells so, and the handle can be had again. -/
theorem sends_exactly_three_bytes : ∃ l : Ledger Unit, l.Reachable ∧
    Opens (l.deeds 0) (.send (.ok [55])) ∧ Fits (.ok [55]) ∧
    (l.dealings 0).answers = [.ok 3] ∧
    l.fate 0 = some (.ends (.sent (.error (.shortWrite 3 22)))) ∧
    l.connection = .start 7 {} ∧ ∃ c, l.connection.claim = .ok c := by
  have hlength : 22 = (Frame.encode [55]).length := by decide +kernel
  have fits : Fits (.ok [55]) := by
    rintro _ ⟨⟩
    rw [← hlength]
    rfl
  let l₀ : Ledger Unit := { connection := .start 7 {} }
  have hr₀ : l₀.Reachable := .start 7 {}
  obtain ⟨l₁, hn₁, hc₁, _, hs₁, hh₁⟩ :=
    exists_start (l := l₀) (.send (.ok [55])) Nat.zero_lt_one rfl
  have hclaims : (Call.awaitingSend [55] : Call Unit).step l₁.connection .proceed =
      some ⟨{ l₀.connection with slot := { busy := true } }, .goesOn (.framing [55]), []⟩ := by
    rw [hc₁]
    rfl
  obtain ⟨l₂, hn₂, _, _, hs₂, hh₂⟩ := exists_goOn hs₁ hclaims rfl
  have hframes : (Call.framing [55] : Call Unit).step l₂.connection .proceed =
      some ⟨l₂.connection, .goesOn (.sending (Frame.encode [55])), []⟩ :=
    congrArg some (if_pos (fits [55] rfl))
  obtain ⟨l₃, hn₃, _, _, hs₃, hh₃⟩ := exists_goOn hs₂ hframes rfl
  obtain ⟨l, hn, _, _, _, hh⟩ := @exists_goOn _ _ _ _ _ _ _ (.wrote (.ok 3)) _ _ hs₃ rfl rfl
  have hr := (((hr₀.next hn₁).next hn₂).next hn₃).next hn
  have hreaches := (((Reaches.refl.next hn₁).next hn₂).next hn₃).next hn
  obtain ⟨since, hsince, halone, hopens, hanswers⟩ : ∃ since, l.history = l₀.history ++ since ∧
      (∀ entry ∈ since, entry.1 = 0) ∧ Opens (l.deeds 0) (.send (.ok [55])) ∧
      (l.dealings 0).answers = [.ok 3] := by
    simp only [hh₃, hh₂, hh₁, List.append_assoc, List.cons_append, List.nil_append] at hh
    refine ⟨_, hh, by simp [l₀], ?_, ?_⟩
    · rw [deeds, hh]
      exact ⟨_, rfl⟩
    · rw [dealings, deeds, hh]
      rfl
  obtain ⟨_, _, _, hends, _, hsame⟩ := sends_exactly hr hopens fits
  have hfate := ((hends [55] rfl).2.1 3 22).mpr ⟨hanswers, by decide, hlength⟩
  have hconnection := hsame _ since hr₀ hreaches hsince rfl halone _ hfate
  exact ⟨l, hr, hopens, fits, hanswers, hfate, hconnection, _,
    (congrArg Connection.claim hconnection).trans (Connection.claim_eq_ok.mpr ⟨rfl, rfl, rfl⟩)⟩

end WorkerLink.Ledger
