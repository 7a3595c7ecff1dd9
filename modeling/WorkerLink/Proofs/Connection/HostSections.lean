import WorkerLink.Proofs.Connection.SingleRun

/-!
# Events are told inside the host

The trace of a call shows where it enters and leaves its host, what it tells its
receiver there, and what it asks of the handle or decodes. It is `Serialized`:
each section holds one event, and everything else stands between the sections.
Only the last section may still be open, while the receiver is at work
(`Trail.shows`).
-/

namespace WorkerLink

variable {α : Type}

/-- What a call does about its host, its receiver, the handle and its codec. -/
inductive Mark (α : Type)
  | enters
  | tells (event : Event α)
  | leaves
  | asks (request : Request)
  | decodes (frame : Frame)

namespace Mark

def isApart : Mark α → Bool
  | .asks _ | .decodes _ => true
  | .enters | .tells _ | .leaves => false

def event? : Mark α → Option (Event α)
  | .tells event => some event
  | _ => none

def request? : Mark α → Option Request
  | .asks request => some request
  | _ => none

def frame? : Mark α → Option Frame
  | .decodes frame => some frame
  | _ => none

end Mark

/-- One event in each section, and everything else between the sections. -/
inductive Serialized : List (Mark α) → Prop
  | nil : Serialized []
  | apart {marks : List (Mark α)} {mark : Mark α} : Serialized marks → mark.isApart = true →
      Serialized (marks ++ [mark])
  | section {marks : List (Mark α)} {event : Event α} : Serialized marks →
      Serialized (marks ++ [.enters, .tells event, .leaves])

/-- The last section is open, and its event has been told. -/
def Open (marks : List (Mark α)) (event : Event α) : Prop :=
  ∃ before, Serialized before ∧ marks = before ++ [.enters, .tells event]

theorem Serialized.append {marks more : List (Mark α)} (h : Serialized marks)
    (apart : ∀ mark ∈ more, mark.isApart = true) : Serialized (marks ++ more) := by
  induction more generalizing marks with
  | nil =>
    rw [List.append_nil]
    exact h
  | cons mark more ih =>
    rw [List.append_cons]
    exact ih (.apart h (apart mark List.mem_cons_self)) fun m hm =>
      apart m (List.mem_cons_of_mem mark hm)

theorem Open.leave {marks : List (Mark α)} {event : Event α} (h : Open marks event) :
    Serialized (marks ++ [.leaves]) := by
  obtain ⟨before, hbefore, rfl⟩ := h
  rw [List.append_assoc]
  exact .section hbefore

def Next.goesOnWith (p : Call α → Bool) : Next α → Bool
  | .goesOn call => p call
  | .ends _ | .unwinds => false

namespace Deed

def before (p : Call α → Bool) (d : Deed α) : Bool :=
  match d.cause with
  | .start _ => false
  | .goOn call _ => p call

def after (p : Call α → Bool) (d : Deed α) : Bool := d.next.goesOnWith p

theorem before_iff {d : Deed α} {p : Call α → Bool} (name : Nat) :
    d.before p = true ↔ ∃ named ∈ d.found name, p named.call = true := by
  unfold before found
  cases d.cause <;> simp

theorem after_iff {d : Deed α} {p : Call α → Bool} (name : Nat) :
    d.after p = true ↔ ∃ named ∈ d.left name, p named.call = true := by
  unfold after left
  cases d.next <;> simp [Next.goesOnWith]

def decoded? (d : Deed α) : Option Frame :=
  match d.cause with
  | .goOn (.dispatch run) _ => match run.stage with
    | .decoding frame => some frame
    | _ => none
  | _ => none

/-- What the handle is asked for at the end of a deed. -/
def request? (d : Deed α) : Option Request :=
  match d.next with
  | .goesOn call => call.request?
  | .ends _ | .unwinds => none

def marks (d : Deed α) : List (Mark α) :=
  (if d.before Call.isInsideHost && !d.after Call.isInsideHost then [.leaves] else []) ++
    d.decoded?.toList.map .decodes ++
    (if !d.before Call.isInsideHost && d.after Call.isInsideHost then [.enters] else []) ++
    d.delivery?.toList.map .tells ++ d.request?.toList.map .asks

theorem after_isInsideHost (d : Deed α) : d.after Call.isInsideHost = d.delivery?.isSome := by
  unfold after delivery?
  cases d.next <;> rfl

/-- Where the receiver is at work, the handle is not. -/
theorem request?_of_delivery {d : Deed α} {event : Event α} (h : d.delivery? = some event) :
    d.request? = none := by
  unfold delivery? at h
  unfold request?
  cases hn : d.next with
  | goesOn call =>
    rw [hn] at h
    cases call with
    | dispatch run => cases hs : run.stage <;> simp_all [Call.event?, Call.request?]
    | awaitingSend _ => rfl
    | framing _ => rfl
    | sending _ => cases h
    | awaitingCancel => rfl
    | cancelling => cases h
  | ends outcome => rfl
  | unwinds => rfl

/-- A deed by which the receiver gets an event. -/
theorem marks_of_delivery {d : Deed α} {event : Event α} (h : d.delivery? = some event)
    (outside : d.before Call.isInsideHost = false) :
    d.marks = d.decoded?.toList.map .decodes ++ [.enters, .tells event] := by
  have hafter : d.after Call.isInsideHost = true := by rw [after_isInsideHost, h]; rfl
  simp [marks, outside, hafter, h, request?_of_delivery h]

/-- Any other deed. -/
theorem marks_of_quiet {d : Deed α} (h : d.delivery? = none) :
    d.marks = (if d.before Call.isInsideHost then [.leaves] else []) ++
      (d.decoded?.toList.map .decodes ++ d.request?.toList.map .asks) := by
  have hafter : d.after Call.isInsideHost = false := by rw [after_isInsideHost, h]; rfl
  simp [marks, hafter, h]

theorem isApart_of_quiet {d : Deed α} : ∀ mark ∈ d.decoded?.toList.map Mark.decodes ++
    d.request?.toList.map (Mark.asks (α := α)), mark.isApart = true := by
  intro mark hmem
  rcases List.mem_append.mp hmem with h | h
  · obtain ⟨_, _, rfl⟩ := List.mem_map.mp h
    rfl
  · obtain ⟨_, _, rfl⟩ := List.mem_map.mp h
    rfl

end Deed

/-- The receiver gets an event only from outside the host. -/
theorem Call.Goes.outside_of_event [Memory] {c c' : Connection} {call call' : Call α}
    {input : Input} {event : Event α} (h : Goes c call input c' (.goesOn call'))
    (tells : call'.event? = some event) : call.isInsideHost = false := by
  cases h with
  | takesHandle _ _ => rfl
  | frames _ => rfl
  | cancels _ _ => rfl
  | @dispatches run _ _ _ hd =>
    obtain ⟨run', rfl, ha⟩ := hd.advances
    rcases ha.tells with ⟨_, hs, _⟩ | ⟨hsilent, _⟩
    · simp [isInsideHost, Call.event?, hs]
    · cases hs : run'.stage <;> simp [Call.event?, hs] at tells
      exact False.elim (hsilent _ hs)

def trace (deeds : List (Deed α)) : List (Mark α) := deeds.flatMap Deed.marks

theorem trace_snoc (deeds : List (Deed α)) (d : Deed α) :
    trace (deeds ++ [d]) = trace deeds ++ d.marks := by
  simp [trace]

def Next.event? : Next α → Option (Event α)
  | .goesOn call => call.event?
  | .ends _ | .unwinds => none

/-- A trace while the receiver has an event, or has none. -/
def Shows (marks : List (Mark α)) : Option (Event α) → Prop
  | some event => Open marks event
  | none => Serialized marks

/-- One more deed: it leaves the section that was open, or opens one with an event. -/
theorem Shows.snoc {marks : List (Mark α)} {event : Option (Event α)} {d : Deed α}
    (h : Shows marks event) (before : d.before Call.isInsideHost = event.isSome)
    (outside : event.isSome = true → d.delivery? = none) :
    Shows (marks ++ d.marks) d.delivery? := by
  cases hd : d.delivery? with
  | some told =>
    cases event with
    | some pending =>
      rw [outside rfl] at hd
      cases hd
    | none =>
      have hserialized : Serialized (marks ++ d.decoded?.toList.map .decodes) :=
        Serialized.append h fun mark hmem =>
          Deed.isApart_of_quiet (d := d) mark (List.mem_append_left _ hmem)
      refine ⟨_, hserialized, ?_⟩
      rw [Deed.marks_of_delivery hd before, List.append_assoc]
  | none =>
    rw [Deed.marks_of_quiet hd, before]
    cases event with
    | some pending =>
      rw [← List.append_assoc]
      exact (Open.leave h).append Deed.isApart_of_quiet
    | none => exact Serialized.append h Deed.isApart_of_quiet

/-- Whatever becomes of a call, its events are told in sections of their own. -/
theorem Trail.shows [Memory] {deeds : List (Deed α)} {next : Next α} (h : Trail deeds next) :
    Shows (trace deeds) next.event? := by
  induction h with
  | @start operation _ _ next _ =>
    have hstart : Shows (trace ([] : List (Deed α))) none := Serialized.nil
    rw [← List.nil_append [(⟨.start operation, next⟩ : Deed α)], trace_snoc]
    exact hstart.snoc rfl nofun
  | @goOn deeds call input _ _ next _ hg ih =>
    rw [trace_snoc]
    refine ih.snoc rfl fun hinside => ?_
    cases hnext : next with
    | goesOn call' =>
      subst hnext
      cases htells : call'.event? with
      | none => exact htells
      | some event =>
        have hout := hg.outside_of_event htells
        rw [Call.isInsideHost] at hout
        rw [Next.event?, hout] at hinside
        cases hinside
    | ends outcome => rfl
    | unwinds => rfl

section Contents

variable {β : Type} {g : Mark α → Option β}

theorem filterMap_toList {γ δ : Type} {f : γ → Mark δ} {g : Mark δ → Option β} (o : Option γ) :
    (o.toList.map f).filterMap g = (o.bind fun b => g (f b)).toList := by
  cases o with
  | none => rfl
  | some b => cases hg : g (f b) <;> simp [hg]

theorem filterMap_ite {m : Mark α} (h : g m = none) (b : Bool) :
    (if b then [m] else []).filterMap g = [] := by
  cases b <;> simp [h]

/-- What can be read off the marks of a deed, the borders of sections left out. -/
theorem Deed.filterMap_marks (enters : g .enters = none) (leaves : g .leaves = none) (d : Deed α) :
    d.marks.filterMap g = (d.decoded?.bind fun frame => g (.decodes frame)).toList ++
      (d.delivery?.bind fun event => g (.tells event)).toList ++
      (d.request?.bind fun request => g (.asks request)).toList := by
  simp only [marks, List.filterMap_append, filterMap_toList, filterMap_ite enters,
    filterMap_ite leaves, List.nil_append, List.append_nil]

theorem filterMap_trace {f : Deed α → Option β}
    (h : ∀ d : Deed α, d.marks.filterMap g = (f d).toList) (deeds : List (Deed α)) :
    (trace deeds).filterMap g = deeds.filterMap f := by
  induction deeds with
  | nil => rfl
  | cons d deeds ih =>
    rw [trace, List.flatMap_cons, List.filterMap_append, h, ← trace, ih, List.filterMap_cons]
    cases f d <;> rfl

/-- The trace shows all that the receiver is told and the handle is asked, and all that is
decoded. -/
theorem contents_of_trace (deeds : List (Deed α)) :
    (trace deeds).filterMap Mark.event? = told deeds ∧
      (trace deeds).filterMap Mark.request? = deeds.filterMap Deed.request? ∧
      (trace deeds).filterMap Mark.frame? = deeds.filterMap Deed.decoded? := by
  refine ⟨filterMap_trace (fun d => ?_) deeds, filterMap_trace (fun d => ?_) deeds,
    filterMap_trace (fun d => ?_) deeds⟩
  · simp [Deed.filterMap_marks (g := Mark.event?) rfl rfl, Mark.event?]
  · simp [Deed.filterMap_marks (g := Mark.request?) rfl rfl, Mark.request?]
  · simp [Deed.filterMap_marks (g := Mark.frame?) rfl rfl, Mark.frame?]

end Contents

end WorkerLink
