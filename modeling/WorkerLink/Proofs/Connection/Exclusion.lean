import WorkerLink.Proofs.Connection.Telling

/-!
# One holder of the handle

A call takes the handle where nobody has it and keeps it until it lets go, ends
or is unwound. So at any moment one call holds the handle if its place is marked
busy, and none if it is not.
-/

namespace WorkerLink

variable {α : Type}

namespace Deed

def holdsBefore (d : Deed α) : Bool :=
  match d.cause with
  | .start _ => false
  | .goOn call _ => call.holdsHandle

def holdsAfter (d : Deed α) : Bool :=
  match d.next with
  | .goesOn call => call.holdsHandle
  | .ends _ | .unwinds => false

/-- What a deed does about the handle. -/
inductive Hands (c c' : Connection) (d : Deed α) : Prop
  | keeps : d.holdsAfter = d.holdsBefore → c'.slot.busy = c.slot.busy → Hands c c' d
  | takes : d.holdsBefore = false → d.holdsAfter = true → c.slot.busy = false →
      c'.slot.busy = true → Hands c c' d
  | gives : d.holdsBefore = true → d.holdsAfter = false → c'.slot.busy = false → Hands c c' d

end Deed

theorem Dispatch.Absorbs.hands {run : Dispatch α} {c c₁ c' : Connection} {a : Advance}
    {input : Input} {next : Next α} (h : Absorbs run c₁ a c' next) (slot : c₁.slot = c.slot)
    (free : (Call.dispatch run).holdsHandle = false) :
    Deed.Hands c c' ⟨.goOn (.dispatch run) input, next⟩ := by
  cases h with
  | wants _ => exact .keeps free.symm (congrArg Slot.busy slot)
  | finds _ => exact .keeps free.symm (congrArg Slot.busy slot)
  | stops _ => exact .keeps free.symm (congrArg Slot.busy slot)

theorem Dispatch.Goes.hands [Memory] {run : Dispatch α} {c c' : Connection} {input : Input}
    {next : Next α} (h : Goes run c input c' next) :
    Deed.Hands c c' ⟨.goOn (.dispatch run) input, next⟩ := by
  have holds {stage : Stage α} (hs : run.stage = stage) : (Call.dispatch run).holdsHandle =
      (Call.dispatch { run with stage }).holdsHandle := by
    subst hs
    rfl
  cases h with
  | found hs _ => exact .keeps (holds hs).symm rfl
  | missed hs _ => exact .keeps (holds hs).symm rfl
  | tooLate hs _ => exact .keeps (holds hs).symm rfl
  | begins hs _ => exact .keeps (holds hs).symm rfl
  | refused hs => exact .keeps (holds hs).symm rfl
  | leaves hs _ => exact .keeps (holds hs).symm rfl
  | probes hs _ => exact .keeps (holds hs).symm rfl
  | inactive hs _ => exact .keeps (holds hs).symm rfl
  | seeks hs ha => exact ha.hands rfl (holds hs)
  | fails hs => exact .keeps (holds hs).symm rfl
  | hearsNothing hs => exact .keeps (holds hs).symm rfl
  | hears hs _ ha => exact ha.hands rfl (holds hs)
  | retries hs => exact .keeps (holds hs).symm rfl
  | givesUp hs ha => exact ha.hands rfl (holds hs)
  | decodes hs _ => exact .keeps (holds hs).symm rfl
  | stumbles hs _ => exact .keeps (holds hs).symm rfl
  | concludes hs => exact .keeps (holds hs).symm rfl
  | delivers hs => exact .keeps (holds hs).symm rfl
  | continues hs _ => exact .keeps (holds hs).symm rfl
  | finishes hs _ => exact .keeps (holds hs).symm rfl
  | closes hs hc _ =>
    obtain ⟨_, hfree, rfl⟩ := Connection.claim_eq_ok.mp hc
    exact .takes (holds hs) rfl hfree rfl
  | abandons hs _ _ => exact .keeps (holds hs).symm rfl
  | closed hs => exact .keeps (holds hs).symm rfl
  | retires hs => exact .keeps (holds hs).symm rfl
  | releases hs => exact .gives (holds hs) rfl rfl
  | clears hs => exact .keeps (holds hs).symm rfl
  | closeRaises hs => exact .gives (holds hs) rfl rfl
  | raises ho hne =>
    have hfree : (Call.dispatch run).holdsHandle = false := by
      cases hs : run.stage <;> simp [Call.holdsHandle, hs]
      · exact hne hs
      · simp [Call.isOutside, Call.request?, Call.event?, hs] at ho
      · simp [Call.isOutside, Call.request?, Call.event?, hs] at ho
    exact .keeps hfree.symm rfl

theorem Deed.Does.hands [Memory] {c c' : Connection} {d : Deed α} (h : d.Does c c') :
    d.Hands c c' := by
  cases h with
  | starts hs => cases hs <;> exact .keeps rfl rfl
  | goesOn hg =>
    cases hg with
    | takesHandle hc _ =>
      obtain ⟨_, hfree, rfl⟩ := Connection.claim_eq_ok.mp hc
      exact .takes rfl rfl hfree rfl
    | frames _ => exact .keeps rfl rfl
    | lacksMemory _ => exact .gives rfl rfl rfl
    | lacksHandle _ _ => exact .keeps rfl rfl
    | wrote => exact .gives rfl rfl rfl
    | cancels hc _ =>
      obtain ⟨_, hfree, rfl⟩ := Connection.claim_eq_ok.mp hc
      exact .takes rfl rfl hfree rfl
    | skipsCancel _ _ => exact .keeps rfl rfl
    | cancelled => exact .gives rfl rfl rfl
    | sendRaises => exact .gives rfl rfl rfl
    | cancelRaises => exact .gives rfl rfl rfl
    | dispatches hd => exact hd.hands

namespace Ledger

def holds (named : Named α) : Bool := named.call.holdsHandle

/-- One call holds the handle where it is marked busy, and none where it is not. -/
def Exclusive (l : Ledger α) : Prop := l.calls.countP holds = l.connection.slot.busy.toNat

theorem countP_found (name : Nat) (d : Deed α) :
    (d.found name).countP holds = d.holdsBefore.toNat := by
  unfold Deed.found Deed.holdsBefore
  cases d.cause with
  | start operation => rfl
  | goOn call input =>
    cases hc : call.holdsHandle <;> simp [holds, hc]

theorem countP_left (name : Nat) (d : Deed α) :
    (d.left name).countP holds = d.holdsAfter.toNat := by
  unfold Deed.left Deed.holdsAfter
  cases d.next with
  | goesOn call => cases hc : call.holdsHandle <;> simp [holds, hc]
  | ends outcome => rfl
  | unwinds => rfl

theorem Exclusive.moved [Memory] {l l' : Ledger α} {name : Nat} {deed : Deed α}
    {before after : List (Named α)} (h : Exclusive l) (m : Moves l l' name deed before after) :
    Exclusive l' := by
  unfold Exclusive at h ⊢
  rw [m.calls, List.countP_append, List.countP_append, countP_found] at h
  rw [m.calls_next, List.countP_append, List.countP_append, countP_left]
  cases m.does.hands with
  | keeps hholds hbusy => rw [hholds, hbusy, h]
  | takes hbefore hafter hfree hbusy =>
    rw [hbefore, hfree, Bool.toNat_false] at h
    rw [hafter, hbusy, Bool.toNat_true]
    omega
  | gives hbefore hafter hfree =>
    have hle := Bool.toNat_le l.connection.slot.busy
    rw [hbefore, Bool.toNat_true] at h
    rw [hafter, hfree, Bool.toNat_false]
    omega

theorem Reachable.exclusive [Memory] {l : Ledger α} (h : Reachable l) : Exclusive l := by
  induction h with
  | start pid tuning => rfl
  | @spawn l _ ih =>
    unfold Exclusive at ih ⊢
    rw [calls_spawn]
    exact ih
  | next _ hn ih =>
    obtain ⟨_, _, _, _, hm⟩ := moves_of_next hn
    exact ih.moved hm

/-- Nobody holds the handle where it is not busy. -/
theorem Exclusive.free {l : Ledger α} (h : Exclusive l) (free : l.connection.slot.busy = false)
    {named : Named α} (hmem : named ∈ l.calls) : named.call.holdsHandle = false := by
  unfold Exclusive at h
  rw [free, Bool.toNat_false, List.countP_eq_zero] at h
  exact Bool.eq_false_iff.mpr (h named hmem)

/-- Two calls that hold the handle are one. -/
theorem Exclusive.unique {l : Ledger α} (h : Exclusive l) {a b : Named α} (ha : a ∈ l.calls)
    (hb : b ∈ l.calls) (holds_a : a.call.holdsHandle = true) (holds_b : b.call.holdsHandle = true) :
    a = b := by
  have hle := Bool.toNat_le l.connection.slot.busy
  rw [← h, List.countP_eq_length_filter] at hle
  have hfa : a ∈ l.calls.filter holds := List.mem_filter.mpr ⟨ha, holds_a⟩
  have hfb : b ∈ l.calls.filter holds := List.mem_filter.mpr ⟨hb, holds_b⟩
  match hf : l.calls.filter holds with
  | [] =>
    rw [hf] at hfa
    cases hfa
  | [x] =>
    rw [hf, List.mem_singleton] at hfa hfb
    rw [hfa, hfb]
  | x :: y :: rest =>
    rw [hf] at hle
    simp at hle

end Ledger

end WorkerLink
