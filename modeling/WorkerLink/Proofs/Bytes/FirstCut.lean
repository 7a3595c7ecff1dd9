import WorkerLink.Bytes
import Mathlib.Data.List.Infix

/-!
# Where a pattern first occurs

`Cuts` says without an algorithm what `cut?` computes. Bytes that come later do
not move a cut. As long as there is none, all but a tail shorter than the
pattern can be put aside: a pattern that comes later starts in that tail or
behind it.
-/

namespace WorkerLink.Bytes

/-- The first occurrence of `pattern` in `s` stands between `before` and `after`. -/
structure Cuts (pattern s before after : Bytes) : Prop where
  split : s = before ++ pattern ++ after
  first : ∀ x y, s = x ++ pattern ++ y → before.length ≤ x.length

theorem Cuts.unique {pattern s a b c d : Bytes} (h : Cuts pattern s a b)
    (k : Cuts pattern s c d) : a = c ∧ b = d := by
  have hle := h.first c d k.split
  have hge := k.first a b h.split
  have same : a ++ (pattern ++ b) = c ++ (pattern ++ d) := by
    rw [← List.append_assoc, ← List.append_assoc, ← h.split, ← k.split]
  obtain ⟨hac, rest⟩ := List.append_inj same (by omega)
  exact ⟨hac, List.append_cancel_left rest⟩

/-- There is no occurrence before the first one. -/
theorem Cuts.not_infix {pattern s before after : Bytes} (h : Cuts pattern s before after)
    (ne : pattern ≠ []) : ¬ pattern <:+: before := by
  rintro ⟨x, y, hbefore⟩
  have hpos := List.length_pos_iff.mpr ne
  have hlen := congrArg List.length hbefore
  have hle := h.first x (y ++ (pattern ++ after)) (by
    rw [h.split, ← hbefore]
    simp only [List.append_assoc])
  simp only [List.length_append] at hlen
  omega

theorem cut?_eq_none_iff {pattern s : Bytes} :
    cut? pattern s = none ↔ ∀ x y, s ≠ x ++ pattern ++ y := by
  induction s with
  | nil => cases pattern <;> simp [cut?]
  | cons b rest ih =>
    simp only [cut?]
    by_cases hp : pattern.isPrefixOf (b :: rest) = true
    · obtain ⟨y, hy⟩ := List.isPrefixOf_iff_prefix.mp hp
      simp only [hp, if_true, reduceCtorEq, false_iff, not_forall, not_not]
      exact ⟨[], y, by simpa using hy.symm⟩
    · rw [if_neg hp, Option.map_eq_none_iff, ih]
      constructor
      · intro h x y hs
        cases x with
        | nil => exact hp (List.isPrefixOf_iff_prefix.mpr ⟨y, by simpa using hs.symm⟩)
        | cons c x =>
          simp only [List.cons_append, List.cons.injEq] at hs
          exact h x y hs.2
      · intro h x y hs
        exact h (b :: x) y (by simp [hs])

/-- Bytes are not cut if and only if the pattern is nowhere in them. -/
theorem cut?_eq_none_iff_not_infix {pattern s : Bytes} :
    cut? pattern s = none ↔ ¬ pattern <:+: s := by
  rw [cut?_eq_none_iff]
  constructor
  · rintro h ⟨x, y, hs⟩
    exact h x y hs.symm
  · intro h x y hs
    exact h ⟨x, y, hs.symm⟩

theorem cuts_of_cut? {pattern s before after : Bytes}
    (h : cut? pattern s = some (before, after)) : Cuts pattern s before after := by
  refine ⟨eq_append_of_cut? h, ?_⟩
  induction s generalizing before with
  | nil =>
    have hs := eq_append_of_cut? h
    have hb : before.length = 0 := by
      have := congrArg List.length hs
      simp only [List.length_nil, List.length_append] at this
      omega
    intro x y _
    omega
  | cons b rest ih =>
    simp only [cut?] at h
    split at h
    · have hb : before = [] := by simpa using (congrArg Prod.fst (Option.some.inj h)).symm
      simp [hb]
    · next hp =>
      obtain ⟨⟨u, v⟩, huv, he⟩ := Option.map_eq_some_iff.mp h
      obtain ⟨rfl, rfl⟩ := Prod.mk.inj he
      intro x y hs
      cases x with
      | nil => exact False.elim (hp (List.isPrefixOf_iff_prefix.mpr ⟨y, by simpa using hs.symm⟩))
      | cons c x =>
        simp only [List.cons_append, List.cons.injEq] at hs
        have := ih huv x y hs.2
        simp only [List.length_cons]
        omega

theorem cut?_eq_some_iff {pattern s before after : Bytes} :
    cut? pattern s = some (before, after) ↔ Cuts pattern s before after := by
  refine ⟨cuts_of_cut?, fun h => ?_⟩
  cases hc : cut? pattern s with
  | none => exact False.elim (cut?_eq_none_iff.mp hc _ _ h.split)
  | some found =>
    obtain ⟨b, a⟩ := found
    obtain ⟨rfl, rfl⟩ := (cuts_of_cut? hc).unique h
    rfl

theorem length_of_cut? {pattern s before after : Bytes}
    (h : cut? pattern s = some (before, after)) :
    s.length = before.length + pattern.length + after.length := by
  rw [eq_append_of_cut? h, List.length_append, List.length_append]

/-- Bytes that come later do not move a cut. -/
theorem cut?_append_of_some {pattern s before after : Bytes}
    (h : cut? pattern s = some (before, after)) (t : Bytes) :
    cut? pattern (s ++ t) = some (before, after ++ t) := by
  have hs := cuts_of_cut? h
  refine cut?_eq_some_iff.mpr ⟨by simp [hs.split], fun x y hxy => ?_⟩
  by_cases hle : before.length ≤ x.length
  · exact hle
  · have hlen := length_of_cut? h
    have hpre : x ++ pattern <+: s := by
      apply List.prefix_of_prefix_length_le ⟨y, hxy.symm⟩ (List.prefix_append s t)
      rw [List.length_append]
      omega
    obtain ⟨z, hz⟩ := hpre
    exact hs.first x z hz.symm

/-- A cut of all the bytes is one of the first so many, unless these end before the pattern does. -/
theorem cut?_of_append {pattern s t before after : Bytes}
    (h : cut? pattern (s ++ t) = some (before, after)) :
    s.length < before.length + pattern.length ∧ cut? pattern s = none ∨
      ∃ rest, after = rest ++ t ∧ cut? pattern s = some (before, rest) := by
  cases hs : cut? pattern s with
  | some found =>
    obtain ⟨b, rest⟩ := found
    have hall := cut?_append_of_some hs t
    rw [h] at hall
    cases hall
    exact .inr ⟨rest, rfl, rfl⟩
  | none =>
    refine .inl ⟨?_, rfl⟩
    by_contra hle
    have hpre : before ++ pattern <+: s := by
      apply List.prefix_of_prefix_length_le ⟨after, (eq_append_of_cut? h).symm⟩
        (List.prefix_append s t)
      rw [List.length_append]
      omega
    obtain ⟨y, hy⟩ := hpre
    exact cut?_eq_none_iff.mp hs before y hy.symm

/-- Where no occurrence starts, the search may begin later. -/
theorem cut?_skip {pattern : Bytes} (u w : Bytes)
    (none_starts : ∀ x y z, u = x ++ y → y ≠ [] → y ++ w ≠ pattern ++ z) :
    cut? pattern (u ++ w) = (cut? pattern w).map fun (b, a) => (u ++ b, a) := by
  induction u with
  | nil => simp
  | cons c u ih =>
    have here : ¬ pattern.isPrefixOf (c :: (u ++ w)) = true := by
      intro hp
      obtain ⟨z, hz⟩ := List.isPrefixOf_iff_prefix.mp hp
      exact none_starts [] (c :: u) z rfl (by simp) hz.symm
    have later := ih fun x y z hu hy => none_starts (c :: x) y z (by simp [hu]) hy
    rw [List.cons_append, cut?, if_neg here, later, Option.map_map]
    rfl

/-- Where no occurrence starts before it, the pattern is found where it stands. -/
theorem cut?_here {pattern : Bytes} (u rest : Bytes)
    (none_starts : ∀ x y z, u = x ++ y → y ≠ [] → y ++ (pattern ++ rest) ≠ pattern ++ z) :
    cut? pattern (u ++ (pattern ++ rest)) = some (u, rest) := by
  have hself : cut? pattern (pattern ++ rest) = some ([], rest) :=
    cut?_eq_some_iff.mpr ⟨rfl, fun _ _ _ => Nat.zero_le _⟩
  rw [cut?_skip _ _ none_starts, hself]
  simp

def Borderless (pattern : Bytes) : Prop :=
  ∀ k < pattern.length, 0 < k → ¬ pattern.drop k <+: pattern

/-- Behind bytes that do not contain it, a pattern without borders is found where it stands. -/
theorem cut?_behind {pattern noise : Bytes} (borderless : Borderless pattern)
    (clean : ¬ pattern <:+: noise) (rest : Bytes) :
    cut? pattern (noise ++ (pattern ++ rest)) = some (noise, rest) := by
  refine cut?_here noise rest fun x y z hnoise hy hz => ?_
  have hpos := List.length_pos_iff.mpr hy
  by_cases hle : pattern.length ≤ y.length
  · obtain ⟨v, hv⟩ := List.prefix_of_prefix_length_le ⟨z, hz.symm⟩ (List.prefix_append y _) hle
    exact clean ⟨x, v, by rw [hnoise, ← hv, List.append_assoc]⟩
  · -- The pattern would start in the noise and end behind it, and that end is a start of it.
    obtain ⟨v, hv⟩ := List.prefix_of_prefix_length_le (List.prefix_append y (pattern ++ rest))
      ⟨z, hz.symm⟩ (by omega)
    have hrest : pattern ++ rest = v ++ z := by
      have hsame : y ++ (pattern ++ rest) = y ++ (v ++ z) := by
        rw [hz, ← List.append_assoc, hv]
      exact List.append_cancel_left hsame
    have hdrop : pattern.drop y.length = v := by rw [← hv, List.drop_left]
    refine borderless y.length (by omega) hpos ?_
    rw [hdrop]
    refine List.prefix_of_prefix_length_le ⟨z, hrest.symm⟩ (List.prefix_append pattern rest) ?_
    rw [← hdrop, List.length_drop]
    omega

/-- A pattern is found where its first byte stands for the first time. -/
theorem cut?_of_not_mem {b : UInt8} {pattern field : Bytes} (h : b ∉ field) (rest : Bytes) :
    cut? (b :: pattern) (field ++ (b :: pattern ++ rest)) = some (field, rest) := by
  refine cut?_here field rest fun x y z hfield hy hz => ?_
  cases y with
  | nil => exact hy rfl
  | cons c y =>
    simp only [List.cons_append, List.cons.injEq] at hz
    exact h (by rw [hfield, hz.1]; exact List.mem_append_right x List.mem_cons_self)

/-- What may be put aside of bytes in which the pattern has not occurred. -/
def aside (n : Nat) (s : Bytes) : Bytes := s.take (s.length - n)

theorem aside_append_last (n : Nat) (s : Bytes) : aside n s ++ last n s = s :=
  List.take_append_drop _ s

theorem cut?_append_of_none {pattern s : Bytes} (h : cut? pattern s = none) (t : Bytes) :
    cut? pattern (s ++ t) =
      (cut? pattern (last (pattern.length - 1) s ++ t)).map fun (b, a) =>
        (aside (pattern.length - 1) s ++ b, a) := by
  have whole : s ++ t =
      aside (pattern.length - 1) s ++ (last (pattern.length - 1) s ++ t) := by
    rw [← List.append_assoc, aside_append_last]
  rw [whole]
  refine cut?_skip _ _ fun x y z hu hy hz => ?_
  have hlast := length_last (pattern.length - 1) s
  have hs : s = x ++ (y ++ last (pattern.length - 1) s) := by
    rw [← List.append_assoc, ← hu, aside_append_last]
  have hylen : 0 < y.length := List.length_pos_iff.mpr hy
  have hslen := congrArg List.length hs
  have hulen := congrArg List.length hu
  simp only [aside, List.length_take, List.length_append] at hslen hulen
  have hpre : pattern <+: y ++ last (pattern.length - 1) s := by
    apply List.prefix_of_prefix_length_le ⟨z, hz.symm⟩
    · rw [← List.append_assoc]
      exact List.prefix_append _ t
    · rw [List.length_append]
      omega
  obtain ⟨v, hv⟩ := hpre
  exact cut?_eq_none_iff.mp h x v (by rw [hs, ← hv, List.append_assoc])

theorem last_append_of_le {n : Nat} (s : Bytes) {t : Bytes} (h : n ≤ t.length) :
    last n (s ++ t) = last n t := by
  have hlen : (s ++ t).length - n = s.length + (t.length - n) := by
    rw [List.length_append]
    omega
  rw [last, last, hlen, List.drop_append, List.drop_of_length_le (by omega)]
  simp

theorem last_append_last (n : Nat) (s t : Bytes) : last n (last n s ++ t) = last n (s ++ t) := by
  have hlast := length_last n s
  by_cases h : s.length ≤ n
  · have whole : last n s = s := by rw [last, Nat.sub_eq_zero_of_le h, List.drop_zero]
    rw [whole]
  · conv_rhs => rw [← aside_append_last n s, List.append_assoc]
    refine (last_append_of_le _ ?_).symm
    rw [List.length_append]
    omega

/-- What is put aside of bytes that come in two parts. -/
theorem aside_append (n : Nat) (s t : Bytes) :
    aside n (s ++ t) = aside n s ++ aside n (last n s ++ t) := by
  have hsame : aside n (s ++ t) ++ last n (s ++ t) =
      aside n s ++ aside n (last n s ++ t) ++ last n (s ++ t) := by
    rw [aside_append_last, ← last_append_last, List.append_assoc, aside_append_last,
      ← List.append_assoc, aside_append_last]
  exact List.append_cancel_right hsame

end WorkerLink.Bytes
