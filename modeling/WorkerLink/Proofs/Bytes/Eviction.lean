import WorkerLink.RecentBytes
import Mathlib.Algebra.Order.Floor.Div

/-!
# What one addition evicts

An addition that does not fit evicts the oldest bytes of a record by halves of its
capacity, and the halves that go are the fewest that make room (`evicted`,
`evict_eq_drop`). Where the last of them is larger than what is left, all goes.

One half is enough for an addition of at most a half. For such additions the record
is the one that shifts once (`shiftOnce`).
-/

namespace WorkerLink.RecentBytes

theorem half_pos (capacity : Nat) : 0 < half capacity := by
  unfold half
  omega

theorem half_le {capacity : Nat} (room : 0 < capacity) : half capacity ≤ capacity := by
  unfold half
  omega

/-- What goes of `length` bytes before `incoming` more: the least number of halves that suffices. -/
def evicted (capacity length incoming : Nat) : Nat :=
  half capacity * ((length + incoming - capacity) ⌈/⌉ half capacity)

theorem evicted_of_fits {capacity length incoming : Nat} (h : length + incoming ≤ capacity) :
    evicted capacity length incoming = 0 := by
  rw [evicted, Nat.sub_eq_zero_of_le h, zero_ceilDiv, Nat.mul_zero]

/-- Enough goes. -/
theorem le_evicted (capacity length incoming : Nat) :
    length + incoming - capacity ≤ evicted capacity length incoming :=
  le_smul_ceilDiv (half_pos capacity)

/-- Less goes than what is too much and one half. -/
theorem evicted_lt (capacity length incoming : Nat) :
    evicted capacity length incoming < length + incoming - capacity + half capacity := by
  have hpos := half_pos capacity
  have hle := Nat.mul_div_le (length + incoming - capacity + half capacity - 1) (half capacity)
  rw [evicted, Nat.ceilDiv_eq_add_pred_div]
  omega

/-- Where something has to go, one half goes first. -/
theorem evicted_of_not_fits {capacity length incoming : Nat} (h : capacity < length + incoming)
    (enough : half capacity ≤ length) : evicted capacity length incoming =
      half capacity + evicted capacity (length - half capacity) incoming := by
  have hpos := half_pos capacity
  have hfirst : (length + incoming - capacity) ⌈/⌉ half capacity =
      (length - half capacity + incoming - capacity) ⌈/⌉ half capacity + 1 := by
    rw [Nat.ceilDiv_eq_add_pred_div, Nat.ceilDiv_eq_add_pred_div]
    by_cases hmore : half capacity ≤ length + incoming - capacity
    · have hrest : length + incoming - capacity + half capacity - 1 =
          length - half capacity + incoming - capacity + half capacity - 1 + half capacity := by
        omega
      rw [hrest, Nat.add_div_right _ hpos]
    · have hone : (length + incoming - capacity + half capacity - 1) / half capacity = 1 :=
        Nat.div_eq_of_lt_le (by omega) (by omega)
      have hnone : (length - half capacity + incoming - capacity + half capacity - 1) /
          half capacity = 0 := Nat.div_eq_of_lt (by omega)
      rw [hone, hnone]
  rw [evicted, hfirst, Nat.mul_succ, Nat.add_comm, evicted]

/-- The bytes that go are the oldest ones. -/
theorem evict_eq_drop (capacity incoming : Nat) (bytes : Bytes) :
    evict capacity incoming bytes = bytes.drop (evicted capacity bytes.length incoming) := by
  fun_induction evict capacity incoming bytes with
  | case1 bytes hmore ih =>
    rw [ih, List.drop_drop, List.length_drop]
    by_cases hhalf : half capacity ≤ bytes.length
    · rw [evicted_of_not_fits hmore.2 hhalf]
    · have hpos : 0 < bytes.length := List.length_pos_iff.mpr hmore.1
      have hone : half capacity ≤ evicted capacity bytes.length incoming := by
        refine Nat.le_mul_of_pos_right _ (Nat.pos_of_ne_zero fun hzero => ?_)
        have hle := le_evicted capacity bytes.length incoming
        rw [evicted, hzero, Nat.mul_zero] at hle
        omega
      rw [List.drop_of_length_le (by omega), List.drop_of_length_le (by omega)]
  | case2 bytes hdone =>
    by_cases hnil : bytes = []
    · rw [hnil, List.drop_nil]
    · have hfits : ¬ capacity < bytes.length + incoming := fun hmore => hdone ⟨hnil, hmore⟩
      rw [evicted_of_fits (Nat.le_of_not_lt hfits), List.drop_zero]

theorem evict_suffix (capacity incoming : Nat) (bytes : Bytes) :
    evict capacity incoming bytes <:+ bytes := by
  rw [evict_eq_drop]
  exact List.drop_suffix _ _

/-- After an eviction there is room. -/
theorem evict_fits {capacity incoming : Nat} (h : incoming ≤ capacity) (bytes : Bytes) :
    (evict capacity incoming bytes).length + incoming ≤ capacity := by
  have hle := le_evicted capacity bytes.length incoming
  rw [evict_eq_drop, List.length_drop]
  omega

/-- After an eviction less than a half stays free. -/
theorem lt_evict {capacity incoming : Nat} {bytes : Bytes} (room : 0 < capacity)
    (h : capacity < bytes.length + incoming) :
    capacity - half capacity < (evict capacity incoming bytes).length + incoming := by
  have hhalf := half_le room
  have hlt := evicted_lt capacity bytes.length incoming
  rw [evict_eq_drop, List.length_drop]
  omega

/-- No fewer halves make room: where so many suffice, no more go. -/
theorem min_evicted_le {capacity length incoming m : Nat}
    (room : length - half capacity * m + incoming ≤ capacity) :
    min length (evicted capacity length incoming) ≤ half capacity * m := by
  by_cases hall : length ≤ half capacity * m
  · exact Nat.le_trans (Nat.min_le_left _ _) hall
  · have henough : length + incoming - capacity ≤ half capacity * m := by omega
    have hceil := (ceilDiv_le_iff_le_mul (half_pos capacity)).mpr henough
    exact Nat.le_trans (Nat.min_le_right _ _) (Nat.mul_le_mul_left _ hceil)

/-- One half suffices for a piece of at most a half. -/
theorem evicted_of_short {capacity length incoming : Nat} (short : incoming ≤ half capacity)
    (bounded : length ≤ capacity) (beyond : capacity < length + incoming) :
    evicted capacity length incoming = half capacity := by
  have hone : (length + incoming - capacity) ⌈/⌉ half capacity = 1 := by
    rw [Nat.ceilDiv_eq_add_pred_div]
    exact Nat.div_eq_of_lt_le (by omega) (by omega)
  rw [evicted, hone, Nat.mul_one]

/-- A record that shifts once: where a piece does not fit, half of the capacity goes. -/
def shiftOnce (r : RecentBytes) (incoming : Bytes) : RecentBytes :=
  { r with bytes := (if r.capacity < r.bytes.length + incoming.length then
      r.bytes.drop (r.capacity / 2) else r.bytes) ++ incoming }

section Append

variable {r : RecentBytes} {incoming : Bytes} (bounded : r.bytes.length ≤ r.capacity)
include bounded

/-- An addition keeps the newest bytes of a piece, behind what the eviction leaves. -/
theorem append_eq (room : 0 < r.capacity) : r.append incoming = { r with
    bytes := evict r.capacity (incoming.last r.capacity).length r.bytes ++
      incoming.last r.capacity } := by
  by_cases hnil : incoming = []
  · have hfits : r.bytes.length + ([] : Bytes).length ≤ r.capacity := bounded
    rw [hnil, append_of_fits hfits, Bytes.last, List.drop_nil, evict_of_fits hfits]
  · have hroom : ¬ (incoming = [] ∨ r.capacity = 0) := by
      rintro (h | h)
      · exact hnil h
      · omega
    rw [append, if_neg hroom]

theorem append_eq_drop (room : 0 < r.capacity) : r.append incoming = { r with
    bytes := r.bytes.drop (min r.bytes.length
        (evicted r.capacity r.bytes.length (min incoming.length r.capacity))) ++
      incoming.last (min incoming.length r.capacity) } := by
  have hlast : incoming.last (min incoming.length r.capacity) = incoming.last r.capacity := by
    rw [Bytes.last, Bytes.last]
    congr 1
    omega
  rw [append_eq bounded room, hlast, evict_eq_drop, List.drop_eq_drop_min, Bytes.length_last,
    Nat.min_comm r.capacity, Nat.min_comm r.bytes.length]

theorem append_eq_shiftOnce (two : 2 ≤ r.capacity) (short : incoming.length ≤ r.capacity / 2) :
    r.append incoming = r.shiftOnce incoming := by
  have hhalf : half r.capacity = r.capacity / 2 := Nat.max_eq_right (by omega)
  by_cases hover : r.capacity < r.bytes.length + incoming.length
  · have hlast : incoming.last r.capacity = incoming := by
      rw [Bytes.last, Nat.sub_eq_zero_of_le (by omega), List.drop_zero]
    have hone : evicted r.capacity r.bytes.length incoming.length = r.capacity / 2 := by
      rw [evicted_of_short (by omega) bounded hover, hhalf]
    rw [append_eq bounded (by omega), hlast, evict_eq_drop, hone, shiftOnce, if_pos hover]
  · rw [append_of_fits (Nat.le_of_not_lt hover), shiftOnce, if_neg hover]

end Append

/-- An addition drops the oldest bytes by the fewest halves that make room, or all there are, and
nothing where the piece fits. It keeps the newest bytes of the piece. A piece of at most a half is
added as by a record that shifts once. -/
theorem append_evicts_least (r : RecentBytes) (incoming : Bytes) (room : 0 < r.capacity)
    (bounded : r.bytes.length ≤ r.capacity) :
    let kept := min incoming.length r.capacity
    let half := max 1 (r.capacity / 2)
    let gone := if r.bytes.length + kept ≤ r.capacity then 0
      else min r.bytes.length (half * ((r.bytes.length + kept - r.capacity) ⌈/⌉ half))
    r.append incoming = { r with bytes := r.bytes.drop gone ++ incoming.last kept } ∧
    (r.bytes.length - gone + kept ≤ r.capacity ∧
      ∀ m, r.bytes.length - half * m + kept ≤ r.capacity → gone ≤ half * m) ∧
    (2 ≤ r.capacity → incoming.length ≤ r.capacity / 2 → r.append incoming = r.shiftOnce incoming ∧
      (r.capacity < r.bytes.length + incoming.length → gone = r.capacity / 2)) := by
  intro kept half gone
  have hhalf : RecentBytes.half r.capacity = half := rfl
  have hgone : gone = min r.bytes.length (evicted r.capacity r.bytes.length kept) := by
    by_cases hfits : r.bytes.length + kept ≤ r.capacity
    · rw [evicted_of_fits hfits, Nat.min_zero]
      exact if_pos hfits
    · exact if_neg hfits
  have hroom := le_evicted r.capacity r.bytes.length kept
  refine ⟨hgone ▸ append_eq_drop bounded room, ⟨by omega, ?_⟩, ?_⟩
  · intro m hm
    rw [hgone]
    exact min_evicted_le hm
  · intro htwo hshort
    refine ⟨append_eq_shiftOnce bounded htwo hshort, ?_⟩
    intro hover
    have hone : evicted r.capacity r.bytes.length kept = half :=
      evicted_of_short (by omega) bounded (by omega)
    omega

/-- Four bytes for a full record of five: two halves of two bytes go, and one would not do. -/
theorem append_evicts_least_of_four_bytes :
    let r : RecentBytes := ⟨5, [1, 2, 3, 4, 5]⟩
    0 < r.capacity ∧ r.bytes.length ≤ r.capacity ∧
      r.append [6, 7, 8, 9] = ⟨5, [5, 6, 7, 8, 9]⟩ ∧ ∀ m, 5 - 2 * m + 4 ≤ 5 → 4 ≤ 2 * m := by
  intro r
  have hroom : 0 < r.capacity := by decide
  have hbounded : r.bytes.length ≤ r.capacity := by decide
  obtain ⟨happend, ⟨-, hleast⟩, -⟩ := append_evicts_least r [6, 7, 8, 9] hroom hbounded
  have hhalves : 4 ⌈/⌉ 2 = 2 := Nat.ceilDiv_eq_add_pred_div 4 2
  refine ⟨hroom, hbounded, ?_, ?_⟩
  · simpa [r, hhalves, Bytes.last] using happend
  · simpa [r, hhalves] using hleast

end WorkerLink.RecentBytes
