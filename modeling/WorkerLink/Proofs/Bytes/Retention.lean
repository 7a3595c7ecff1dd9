import WorkerLink.Proofs.Bytes.Eviction

/-!
# What a bounded record retains

A record is given its bytes piece by piece. It always holds an end of all that
it was given: everything while that fits, and from then on more than its
capacity less one eviction (`retention`).

The lower bound is not one of a single addition. `Retains` keeps it over the
additions: one that evicts nothing leaves what earlier ones have left, and one
that does leaves less than a half free.
-/

namespace WorkerLink.RecentBytes

def appendAll (r : RecentBytes) (pieces : List Bytes) : RecentBytes := pieces.foldl append r

@[simp] theorem appendAll_capacity (r : RecentBytes) (pieces : List Bytes) :
    (r.appendAll pieces).capacity = r.capacity := by
  induction pieces generalizing r with
  | nil => rfl
  | cons piece pieces ih =>
    have htail : r.appendAll (piece :: pieces) = (r.append piece).appendAll pieces := rfl
    rw [htail, ih, append_capacity]

/-- The record has been given the bytes `all`, and holds the newest of them. -/
structure Retains (r : RecentBytes) (all : Bytes) : Prop where
  bounded : r.bytes.length ≤ r.capacity
  newest : r.bytes <:+ all
  complete : all.length ≤ r.capacity → r.bytes = all
  full : 0 < r.capacity → r.capacity < all.length →
    r.capacity - half r.capacity < r.bytes.length

theorem retains_empty (capacity : Nat) : Retains { capacity } [] where
  bounded := Nat.zero_le _
  newest := List.suffix_refl _
  complete := fun _ => rfl
  full := fun _ h => absurd h (Nat.not_lt_zero _)

/-- A record without room stays empty. -/
theorem Retains.append_of_no_room {r : RecentBytes} {all : Bytes} (h : r.Retains all)
    (none : r.capacity = 0) (incoming : Bytes) : (r.append incoming).Retains (all ++ incoming) := by
  have hsame : r.append incoming = r := if_pos (.inr none)
  have hnil : r.bytes = [] := List.eq_nil_of_length_eq_zero (by have := h.bounded; omega)
  rw [hsame]
  refine ⟨h.bounded, ?_, ?_, fun hpos => absurd none (by omega)⟩
  · rw [hnil]
    exact List.nil_suffix
  · intro hall
    rw [none, Nat.le_zero, List.length_eq_zero_iff] at hall
    rw [hnil, hall]

theorem Retains.append {r : RecentBytes} {all : Bytes} (h : r.Retains all) (incoming : Bytes) :
    (r.append incoming).Retains (all ++ incoming) := by
  by_cases hroom : r.capacity = 0
  · exact h.append_of_no_room hroom incoming
  have hbytes : (r.append incoming).bytes =
      evict r.capacity (incoming.last r.capacity).length r.bytes ++ incoming.last r.capacity := by
    rw [append_eq h.bounded (Nat.pos_of_ne_zero hroom)]
  have hkept := Bytes.length_last r.capacity incoming
  have hfits := evict_fits (by omega : (incoming.last r.capacity).length ≤ r.capacity) r.bytes
  refine ⟨?_, ?_, ?_, ?_⟩
  · rw [hbytes, List.length_append, append_capacity]
    exact hfits
  · rw [hbytes]
    by_cases hlong : incoming.length ≤ r.capacity
    · have hwhole : incoming.last r.capacity = incoming := by
        rw [Bytes.last, Nat.sub_eq_zero_of_le hlong, List.drop_zero]
      obtain ⟨old, hold⟩ := (evict_suffix r.capacity incoming.length r.bytes).trans h.newest
      rw [hwhole]
      exact ⟨old, by rw [← List.append_assoc, hold]⟩
    · have hnone : evict r.capacity (incoming.last r.capacity).length r.bytes = [] :=
        List.eq_nil_of_length_eq_zero (by omega)
      rw [hnone, List.nil_append]
      exact (List.drop_suffix _ _).trans (List.suffix_append _ _)
  · intro hall
    rw [append_capacity, List.length_append] at hall
    have hold := h.complete (by omega)
    rw [append_of_fits (by rw [hold]; exact hall), hold]
  · intro hpos hall
    rw [append_capacity] at hpos hall ⊢
    rw [hbytes, List.length_append]
    rw [List.length_append] at hall
    by_cases hover : r.capacity < r.bytes.length + (incoming.last r.capacity).length
    · exact lt_evict hpos hover
    · rw [evict_of_fits (by omega)]
      by_cases hold : r.capacity < all.length
      · have := h.full hpos hold
        omega
      · have hhalf := half_pos r.capacity
        rw [h.complete (by omega)] at hover ⊢
        omega

theorem Retains.appendAll {r : RecentBytes} {all : Bytes} (h : r.Retains all)
    (pieces : List Bytes) : (r.appendAll pieces).Retains (all ++ pieces.flatten) := by
  induction pieces generalizing r all with
  | nil =>
    rw [List.flatten_nil, List.append_nil]
    exact h
  | cons piece pieces ih =>
    rw [List.flatten_cons, ← List.append_assoc]
    exact ih (h.append piece)

/-- Whatever pieces a record has been given, its bytes are the newest of them, at most as many as its
capacity: all of them while they fit, and after that always more than the capacity less half of it,
or less one byte where half of it is less than that. -/
theorem retention (capacity : Nat) (pieces : List Bytes) :
    let r := appendAll { capacity } pieces
    r.bytes.length ≤ capacity ∧ r.bytes <:+ pieces.flatten ∧
      (pieces.flatten.length ≤ capacity → r.bytes = pieces.flatten) ∧
      (0 < capacity → capacity < pieces.flatten.length →
        capacity - max 1 (capacity / 2) < r.bytes.length) := by
  intro r
  have h : r.Retains pieces.flatten := (retains_empty capacity).appendAll pieces
  have hcapacity : r.capacity = capacity := appendAll_capacity _ _
  obtain ⟨hbounded, hnewest, hcomplete, hfull⟩ := h
  rw [hcapacity] at hbounded hcomplete hfull
  exact ⟨hbounded, hnewest, hcomplete, hfull⟩

/-- The second piece evicts a half of an odd capacity, the third is longer than the record, and the
last evicts a half of what it left. -/
theorem retention_of_odd_capacity :
    let pieces : List Bytes := [[1, 2, 3, 4], [5, 6], [7, 8, 9, 10, 11, 12, 13], [14]]
    let r := appendAll { capacity := 5 } pieces
    5 < pieces.flatten.length ∧ r.bytes.length ≤ 5 ∧ r.bytes <:+ pieces.flatten ∧
      3 < r.bytes.length := by
  intro pieces r
  have hmore : 5 < pieces.flatten.length := by decide
  obtain ⟨hbounded, hnewest, -, hfull⟩ := retention 5 pieces
  exact ⟨hmore, hbounded, hnewest, hfull (by decide) hmore⟩

end WorkerLink.RecentBytes
