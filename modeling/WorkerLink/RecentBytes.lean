import WorkerLink.Bytes

/-!
A bounded record of the newest bytes of a stream. When an addition would not fit, the oldest half of
the capacity goes, as often as needed, so after an overflow the record holds between half and all of
its capacity.
-/

namespace WorkerLink

/-- The newest bytes of a stream, at most `capacity` of them. -/
structure RecentBytes where
  capacity : Nat
  bytes : Bytes := []
deriving DecidableEq, Repr

namespace RecentBytes

/-- Capacity of a record unless told otherwise: 4 MiB. -/
def defaultCapacity : Nat := 4 * 1024 * 1024

def half (capacity : Nat) : Nat := max 1 (capacity / 2)

/-- Drops halves of the capacity, oldest bytes first, until `incoming` more bytes fit or nothing is
left. -/
def evict (capacity incoming : Nat) (bytes : Bytes) : Bytes :=
  if bytes ≠ [] ∧ capacity < bytes.length + incoming then
    evict capacity incoming (bytes.drop (half capacity))
  else bytes
termination_by bytes.length
decreasing_by
  have : 0 < bytes.length := List.length_pos_iff.2 (by simp_all)
  simp only [List.length_drop, half]
  omega

/-- Adds bytes. A chunk larger than the capacity leaves only its newest `capacity` bytes. -/
def append (r : RecentBytes) (incoming : Bytes) : RecentBytes :=
  if incoming = [] ∨ r.capacity = 0 then r
  else
    let kept := incoming.last r.capacity
    { r with bytes := evict r.capacity kept.length r.bytes ++ kept }

@[simp] theorem append_nil (r : RecentBytes) : r.append [] = r := by simp [append]

@[simp] theorem append_capacity (r : RecentBytes) (incoming : Bytes) :
    (r.append incoming).capacity = r.capacity := by
  unfold append; split <;> rfl

theorem evict_of_fits {capacity incoming : Nat} {bytes : Bytes}
    (h : bytes.length + incoming ≤ capacity) : evict capacity incoming bytes = bytes := by
  rw [evict, if_neg]
  omega

/-- What fits is kept as it comes. -/
theorem append_of_fits {r : RecentBytes} {incoming : Bytes}
    (h : r.bytes.length + incoming.length ≤ r.capacity) :
    r.append incoming = { r with bytes := r.bytes ++ incoming } := by
  by_cases hnil : incoming = []
  · simp [hnil]
  · have hpos := List.length_pos_iff.mpr hnil
    have hkept : incoming.last r.capacity = incoming := by
      rw [Bytes.last, Nat.sub_eq_zero_of_le (by omega), List.drop_zero]
    have hroom : ¬ (incoming = [] ∨ r.capacity = 0) := by
      rintro (h0 | h0)
      · exact hnil h0
      · omega
    simp only [append, if_neg hroom, hkept, evict_of_fits h]

end RecentBytes

end WorkerLink
