import WorkerLink.Word

/-!
The memory that the library asks for before it takes a frame in or puts one together. Whether it is
there is for the allocator to say.
-/

namespace WorkerLink

/-- An allocator. -/
class Memory where
  /-- So many bytes can be reserved at once. -/
  reserves : Nat → Bool
  /-- The length of a buffer is a machine word with a sign. -/
  lt_of_reserves {n : Nat} : reserves n = true → n < Word.signedLimit

namespace Memory

/-- An allocator that reserves up to so many bytes at once. -/
@[reducible]
def upTo (limit : Nat) : Memory where
  reserves n := decide (n ≤ limit) && decide (n < Word.signedLimit)
  lt_of_reserves h := of_decide_eq_true (Bool.and_eq_true_iff.mp h).2

/-- An allocator that reserves a kilobyte at once. -/
@[reducible]
def kilobyte : Memory := .upTo 1024

end Memory

end WorkerLink
