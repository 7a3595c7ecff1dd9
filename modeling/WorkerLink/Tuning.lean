import WorkerLink.RecentBytes

/-!
How long the operations of a connection may wait, and how much they handle at once. Nothing but the
waiting depends on the times: exclusion around the handle holds for all of them.
-/

namespace WorkerLink

/-- Waiting times in milliseconds, and sizes in bytes. -/
structure Tuning where
  /-- Wait for the handle before a send gives up. -/
  sendWait : Nat := 5
  /-- Wait for the handle before a shutdown does without it. -/
  shutdownWait : Nat := 1000
  /-- Wait for the handle before the end of a dispatch abandons it. -/
  closeWait : Nat := 1000
  /-- Time between two looks at the other side while reading or writing. -/
  pollInterval : Nat := 50
  /-- Most bytes handed to the worker's input at once. -/
  writeChunkSize : Nat := 64 * 1024
  stderrCapacity : Nat := RecentBytes.defaultCapacity
deriving DecidableEq, Repr

end WorkerLink
