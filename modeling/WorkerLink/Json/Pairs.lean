import WorkerLink.Connection.SendError
import WorkerLink.Bytes

/-!
Maps whose names are byte lists. JSON has no form for such a name, so only the empty map is encoded.
-/

namespace WorkerLink.Json

/-- The encoding of a map from byte lists to bytes. -/
def encodePairs : List (Bytes × Nat) → Except EncodeError Bytes
  | [] => .ok [123, 125]
  | _ :: _ => .error .keyNotString

end WorkerLink.Json
