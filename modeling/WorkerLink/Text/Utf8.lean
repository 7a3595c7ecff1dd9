import WorkerLink.Bytes

/-!
Decoding UTF-8. An automaton reads one byte at a time and emits a character or a mark for a maximal
ill-formed part, so a text with damage keeps everything around the damage.
-/

namespace WorkerLink.Text.Utf8

/-- A piece of decoded text: a character, or an ill-formed part of so many bytes. -/
inductive Piece
  | char (c : Char)
  | broken (size : Nat)
deriving DecidableEq, Repr

def Piece.size : Piece → Nat
  | .char c => c.utf8Size
  | .broken n => n

/-- A character that is still being read. -/
structure Unfinished where
  bits : Nat
  seen : Nat
  missing : Nat
  low : UInt8
  high : UInt8
deriving DecidableEq, Repr

/-- What a first byte announces: a character of its own, a longer one, or nothing well-formed. -/
inductive Lead
  | single (c : Char)
  | longer (u : Unfinished)
  | stray
deriving DecidableEq, Repr

/-- The lead bytes of well-formed UTF-8. The bounds on the second byte keep out overlong forms,
surrogates and code points past the last one. -/
def lead (b : UInt8) : Lead :=
  let n := b.toNat
  if n < 0x80 then .single (Char.ofNat n)
  else if n < 0xC2 then .stray
  else if n < 0xE0 then .longer ⟨n - 0xC0, 1, 1, 0x80, 0xBF⟩
  else if n = 0xE0 then .longer ⟨0, 1, 2, 0xA0, 0xBF⟩
  else if n = 0xED then .longer ⟨n - 0xE0, 1, 2, 0x80, 0x9F⟩
  else if n < 0xF0 then .longer ⟨n - 0xE0, 1, 2, 0x80, 0xBF⟩
  else if n = 0xF0 then .longer ⟨0, 1, 3, 0x90, 0xBF⟩
  else if n < 0xF4 then .longer ⟨n - 0xF0, 1, 3, 0x80, 0xBF⟩
  else if n = 0xF4 then .longer ⟨4, 1, 3, 0x80, 0x8F⟩
  else .stray

/-- The decoder between two bytes: the pieces found, newest first, and the character in progress. -/
structure State where
  pieces : List Piece := []
  current : Option Unfinished := none

def State.start (pieces : List Piece) (b : UInt8) : State :=
  match lead b with
  | .single c => ⟨.char c :: pieces, none⟩
  | .longer u => ⟨pieces, some u⟩
  | .stray => ⟨.broken 1 :: pieces, none⟩

/-- Reads one byte. A byte out of bounds ends the character in progress as an ill-formed part and
starts a piece of its own. -/
def State.step (s : State) (b : UInt8) : State :=
  match s.current with
  | none => start s.pieces b
  | some u =>
    if u.low ≤ b && b ≤ u.high then
      let bits := u.bits * 64 + (b.toNat - 0x80)
      if u.missing ≤ 1 then ⟨.char (Char.ofNat bits) :: s.pieces, none⟩
      else ⟨s.pieces, some ⟨bits, u.seen + 1, u.missing - 1, 0x80, 0xBF⟩⟩
    else start (.broken u.seen :: s.pieces) b

/-- Ends the input: a character still in progress is ill-formed. -/
def State.finish (s : State) : List Piece :=
  match s.current with
  | none => s.pieces.reverse
  | some u => (.broken u.seen :: s.pieces).reverse

def pieces (s : Bytes) : List Piece := (s.foldl State.step {}).finish

/-- The replacement character, which stands for an ill-formed part. -/
def replacement : Char := Char.ofNat 0xFFFD

/-- The text of a byte string, with each maximal ill-formed part replaced. -/
def lossy (s : Bytes) : String :=
  String.ofList <| (pieces s).map fun
    | .char c => c
    | .broken _ => replacement

def faultOffset? (s : Bytes) : Option Nat := go 0 (pieces s)
where
  go (offset : Nat) : List Piece → Option Nat
    | [] => none
    | .broken _ :: _ => some offset
    | .char c :: rest => go (offset + c.utf8Size) rest

def decode? (s : Bytes) : Option String :=
  let ps := pieces s
  if ps.any (fun | .broken _ => true | .char _ => false) then none
  else some <| String.ofList <| ps.filterMap fun
    | .char c => some c
    | .broken _ => none

end WorkerLink.Text.Utf8
