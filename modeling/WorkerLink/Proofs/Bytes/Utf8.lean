import Mathlib.Data.List.Induction
import WorkerLink.Text.Utf8

/-!
# Decoding and the UTF-8 form

A byte string has a text exactly if it is the UTF-8 form of one, and then it has
that text (`decode?_eq_some_iff`). In one direction the automaton reads the bytes
of a character (`Forms`) and is between two pieces again. In the other, the bytes
that it has read since the last character are those of a character to come
(`Reads`), as long as it has found nothing ill-formed.
-/

namespace WorkerLink.Text.Utf8

def ofTwo (bits : Nat) : Unfinished := ⟨bits, 1, 1, 0x80, 0xBF⟩

/-- A character of three bytes after the first one. The bounds keep out what has a shorter form, and
the surrogates. -/
def ofThree (bits : Nat) : Unfinished :=
  ⟨bits, 1, 2, if bits = 0 then 0xA0 else 0x80, if bits = 13 then 0x9F else 0xBF⟩

/-- A character of four bytes after the first one. The bounds keep out what has a shorter form, and
what is past the last character. -/
def ofFour (bits : Nat) : Unfinished :=
  ⟨bits, 1, 3, if bits = 0 then 0x90 else 0x80, if bits = 4 then 0x8F else 0xBF⟩

theorem ofThree_of_ne (bits : Nat) (zero : bits ≠ 0) (surrogates : bits ≠ 13) :
    ofThree bits = ⟨bits, 1, 2, 0x80, 0xBF⟩ := by
  rw [ofThree, if_neg zero, if_neg surrogates]

theorem ofFour_of_ne (bits : Nat) (zero : bits ≠ 0) (last : bits ≠ 4) :
    ofFour bits = ⟨bits, 1, 3, 0x80, 0xBF⟩ := by
  rw [ofFour, if_neg zero, if_neg last]

/-- What a first byte announces, by its number. -/
inductive Leads (n : Nat) : Lead → Prop
  | ascii : n < 0x80 → Leads n (.single (Char.ofNat n))
  | two (bits : Nat) : n = bits + 0xC0 → 2 ≤ bits → bits < 0x20 → Leads n (.longer (ofTwo bits))
  | three (bits : Nat) : n = bits + 0xE0 → bits < 0x10 → Leads n (.longer (ofThree bits))
  | four (bits : Nat) : n = bits + 0xF0 → bits < 5 → Leads n (.longer (ofFour bits))
  | stray : 0x80 ≤ n ∧ n < 0xC2 ∨ 0xF4 < n → Leads n .stray

theorem leads_lead (b : UInt8) : Leads b.toNat (lead b) := by
  unfold lead
  generalize b.toNat = n
  dsimp only
  by_cases hascii : n < 0x80
  · rw [if_pos hascii]
    exact .ascii hascii
  by_cases hstray : n < 0xC2
  · rw [if_neg hascii, if_pos hstray]
    exact .stray (.inl ⟨by omega, hstray⟩)
  rw [if_neg hascii, if_neg hstray]
  by_cases htwo : n < 0xE0
  · rw [if_pos htwo]
    exact .two (n - 0xC0) (by omega) (by omega) (by omega)
  by_cases hzero : n = 0xE0
  · rw [if_neg htwo, if_pos hzero]
    exact .three 0 (by omega) (by omega)
  rw [if_neg htwo, if_neg hzero]
  by_cases hsurrogates : n = 0xED
  · rw [if_pos hsurrogates, hsurrogates]
    exact .three 13 (by omega) (by omega)
  by_cases hthree : n < 0xF0
  · rw [if_neg hsurrogates, if_pos hthree]
    have hsame := ofThree_of_ne (n - 0xE0) (by omega) (by omega)
    exact hsame ▸ .three (n - 0xE0) (by omega) (by omega)
  rw [if_neg hsurrogates, if_neg hthree]
  by_cases hzero' : n = 0xF0
  · rw [if_pos hzero']
    exact .four 0 (by omega) (by omega)
  by_cases hfour : n < 0xF4
  · rw [if_neg hzero', if_pos hfour]
    have hsame := ofFour_of_ne (n - 0xF0) (by omega) (by omega)
    exact hsame ▸ .four (n - 0xF0) (by omega) (by omega)
  rw [if_neg hzero', if_neg hfour]
  by_cases hlast : n = 0xF4
  · rw [if_pos hlast]
    exact .four 4 (by omega) (by omega)
  · rw [if_neg hlast]
    exact .stray (.inr (by omega))

/-- A number announces one thing only. -/
theorem lead_of_leads {b : UInt8} {l : Lead} (h : Leads b.toNat l) : lead b = l := by
  have hlead := leads_lead b
  generalize lead b = l' at hlead
  cases h with
  | ascii _ => cases hlead <;> first | omega | rfl
  | two _ _ _ _ => cases hlead <;> first | omega | (congr 2; omega)
  | three _ _ _ => cases hlead <;> first | omega | (congr 2; omega)
  | four _ _ _ => cases hlead <;> first | omega | (congr 2; omega)
  | stray _ => cases hlead <;> first | omega | rfl

namespace Unfinished

def Takes (u : Unfinished) (b : UInt8) : Prop :=
  u.low.toNat ≤ b.toNat ∧ b.toNat ≤ u.high.toNat

theorem takes_iff {u : Unfinished} {b : UInt8} :
    u.Takes b ↔ (u.low ≤ b && b ≤ u.high) = true := by
  rw [Takes, Bool.and_eq_true, decide_eq_true_iff, decide_eq_true_iff, UInt8.le_iff_toNat_le,
    UInt8.le_iff_toNat_le]

def add (u : Unfinished) (b : UInt8) : Unfinished :=
  ⟨u.bits * 64 + (b.toNat - 0x80), u.seen + 1, u.missing - 1, 0x80, 0xBF⟩

theorem missing_add (u : Unfinished) (b : UInt8) : (u.add b).missing = u.missing - 1 := rfl

theorem takes_add {u : Unfinished} {b b' : UInt8} :
    (u.add b).Takes b' ↔ 0x80 ≤ b'.toNat ∧ b'.toNat ≤ 0xBF := Iff.rfl

end Unfinished

section Bounds

variable {bits : Nat} {b : UInt8}

theorem takes_ofTwo : (ofTwo bits).Takes b ↔ 0x80 ≤ b.toNat ∧ b.toNat ≤ 0xBF := Iff.rfl

theorem takes_ofThree : (ofThree bits).Takes b ↔ (0x80 ≤ b.toNat ∧ b.toNat ≤ 0xBF) ∧
    (bits = 0 → 0xA0 ≤ b.toNat) ∧ (bits = 13 → b.toNat ≤ 0x9F) := by
  by_cases hzero : bits = 0
  · subst hzero
    change 0xA0 ≤ b.toNat ∧ b.toNat ≤ 0xBF ↔ _
    omega
  · by_cases hsurrogates : bits = 13
    · subst hsurrogates
      change 0x80 ≤ b.toNat ∧ b.toNat ≤ 0x9F ↔ _
      omega
    · rw [ofThree_of_ne bits hzero hsurrogates]
      change 0x80 ≤ b.toNat ∧ b.toNat ≤ 0xBF ↔ _
      omega

theorem takes_ofFour : (ofFour bits).Takes b ↔ (0x80 ≤ b.toNat ∧ b.toNat ≤ 0xBF) ∧
    (bits = 0 → 0x90 ≤ b.toNat) ∧ (bits = 4 → b.toNat ≤ 0x8F) := by
  by_cases hzero : bits = 0
  · subst hzero
    change 0x90 ≤ b.toNat ∧ b.toNat ≤ 0xBF ↔ _
    omega
  · by_cases hlast : bits = 4
    · subst hlast
      change 0x80 ≤ b.toNat ∧ b.toNat ≤ 0x8F ↔ _
      omega
    · rw [ofFour_of_ne bits hzero hlast]
      change 0x80 ≤ b.toNat ∧ b.toNat ≤ 0xBF ↔ _
      omega

end Bounds

section Steps

variable {pieces : List Piece} {u : Unfinished} {b : UInt8}

theorem step_last (takes : u.Takes b) (last : u.missing ≤ 1) :
    State.step ⟨pieces, some u⟩ b = ⟨.char (Char.ofNat (u.add b).bits) :: pieces, none⟩ := by
  simp only [State.step]
  rw [if_pos (Unfinished.takes_iff.mp takes), if_pos last]
  rfl

theorem step_more (takes : u.Takes b) (more : 1 < u.missing) :
    State.step ⟨pieces, some u⟩ b = ⟨pieces, some (u.add b)⟩ := by
  simp only [State.step]
  rw [if_pos (Unfinished.takes_iff.mp takes), if_neg (Nat.not_le_of_lt more)]
  rfl

theorem step_broken (refuses : ¬ u.Takes b) :
    State.step ⟨pieces, some u⟩ b = State.start (.broken u.seen :: pieces) b := by
  simp only [State.step]
  rw [if_neg (mt Unfinished.takes_iff.mpr refuses)]

theorem step_longer (leads : Leads b.toNat (.longer u)) :
    State.step ⟨pieces, none⟩ b = ⟨pieces, some u⟩ := by
  simp only [State.step, State.start, lead_of_leads leads]

variable {b₀ b₁ b₂ b₃ : UInt8}

theorem foldl_two (leads : Leads b₀.toNat (.longer u)) (missing : u.missing = 1)
    (takes₁ : u.Takes b₁) : [b₀, b₁].foldl State.step ⟨pieces, none⟩ =
      ⟨.char (Char.ofNat (u.add b₁).bits) :: pieces, none⟩ := by
  rw [List.foldl_cons, step_longer leads, List.foldl_cons, step_last takes₁ (by omega),
    List.foldl_nil]

theorem foldl_three (leads : Leads b₀.toNat (.longer u)) (missing : u.missing = 2)
    (takes₁ : u.Takes b₁) (takes₂ : (u.add b₁).Takes b₂) :
    [b₀, b₁, b₂].foldl State.step ⟨pieces, none⟩ =
      ⟨.char (Char.ofNat ((u.add b₁).add b₂).bits) :: pieces, none⟩ := by
  have hlast : (u.add b₁).missing ≤ 1 := by
    rw [Unfinished.missing_add]
    omega
  rw [List.foldl_cons, step_longer leads, List.foldl_cons, step_more takes₁ (by omega),
    List.foldl_cons, step_last takes₂ hlast, List.foldl_nil]

theorem foldl_four (leads : Leads b₀.toNat (.longer u)) (missing : u.missing = 3)
    (takes₁ : u.Takes b₁) (takes₂ : (u.add b₁).Takes b₂)
    (takes₃ : ((u.add b₁).add b₂).Takes b₃) :
    [b₀, b₁, b₂, b₃].foldl State.step ⟨pieces, none⟩ =
      ⟨.char (Char.ofNat (((u.add b₁).add b₂).add b₃).bits) :: pieces, none⟩ := by
  have hmore : 1 < (u.add b₁).missing := by
    rw [Unfinished.missing_add]
    omega
  have hlast : ((u.add b₁).add b₂).missing ≤ 1 := by
    rw [Unfinished.missing_add, Unfinished.missing_add]
    omega
  rw [List.foldl_cons, step_longer leads, List.foldl_cons, step_more takes₁ (by omega),
    List.foldl_cons, step_more takes₂ hmore, List.foldl_cons, step_last takes₃ hlast,
    List.foldl_nil]

end Steps

theorem toNat_byte {n : Nat} (h : n < 256) : (UInt8.ofNat n).toNat = n := by
  rw [UInt8.toNat_ofNat']
  omega

/-- The bytes of a character, by its number. -/
inductive Forms (v : Nat) : Bytes → Prop
  | one {b₀ : UInt8} : v < 0x80 → b₀.toNat = v → Forms v [b₀]
  | two {b₀ b₁ : UInt8} : 0x80 ≤ v → v < 0x800 → b₀.toNat = v / 64 + 0xC0 →
      b₁.toNat = v % 64 + 0x80 → Forms v [b₀, b₁]
  | three {b₀ b₁ b₂ : UInt8} : 0x800 ≤ v → v < 0x10000 → b₀.toNat = v / 4096 + 0xE0 →
      b₁.toNat = v / 64 % 64 + 0x80 → b₂.toNat = v % 64 + 0x80 → Forms v [b₀, b₁, b₂]
  | four {b₀ b₁ b₂ b₃ : UInt8} : 0x10000 ≤ v → v < 0x110000 → b₀.toNat = v / 262144 + 0xF0 →
      b₁.toNat = v / 4096 % 64 + 0x80 → b₂.toNat = v / 64 % 64 + 0x80 → b₃.toNat = v % 64 + 0x80 →
      Forms v [b₀, b₁, b₂, b₃]

theorem forms_encodeChar (c : Char) : Forms c.toNat (String.utf8EncodeChar c) := by
  have hvalid : c.toNat < 0xD800 ∨ 0xDFFF < c.toNat ∧ c.toNat < 0x110000 := c.valid
  have hval : c.val.toNat = c.toNat := rfl
  simp only [String.utf8EncodeChar, hval]
  generalize c.toNat = v at hvalid
  split
  · next h => exact .one (by omega) (toNat_byte (by omega))
  split
  · next h h' =>
    have h₀ : (UInt8.ofNat (v / 64 % 32 + 0xC0)).toNat = v / 64 + 0xC0 := by
      rw [toNat_byte (by omega)]
      omega
    exact .two (by omega) (by omega) h₀ (toNat_byte (by omega))
  split
  · next h h' h'' =>
    have h₀ : (UInt8.ofNat (v / 4096 % 16 + 0xE0)).toNat = v / 4096 + 0xE0 := by
      rw [toNat_byte (by omega)]
      omega
    exact .three (by omega) (by omega) h₀ (toNat_byte (by omega)) (toNat_byte (by omega))
  · next h h' h'' =>
    have h₀ : (UInt8.ofNat (v / 262144 % 8 + 0xF0)).toNat = v / 262144 + 0xF0 := by
      rw [toNat_byte (by omega)]
      omega
    exact .four (by omega) (by omega) h₀ (toNat_byte (by omega)) (toNat_byte (by omega))
      (toNat_byte (by omega))

theorem eq_of_toNat {b b' : UInt8} {n : Nat} (h : b.toNat = n) (h' : b'.toNat = n) : b = b' :=
  UInt8.toNat_inj.mp (h.trans h'.symm)

theorem Forms.unique {v : Nat} {s s' : Bytes} (h : Forms v s) (k : Forms v s') : s = s' := by
  cases h with
  | one _ h₀ =>
    cases k with
    | one _ k₀ => rw [eq_of_toNat h₀ k₀]
    | two _ _ _ _ | three _ _ _ _ _ | four _ _ _ _ _ _ => omega
  | two _ _ h₀ h₁ =>
    cases k with
    | two _ _ k₀ k₁ => rw [eq_of_toNat h₀ k₀, eq_of_toNat h₁ k₁]
    | one _ _ | three _ _ _ _ _ | four _ _ _ _ _ _ => omega
  | three _ _ h₀ h₁ h₂ =>
    cases k with
    | three _ _ k₀ k₁ k₂ => rw [eq_of_toNat h₀ k₀, eq_of_toNat h₁ k₁, eq_of_toNat h₂ k₂]
    | one _ _ | two _ _ _ _ | four _ _ _ _ _ _ => omega
  | four _ _ h₀ h₁ h₂ h₃ =>
    cases k with
    | four _ _ k₀ k₁ k₂ k₃ =>
      rw [eq_of_toNat h₀ k₀, eq_of_toNat h₁ k₁, eq_of_toNat h₂ k₂, eq_of_toNat h₃ k₃]
    | one _ _ | two _ _ _ _ | three _ _ _ _ _ => omega

theorem encode_of_forms {v : Nat} {s : Bytes} (valid : v.isValidChar) (h : Forms v s) :
    String.utf8EncodeChar (Char.ofNat v) = s := by
  have hnumber : (Char.ofNat v).toNat = v := by
    rw [Char.ofNat, dif_pos valid]
    rfl
  have hforms := forms_encodeChar (Char.ofNat v)
  rw [hnumber] at hforms
  exact hforms.unique h

/-- The automaton reads the bytes of a character and is between two pieces again. -/
theorem foldl_encodeChar (pieces : List Piece) (c : Char) :
    (String.utf8EncodeChar c).foldl State.step ⟨pieces, none⟩ = ⟨.char c :: pieces, none⟩ := by
  have hvalid : c.toNat < 0xD800 ∨ 0xDFFF < c.toNat ∧ c.toNat < 0x110000 := c.valid
  have hchar := c.ofNat_toNat
  have hforms := forms_encodeChar c
  generalize String.utf8EncodeChar c = s at hforms
  generalize c.toNat = v at hvalid hchar hforms
  cases hforms with
  | @one b₀ hlow h₀ =>
    have hlead : Leads b₀.toNat (.single c) := by
      rw [h₀, ← hchar]
      exact .ascii hlow
    simp only [List.foldl_cons, List.foldl_nil, State.step, State.start, lead_of_leads hlead]
  | @two b₀ b₁ _ _ h₀ h₁ =>
    rw [foldl_two (.two (v / 64) h₀ (by omega) (by omega)) rfl (takes_ofTwo.mpr (by omega))]
    have hbits : ((ofTwo (v / 64)).add b₁).bits = v := by
      change v / 64 * 64 + (b₁.toNat - 0x80) = v
      omega
    rw [hbits, hchar]
  | @three b₀ b₁ b₂ _ _ h₀ h₁ h₂ =>
    rw [foldl_three (.three (v / 4096) h₀ (by omega)) rfl (takes_ofThree.mpr (by omega))
      (Unfinished.takes_add.mpr (by omega))]
    have hbits : (((ofThree (v / 4096)).add b₁).add b₂).bits = v := by
      change (v / 4096 * 64 + (b₁.toNat - 0x80)) * 64 + (b₂.toNat - 0x80) = v
      omega
    rw [hbits, hchar]
  | @four b₀ b₁ b₂ b₃ _ _ h₀ h₁ h₂ h₃ =>
    rw [foldl_four (.four (v / 262144) h₀ (by omega)) rfl (takes_ofFour.mpr (by omega))
      (Unfinished.takes_add.mpr (by omega)) (Unfinished.takes_add.mpr (by omega))]
    have hbits : ((((ofFour (v / 262144)).add b₁).add b₂).add b₃).bits = v := by
      change ((v / 262144 * 64 + (b₁.toNat - 0x80)) * 64 + (b₂.toNat - 0x80)) * 64 +
        (b₃.toNat - 0x80) = v
      omega
    rw [hbits, hchar]

section Encodings

variable {bits : Nat} {b₀ b₁ b₂ b₃ : UInt8}

theorem encode_two (first : b₀.toNat = bits + 0xC0) (low : 2 ≤ bits) (high : bits < 0x20)
    (takes₁ : (ofTwo bits).Takes b₁) :
    String.utf8EncodeChar (Char.ofNat ((ofTwo bits).add b₁).bits) = [b₀, b₁] := by
  rw [takes_ofTwo] at takes₁
  change String.utf8EncodeChar (Char.ofNat (bits * 64 + (b₁.toNat - 0x80))) = _
  generalize hv : bits * 64 + (b₁.toNat - 0x80) = v
  have hvalid : v.isValidChar := by omega
  exact encode_of_forms hvalid (.two (by omega) (by omega) (by omega) (by omega))

theorem encode_three (first : b₀.toNat = bits + 0xE0) (high : bits < 0x10)
    (takes₁ : (ofThree bits).Takes b₁) (takes₂ : ((ofThree bits).add b₁).Takes b₂) :
    String.utf8EncodeChar (Char.ofNat (((ofThree bits).add b₁).add b₂).bits) = [b₀, b₁, b₂] := by
  rw [takes_ofThree] at takes₁
  rw [Unfinished.takes_add] at takes₂
  change String.utf8EncodeChar
    (Char.ofNat ((bits * 64 + (b₁.toNat - 0x80)) * 64 + (b₂.toNat - 0x80))) = _
  generalize hv : (bits * 64 + (b₁.toNat - 0x80)) * 64 + (b₂.toNat - 0x80) = v
  have hvalid : v.isValidChar := by omega
  exact encode_of_forms hvalid (.three (by omega) (by omega) (by omega) (by omega) (by omega))

theorem encode_four (first : b₀.toNat = bits + 0xF0) (high : bits < 5)
    (takes₁ : (ofFour bits).Takes b₁) (takes₂ : ((ofFour bits).add b₁).Takes b₂)
    (takes₃ : (((ofFour bits).add b₁).add b₂).Takes b₃) :
    String.utf8EncodeChar (Char.ofNat ((((ofFour bits).add b₁).add b₂).add b₃).bits) =
      [b₀, b₁, b₂, b₃] := by
  rw [takes_ofFour] at takes₁
  rw [Unfinished.takes_add] at takes₂ takes₃
  change String.utf8EncodeChar (Char.ofNat
    (((bits * 64 + (b₁.toNat - 0x80)) * 64 + (b₂.toNat - 0x80)) * 64 + (b₃.toNat - 0x80))) = _
  generalize hv :
    ((bits * 64 + (b₁.toNat - 0x80)) * 64 + (b₂.toNat - 0x80)) * 64 + (b₃.toNat - 0x80) = v
  have hvalid : v.isValidChar := by omega
  exact encode_of_forms hvalid
    (.four (by omega) (by omega) (by omega) (by omega) (by omega) (by omega))

end Encodings

/-- `Reads read u`: the bytes `read` are those of a character in progress. -/
inductive Reads : Bytes → Unfinished → Prop
  | two {b₀ : UInt8} {bits : Nat} : b₀.toNat = bits + 0xC0 → 2 ≤ bits → bits < 0x20 →
      Reads [b₀] (ofTwo bits)
  | three {b₀ : UInt8} {bits : Nat} : b₀.toNat = bits + 0xE0 → bits < 0x10 →
      Reads [b₀] (ofThree bits)
  | threeMore {b₀ b₁ : UInt8} {bits : Nat} : b₀.toNat = bits + 0xE0 → bits < 0x10 →
      (ofThree bits).Takes b₁ → Reads [b₀, b₁] ((ofThree bits).add b₁)
  | four {b₀ : UInt8} {bits : Nat} : b₀.toNat = bits + 0xF0 → bits < 5 → Reads [b₀] (ofFour bits)
  | fourMore {b₀ b₁ : UInt8} {bits : Nat} : b₀.toNat = bits + 0xF0 → bits < 5 →
      (ofFour bits).Takes b₁ → Reads [b₀, b₁] ((ofFour bits).add b₁)
  | fourLast {b₀ b₁ b₂ : UInt8} {bits : Nat} : b₀.toNat = bits + 0xF0 → bits < 5 →
      (ofFour bits).Takes b₁ → ((ofFour bits).add b₁).Takes b₂ →
      Reads [b₀, b₁, b₂] (((ofFour bits).add b₁).add b₂)

/-- A byte that is a character of its own is its UTF-8 form. -/
theorem encode_of_single {b : UInt8} {c : Char} (h : lead b = .single c) :
    String.utf8EncodeChar c = [b] := by
  have hlead := leads_lead b
  rw [h] at hlead
  generalize hn : b.toNat = n at hlead
  cases hlead with
  | ascii hlow =>
    have hvalid : n.isValidChar := by omega
    exact encode_of_forms hvalid (.one hlow hn)

theorem reads_first {b : UInt8} {u : Unfinished} (h : lead b = .longer u) : Reads [b] u := by
  have hlead := leads_lead b
  rw [h] at hlead
  generalize hn : b.toNat = n at hlead
  cases hlead with
  | two _ hbits hlow hhigh => exact .two (hn.trans hbits) hlow hhigh
  | three _ hbits hhigh => exact .three (hn.trans hbits) hhigh
  | four _ hbits hhigh => exact .four (hn.trans hbits) hhigh

section Reading

variable {read : Bytes} {u : Unfinished} {b : UInt8}

theorem Reads.more (h : Reads read u) (takes : u.Takes b) (missing : 1 < u.missing) :
    Reads (read ++ [b]) (u.add b) := by
  cases h with
  | three hbits hhigh => exact .threeMore hbits hhigh takes
  | four hbits hhigh => exact .fourMore hbits hhigh takes
  | fourMore hbits hhigh htakes₁ => exact .fourLast hbits hhigh htakes₁ takes
  | two _ _ _ => exact False.elim (Nat.lt_irrefl 1 missing)
  | threeMore _ _ _ => exact False.elim (Nat.lt_irrefl 1 missing)
  | fourLast _ _ _ _ => exact False.elim (Nat.lt_irrefl 1 missing)

/-- With its last byte the bytes of a character are its UTF-8 form. -/
theorem Reads.completes (h : Reads read u) (takes : u.Takes b) (last : u.missing ≤ 1) :
    String.utf8EncodeChar (Char.ofNat (u.add b).bits) = read ++ [b] := by
  cases h with
  | two hbits hlow hhigh => exact encode_two hbits hlow hhigh takes
  | threeMore hbits hhigh htakes₁ => exact encode_three hbits hhigh htakes₁ takes
  | fourLast hbits hhigh htakes₁ htakes₂ => exact encode_four hbits hhigh htakes₁ htakes₂ takes
  | three _ _ => exact False.elim (Nat.not_succ_le_self 1 last)
  | four _ _ => exact False.elim (absurd (show 3 ≤ 1 from last) (by decide))
  | fourMore _ _ _ => exact False.elim (Nat.not_succ_le_self 1 last)

end Reading

/-- The bytes read are the UTF-8 form of the characters found and what is read of the next one,
unless something ill-formed has been found. -/
def Spells (s : Bytes) (st : State) : Prop :=
  (∀ n, .broken n ∉ st.pieces) → ∃ cs read, st.pieces.reverse = cs.map .char ∧
    s = Bytes.ofChars cs ++ read ∧ match st.current with
      | none => read = []
      | some u => Reads read u

theorem ofChars_snoc (cs : List Char) (c : Char) :
    Bytes.ofChars (cs ++ [c]) = Bytes.ofChars cs ++ String.utf8EncodeChar c := by
  rw [Bytes.ofChars, List.flatMap_append, List.flatMap_singleton, Bytes.ofChars]

section Spelling

variable {s : Bytes} {pieces : List Piece} {b : UInt8}

theorem spells_of_broken {current : Option Unfinished} {n : Nat} (mem : .broken n ∈ pieces) :
    Spells s ⟨pieces, current⟩ := fun h => False.elim (h n mem)

theorem spells_start_of_broken {n : Nat} (mem : .broken n ∈ pieces) :
    Spells s (State.start pieces b) := by
  unfold State.start
  cases lead b with
  | single c => exact spells_of_broken (List.mem_cons_of_mem _ mem)
  | longer u => exact spells_of_broken mem
  | stray => exact spells_of_broken (List.mem_cons_of_mem _ mem)

theorem Spells.start (h : Spells s ⟨pieces, none⟩) :
    Spells (s ++ [b]) (State.start pieces b) := by
  intro whole
  unfold State.start at whole ⊢
  cases hlead : lead b with
  | stray =>
    rw [hlead] at whole
    exact False.elim (whole 1 List.mem_cons_self)
  | longer u =>
    rw [hlead] at whole
    obtain ⟨cs, read, hpieces, hs, hread⟩ := h whole
    obtain rfl : read = [] := hread
    exact ⟨cs, [b], hpieces, by rw [hs, List.append_nil], reads_first hlead⟩
  | single c =>
    rw [hlead] at whole
    obtain ⟨cs, read, hpieces, hs, hread⟩ := h fun n hn => whole n (List.mem_cons_of_mem _ hn)
    obtain rfl : read = [] := hread
    refine ⟨cs ++ [c], [], ?_, ?_, rfl⟩
    · rw [List.reverse_cons, hpieces, List.map_append, List.map_singleton]
    · rw [hs, List.append_nil, List.append_nil, ofChars_snoc, encode_of_single hlead]

theorem Spells.step {st : State} (h : Spells s st) : Spells (s ++ [b]) (st.step b) := by
  obtain ⟨pieces, current⟩ := st
  cases current with
  | none => exact h.start
  | some u =>
    by_cases htakes : u.Takes b
    · by_cases hlast : u.missing ≤ 1
      · rw [step_last htakes hlast]
        intro whole
        obtain ⟨cs, read, hpieces, hs, hread⟩ := h fun n hn => whole n (List.mem_cons_of_mem _ hn)
        refine ⟨cs ++ [Char.ofNat (u.add b).bits], [], ?_, ?_, rfl⟩
        · rw [List.reverse_cons, hpieces, List.map_append, List.map_singleton]
        · rw [hs, List.append_assoc, ← hread.completes htakes hlast, List.append_nil,
            ofChars_snoc]
      · rw [step_more htakes (by omega)]
        intro whole
        obtain ⟨cs, read, hpieces, hs, hread⟩ := h whole
        exact ⟨cs, read ++ [b], hpieces, by rw [hs, List.append_assoc],
          hread.more htakes (by omega)⟩
    · rw [step_broken htakes]
      exact spells_start_of_broken List.mem_cons_self

theorem spells_foldl (s : Bytes) : Spells s (s.foldl State.step {}) := by
  induction s using List.reverseRecOn with
  | nil => exact fun _ => ⟨[], [], rfl, rfl, rfl⟩
  | append_singleton s b ih =>
    rw [List.foldl_append]
    exact ih.step

end Spelling

theorem foldl_ofChars (pieces : List Piece) (cs : List Char) :
    (Bytes.ofChars cs).foldl State.step ⟨pieces, none⟩ =
      ⟨(cs.map .char).reverse ++ pieces, none⟩ := by
  induction cs generalizing pieces with
  | nil => rfl
  | cons c cs ih =>
    have hcons : Bytes.ofChars (c :: cs) = String.utf8EncodeChar c ++ Bytes.ofChars cs := rfl
    rw [hcons, List.foldl_append, foldl_encodeChar, ih, List.map_cons, List.reverse_cons,
      List.append_assoc, List.singleton_append]

theorem pieces_ofChars (cs : List Char) : pieces (Bytes.ofChars cs) = cs.map .char := by
  rw [pieces, foldl_ofChars, List.append_nil, State.finish, List.reverse_reverse]

/-- A byte string without an ill-formed part is the UTF-8 form of its characters. -/
theorem exists_of_pieces {s : Bytes} (h : ∀ n, .broken n ∉ pieces s) :
    ∃ cs, pieces s = cs.map .char ∧ s = Bytes.ofChars cs := by
  have hspells := spells_foldl s
  rw [pieces] at h ⊢
  generalize s.foldl State.step {} = st at hspells h
  obtain ⟨found, current⟩ := st
  cases current with
  | some u => exact False.elim (h u.seen (by simp [State.finish]))
  | none =>
    obtain ⟨cs, read, hpieces, hs, hread⟩ := hspells fun n hn => h n (by simpa [State.finish] using hn)
    obtain rfl : read = [] := hread
    exact ⟨cs, hpieces, by rw [hs, List.append_nil]⟩

theorem decode?_of_pieces {s : Bytes} {cs : List Char} (h : pieces s = cs.map .char) :
    decode? s = some (String.ofList cs) := by
  simp only [decode?, h]
  rw [if_neg (by simp), List.filterMap_map]
  exact congrArg (fun cs => some (String.ofList cs)) List.filterMap_some

/-- Decoding gives the text of which a byte string is the UTF-8 form, if there is one. -/
theorem decode?_eq_some_iff {s : Bytes} {text : String} :
    decode? s = some text ↔ s = Bytes.ofString text := by
  constructor
  · intro h
    have hwhole : ∀ n, .broken n ∉ pieces s := by
      intro n hn
      rw [decode?] at h
      split at h
      · cases h
      · next hall => exact hall (List.any_eq_true.mpr ⟨_, hn, rfl⟩)
    obtain ⟨cs, hpieces, hs⟩ := exists_of_pieces hwhole
    rw [decode?_of_pieces hpieces] at h
    cases h
    rw [Bytes.ofString, String.toList_ofList, hs]
  · rintro rfl
    rw [Bytes.ofString, decode?_of_pieces (pieces_ofChars _), String.ofList_toList]

theorem decode?_eq_none_iff {s : Bytes} : decode? s = none ↔ ∀ text, s ≠ Bytes.ofString text := by
  rw [Option.eq_none_iff_forall_ne_some]
  exact forall_congr' fun text => not_congr decode?_eq_some_iff

end WorkerLink.Text.Utf8
