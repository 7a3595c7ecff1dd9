import Mathlib.Data.List.TakeWhile
import WorkerLink.Proofs.Bytes.Utf8

/-!
# A text with damage

A byte string that is no text is read as one all the same, with a mark for each
ill-formed part. An ASCII byte is a character of its own wherever it stands
(`pieces_append_ascii`), and an ASCII character comes from its byte and from
nothing else (`Draws`). So it is the same to cut the text at the character and
the bytes at the byte (`takeWhile_lossy`).
-/

namespace WorkerLink.Text.Utf8

def Piece.shown : Piece → Char
  | .char c => c
  | .broken _ => replacement

theorem toList_lossy (s : Bytes) : (lossy s).toList = (pieces s).map Piece.shown := by
  rw [lossy, String.toList_ofList]
  refine List.map_congr_left fun piece _ => ?_
  cases piece <;> rfl

/-- What the automaton has found in `s` is made of bytes of `s`, and so is the character in
progress. -/
structure Draws (s : Bytes) (st : State) : Prop where
  chars : ∀ c, .char c ∈ st.pieces → String.utf8EncodeChar c ⊆ s
  current : ∀ u, st.current = some u → ∃ read, Reads read u ∧ read ⊆ s

section Drawing

variable {s : Bytes} {st : State} {b : UInt8}

/-- Nothing below 128 goes on with a character. -/
theorem Reads.takes_high {read : Bytes} {u : Unfinished} (h : Reads read u) (takes : u.Takes b) :
    0x80 ≤ b.toNat := by
  cases h with
  | two _ _ _ => exact (takes_ofTwo.mp takes).1
  | three _ _ => exact (takes_ofThree.mp takes).1.1
  | four _ _ => exact (takes_ofFour.mp takes).1.1
  | threeMore _ _ _ | fourMore _ _ _ | fourLast _ _ _ _ => exact (Unfinished.takes_add.mp takes).1

theorem draws_start {pieces : List Piece}
    (chars : ∀ c, .char c ∈ pieces → String.utf8EncodeChar c ⊆ s) :
    Draws (s ++ [b]) (State.start pieces b) := by
  have more {c : Char} (h : .char c ∈ pieces) : String.utf8EncodeChar c ⊆ s ++ [b] :=
    List.Subset.trans (chars c h) (List.subset_append_left s [b])
  unfold State.start
  cases hlead : lead b with
  | single c =>
    refine ⟨fun c' hc' => ?_, nofun⟩
    rcases List.mem_cons.mp hc' with hnew | hold
    · cases hnew
      rw [encode_of_single hlead]
      exact List.subset_append_right s [b]
    · exact more hold
  | longer u =>
    refine ⟨fun c' hc' => more hc', ?_⟩
    rintro _ ⟨⟩
    exact ⟨[b], reads_first hlead, List.subset_append_right s [b]⟩
  | stray =>
    refine ⟨fun c' hc' => ?_, nofun⟩
    rcases List.mem_cons.mp hc' with hnew | hold
    · cases hnew
    · exact more hold

theorem Draws.step (h : Draws s st) : Draws (s ++ [b]) (st.step b) := by
  obtain ⟨pieces, current⟩ := st
  have more {c : Char} (hc : .char c ∈ pieces) : String.utf8EncodeChar c ⊆ s ++ [b] :=
    List.Subset.trans (h.chars c hc) (List.subset_append_left s [b])
  cases current with
  | none => exact draws_start h.chars
  | some u =>
    obtain ⟨read, hread, hsubset⟩ := h.current u rfl
    have hall : read ++ [b] ⊆ s ++ [b] := List.append_subset.mpr
      ⟨List.Subset.trans hsubset (List.subset_append_left s [b]), List.subset_append_right s [b]⟩
    by_cases htakes : u.Takes b
    · by_cases hlast : u.missing ≤ 1
      · rw [step_last htakes hlast]
        refine ⟨fun c hc => ?_, nofun⟩
        rcases List.mem_cons.mp hc with hnew | hold
        · rw [Piece.char.inj hnew, hread.completes htakes hlast]
          exact hall
        · exact more hold
      · rw [step_more htakes (by omega)]
        refine ⟨fun c hc => more hc, fun u' hu' => ?_⟩
        obtain rfl : u.add b = u' := Option.some.inj hu'
        exact ⟨read ++ [b], hread.more htakes (by omega), hall⟩
    · rw [step_broken htakes]
      refine draws_start fun c hc => ?_
      rcases List.mem_cons.mp hc with hnew | hold
      · cases hnew
      · exact h.chars c hold

theorem draws_foldl (s : Bytes) : Draws s (s.foldl State.step {}) := by
  induction s using List.reverseRecOn with
  | nil => exact ⟨nofun, nofun⟩
  | append_singleton s b ih =>
    rw [List.foldl_append]
    exact ih.step

theorem mem_pieces {c : Char} (h : .char c ∈ pieces s) : String.utf8EncodeChar c ⊆ s := by
  have hdraws := draws_foldl s
  rw [pieces] at h
  generalize s.foldl State.step {} = st at h hdraws
  obtain ⟨found, current⟩ := st
  cases current with
  | none => exact hdraws.chars c (List.mem_reverse.mp h)
  | some u =>
    rcases List.mem_cons.mp (List.mem_reverse.mp h) with hbroken | hfound
    · cases hbroken
    · exact hdraws.chars c hfound

end Drawing

namespace State

def after (st : State) (older : List Piece) : State := ⟨st.pieces ++ older, st.current⟩

variable {st : State} {older : List Piece} {b : UInt8}

theorem start_after (pieces : List Piece) :
    start (pieces ++ older) b = (start pieces b).after older := by
  unfold start
  cases lead b <;> rfl

theorem step_after : (st.after older).step b = (st.step b).after older := by
  obtain ⟨pieces, current⟩ := st
  cases current with
  | none => exact start_after pieces
  | some u =>
    simp only [step, after]
    split
    · split <;> rfl
    · exact start_after (.broken u.seen :: pieces)

theorem foldl_after (s : Bytes) :
    s.foldl step (st.after older) = (s.foldl step st).after older := by
  induction s generalizing st with
  | nil => rfl
  | cons b s ih => rw [List.foldl_cons, step_after, ih, List.foldl_cons]

theorem finish_after : (st.after older).finish = older.reverse ++ st.finish := by
  obtain ⟨pieces, current⟩ := st
  cases current <;> simp [finish, after]

end State

section Ascii

variable {s t : Bytes} {b : UInt8}

theorem lead_of_ascii (ascii : b.toNat < 0x80) : lead b = .single (Char.ofNat b.toNat) :=
  lead_of_leads (.ascii ascii)

/-- An ASCII byte ends what is in progress and is a character of its own. -/
theorem Draws.step_ascii {st : State} (h : Draws s st) (ascii : b.toNat < 0x80) :
    st.step b = ⟨.char (Char.ofNat b.toNat) :: st.finish.reverse, none⟩ := by
  obtain ⟨pieces, current⟩ := st
  cases current with
  | none =>
    simp only [State.step, State.start, lead_of_ascii ascii, State.finish, List.reverse_reverse]
  | some u =>
    obtain ⟨read, hread, -⟩ := h.current u rfl
    rw [step_broken fun htakes => absurd (hread.takes_high htakes) (Nat.not_le_of_lt ascii)]
    simp only [State.start, lead_of_ascii ascii, State.finish, List.reverse_reverse]

theorem pieces_append_ascii (ascii : b.toNat < 0x80) :
    pieces (s ++ b :: t) = pieces s ++ .char (Char.ofNat b.toNat) :: pieces t := by
  have hstart : (⟨.char (Char.ofNat b.toNat) :: (pieces s).reverse, none⟩ : State) =
      State.after {} (.char (Char.ofNat b.toNat) :: (pieces s).reverse) := rfl
  rw [pieces, List.foldl_append, List.foldl_cons, (draws_foldl s).step_ascii ascii]
  rw [show (s.foldl State.step {}).finish = pieces s from rfl, hstart, State.foldl_after,
    State.finish_after, List.reverse_cons, List.reverse_reverse, List.append_assoc]
  rfl

theorem toNat_ofNat_ascii (ascii : b.toNat < 0x80) : (Char.ofNat b.toNat).toNat = b.toNat := by
  rw [Char.ofNat, dif_pos (by omega)]
  rfl

theorem encode_ascii (ascii : b.toNat < 0x80) :
    String.utf8EncodeChar (Char.ofNat b.toNat) = [b] := encode_of_single (lead_of_ascii ascii)

theorem ne_replacement (ascii : b.toNat < 0x80) : Char.ofNat b.toNat ≠ replacement := by
  intro h
  have hnumber := congrArg Char.toNat h
  rw [toNat_ofNat_ascii ascii, show replacement.toNat = 0xFFFD from rfl] at hnumber
  omega

/-- An ASCII character is in a text where its byte is in the bytes. -/
theorem mem_lossy_iff (ascii : b.toNat < 0x80) :
    Char.ofNat b.toNat ∈ (lossy s).toList ↔ b ∈ s := by
  rw [toList_lossy, List.mem_map]
  constructor
  · rintro ⟨piece, hmem, hshown⟩
    cases piece with
    | broken n => exact absurd hshown.symm (ne_replacement ascii)
    | char c =>
      obtain rfl : c = Char.ofNat b.toNat := hshown
      refine mem_pieces hmem ?_
      rw [encode_ascii ascii]
      exact List.mem_singleton_self b
  · intro hmem
    obtain ⟨before, after, rfl⟩ := List.append_of_mem hmem
    refine ⟨.char (Char.ofNat b.toNat), ?_, rfl⟩
    rw [pieces_append_ascii ascii]
    exact List.mem_append_right _ List.mem_cons_self

theorem takeWhile_ne_of_split {β : Type} [DecidableEq β] {x : β} {before after : List β}
    (h : x ∉ before) : (before ++ x :: after).takeWhile (· ≠ x) = before := by
  have hall : ∀ y ∈ before, decide (y ≠ x) = true := by
    intro y hy
    rw [decide_eq_true_iff]
    rintro rfl
    exact h hy
  rw [List.takeWhile_append_of_pos hall, List.takeWhile_cons_of_neg (by simp), List.append_nil]

/-- It is the same to cut a text at an ASCII character and its bytes at the byte. -/
theorem takeWhile_lossy (ascii : b.toNat < 0x80) :
    (lossy s).toList.takeWhile (· ≠ Char.ofNat b.toNat) =
      (lossy (s.takeWhile (· ≠ b))).toList := by
  by_cases hmem : b ∈ s
  · obtain ⟨before, after, rfl, hbefore⟩ := List.eq_append_cons_of_mem hmem
    rw [takeWhile_ne_of_split hbefore, toList_lossy, pieces_append_ascii ascii, List.map_append,
      List.map_cons, ← toList_lossy]
    exact takeWhile_ne_of_split (mt (mem_lossy_iff ascii).mp hbefore)
  · have hbytes : s.takeWhile (· ≠ b) = s := by
      refine List.takeWhile_eq_self_iff.mpr fun y hy => ?_
      rw [decide_eq_true_iff]
      rintro rfl
      exact hmem hy
    rw [hbytes]
    refine List.takeWhile_eq_self_iff.mpr fun c hc => ?_
    rw [decide_eq_true_iff]
    rintro rfl
    exact hmem ((mem_lossy_iff ascii).mp hc)

/-- A text without a mark is that of its UTF-8 form, and of no other bytes. -/
theorem lossy_eq_iff {text : String} (whole : replacement ∉ text.toList) :
    lossy s = text ↔ s = Bytes.ofString text := by
  have shown (cs : List Char) : (cs.map Piece.char).map Piece.shown = cs := by
    rw [List.map_map]
    exact List.map_id cs
  constructor
  · rintro rfl
    rw [toList_lossy] at whole
    obtain ⟨cs, hpieces, rfl⟩ := exists_of_pieces fun n hn =>
      whole (List.mem_map.mpr ⟨.broken n, hn, rfl⟩)
    rw [Bytes.ofString, toList_lossy, hpieces, shown]
  · rintro rfl
    rw [← String.toList_inj, toList_lossy, Bytes.ofString, pieces_ofChars, shown]

end Ascii

end WorkerLink.Text.Utf8
