import WorkerLink.Proofs.Bridge.Printing

/-!
# Lines torn by failed writes

An output may refuse a byte and take the next one. What it took of a message then
stays, and the following message is written behind it, in the same line. So a line
consists of what is left of messages that failed and of one message that was written
whole (`Torn`), and it need not be the encoding of any message
(`lines_not_encodings`). An output that takes nothing after a byte it refused
(`Fades`), as a limited one does, has whole lines alone.
-/

namespace WorkerLink.Bridge

variable {α : Type} [Format α]

/-- What an output has of some messages, where `left` stands in its last line already. The lines are
those of the messages that were written whole. Each begins with what was left in front of it. -/
inductive Torn : Bytes → List α → List Bytes → Bytes → Prop
  | nil (left : Bytes) : Torn left [] [] left
  | whole {left rest : Bytes} {values : List α} {lines : List Bytes} (value : α) :
      Torn [] values lines rest →
      Torn left (value :: values) ((left ++ Format.print value) :: lines) rest
  | part {left front rest : Bytes} {values : List α} {lines : List Bytes} {value : α} :
      front <+: Format.print value → Torn (left ++ front) values lines rest →
      Torn left (value :: values) lines rest

namespace Torn

variable {left rest : Bytes} {values : List α} {lines : List Bytes}

/-- The line feeds end the lines, and there are no others. -/
theorem cut (oneLine : ∀ value : α, 10 ∉ Format.print value) (h : Torn left values lines rest)
    (hleft : 10 ∉ left) :
    Cut (lines.flatMap (fun line => line ++ [10]) ++ rest) lines rest := by
  suffices hboth : (∀ line ∈ lines, 10 ∉ line) ∧ 10 ∉ rest from ⟨rfl, hboth.1, hboth.2⟩
  induction h with
  | nil left => exact ⟨List.forall_mem_nil _, hleft⟩
  | whole value _ ih =>
    obtain ⟨hlines, hrest⟩ := ih List.not_mem_nil
    refine ⟨List.forall_mem_cons.mpr ⟨?_, hlines⟩, hrest⟩
    rw [List.mem_append, not_or]
    exact ⟨hleft, oneLine value⟩
  | part hfront _ ih =>
    refine ih ?_
    rw [List.mem_append, not_or]
    exact ⟨hleft, fun h => oneLine _ (hfront.subset h)⟩

/-- Each line ends with the encoding of a message of its own, in the order of the messages. -/
theorem ends (h : Torn left values lines rest) :
    List.SublistForall₂ (fun line value => Format.print value <:+ line) lines values := by
  induction h with
  | nil left => exact .nil
  | whole value _ ih => exact .cons (List.suffix_append _ _) ih
  | part _ _ ih => exact .cons_right ih

end Torn

namespace Output

theorem taken_front (accepts : Nat → Bool) (n : Nat) (bytes : Bytes) :
    taken accepts n bytes <+: bytes := by
  induction bytes generalizing n with
  | nil => exact List.prefix_refl _
  | cons b bytes ih =>
    rw [taken]
    split
    · exact List.cons_prefix_cons.mpr ⟨rfl, ih (n + 1)⟩
    · exact List.nil_prefix

theorem write_front (o : Output) (bytes : Bytes) : ∃ front, front <+: bytes ∧
    (o.write bytes).1.written = o.written ++ front ∧
    ((o.write bytes).2 = true ↔ front = bytes) := by
  have hfront := taken_front o.accepts o.offered bytes
  refine ⟨_, hfront, rfl, ?_⟩
  rw [write, decide_eq_true_iff]
  exact ⟨hfront.eq_of_length, congrArg List.length⟩

theorem writeLine_eq (o : Output) (line : Bytes) : o.writeLine line =
    if (o.write line).2 = true then (o.write line).1.write [10]
    else ((o.write line).1, false) := by
  rw [writeLine]
  generalize o.write line = step
  obtain ⟨o', ok⟩ := step
  cases ok <;> rfl

/-- A line that fails leaves a front part, and no line feed. -/
theorem writeLine_front (o : Output) (line : Bytes) :
    (o.writeLine line).1.written = o.written ++ (line ++ [10]) ∨
      ∃ front, front <+: line ∧ (o.writeLine line).1.written = o.written ++ front ∧
        (o.writeLine line).2 = false := by
  obtain ⟨front, hfront, hwritten, hwhole⟩ := o.write_front line
  rw [writeLine_eq]
  split
  · next hok =>
    obtain rfl : line = front := (hwhole.mp hok).symm
    obtain ⟨last, hlast, hend, hfull⟩ := (o.write line).1.write_front [10]
    rw [hend, hwritten, List.append_assoc]
    cases hfed : ((o.write line).1.write [10]).2 with
    | true =>
      left
      rw [hfull.mp hfed]
    | false =>
      have hnone : last = [] := by
        rcases List.prefix_cons_iff.mp hlast with rfl | ⟨more, rfl, hmore⟩
        · rfl
        · rw [List.prefix_nil.mp hmore, hfed] at hfull
          exact absurd (hfull.mpr rfl) Bool.false_ne_true
      exact .inr ⟨line, hfront, by rw [hnone, List.append_nil], rfl⟩
  · exact .inr ⟨front, hfront, hwritten, rfl⟩

/-- Whatever the output refuses, its bytes are made of the messages as `Torn` says. -/
theorem foldl_after_torn (events : List (Event α)) {o : Output} {before left : Bytes}
    (written : o.written = before ++ left) : ∃ lines rest,
      Torn left (events.filterMap message?) lines rest ∧ (events.foldl Output.after o).written =
        before ++ (lines.flatMap (fun line => line ++ [10]) ++ rest) := by
  induction events generalizing o before left with
  | nil => exact ⟨[], left, .nil left, written⟩
  | cons event events ih =>
    cases event with
    | message value =>
      rw [List.foldl_cons]
      rcases o.writeLine_front (Format.print value) with hline | ⟨front, hfront, hpart, -⟩
      · have hwritten : (o.after (.message value)).written =
            (before ++ (left ++ Format.print value ++ [10])) ++ [] := by
          rw [after, hline, written]
          simp only [List.append_assoc, List.append_nil]
        obtain ⟨lines, rest, htorn, hrest⟩ := ih hwritten
        refine ⟨_, rest, .whole value htorn, ?_⟩
        rw [hrest, List.flatMap_cons]
        simp only [List.append_assoc]
      · have hwritten : (o.after (.message value)).written = before ++ (left ++ front) := by
          rw [after, hpart, written, List.append_assoc]
        obtain ⟨lines, rest, htorn, hrest⟩ := ih hwritten
        exact ⟨lines, rest, .part hfront htorn, hrest⟩
    | decodeFailed error => exact ih written
    | endOfStream => exact ih written

end Output

/-- Whatever the order of the steps of a bridge and the bytes that its output refuses, the lines are
torn at worst: each still ends with a message of its own, in the order in which they were told. -/
theorem Crossing.Reaches.torn [Memory] {c : Crossing α} {pid : Nat} {tuning : Tuning}
    {texts : List String} {output : Output} (h : (opening pid tuning texts output).Reaches c)
    (oneLine : ∀ value : α, 10 ∉ Format.print value) (empty : output.written = []) :
    ∃ emitted lines rest,
      c.ledger.toldByAll = emitted ++ c.telling?.toList ∧ Cut c.output.written lines rest ∧
      Torn [] (emitted.filterMap message?) lines rest ∧
      List.SublistForall₂ (fun line value => Format.print value <:+ line) lines
        (emitted.filterMap message?) := by
  obtain ⟨emitted, htold, houtput⟩ := h.emitted
  have hnothing : output.written = [] ++ [] := empty
  obtain ⟨lines, rest, htorn, hwritten⟩ := Output.foldl_after_torn emitted hnothing
  refine ⟨emitted, lines, rest, htold, ?_, htorn, htorn.ends⟩
  rw [houtput, hwritten]
  exact htorn.cut oneLine List.not_mem_nil

/-- The second byte is refused and those behind it are not, so 1 and 2 become a line of 12. -/
theorem lines_not_encodings : ∃ (o : Output) (events : List (Event Json.Value)) (line : Bytes),
    o.written = [] ∧ events.filterMap message? = [.integer 1, .integer 2] ∧
    Cut (events.foldl Output.after o).written [line] [] ∧
    ∀ value ∈ events.filterMap message?, line ≠ value.encode :=
  ⟨{ accepts := fun n => n ≠ 1 }, [.message (.integer 1), .message (.integer 2)], [49, 50],
    rfl, rfl, ⟨by decide +kernel, by decide, by decide⟩, by decide +kernel⟩

namespace Output

/-- After a byte that the output refuses it takes none. -/
def Fades (o : Output) : Prop := ∀ n, o.accepts n = false → o.accepts (n + 1) = false

theorem fades_limited (limit : Nat) : (limited limit).Fades := by
  intro n h
  rw [limited, decide_eq_false_iff_not] at h ⊢
  omega

theorem refused_of_taken_ne {accepts : Nat → Bool} {n : Nat} {bytes : Bytes}
    (h : taken accepts n bytes ≠ bytes) : accepts (n + (taken accepts n bytes).length) = false := by
  induction bytes generalizing n with
  | nil => exact absurd rfl h
  | cons b bytes ih =>
    rw [taken] at h ⊢
    split at h
    · next hb =>
      rw [if_pos hb, List.length_cons, Nat.add_comm _ 1, ← Nat.add_assoc]
      exact ih fun htaken => h (congrArg (b :: ·) htaken)
    · next hb =>
      rw [if_neg hb]
      exact Bool.eq_false_iff.mpr hb

def Faded (o : Output) : Prop := o.Fades ∧ o.accepts o.offered = false

theorem Fades.write {o : Output} (h : o.Fades) (bytes : Bytes) :
    (o.write bytes).1.Fades ∧ ((o.write bytes).2 = false → (o.write bytes).1.Faded) := by
  refine ⟨h, fun failed => ⟨h, ?_⟩⟩
  have hshort : (taken o.accepts o.offered bytes).length ≠ bytes.length := of_decide_eq_false failed
  have hle := (taken_front o.accepts o.offered bytes).length_le
  have hrefused := refused_of_taken_ne fun htaken => hshort (congrArg List.length htaken)
  have hoffered : (o.write bytes).1.offered =
      o.offered + (taken o.accepts o.offered bytes).length + 1 := by
    simp only [Output.write]
    omega
  rw [hoffered]
  exact h _ hrefused

theorem Faded.write {o : Output} (h : o.Faded) (bytes : Bytes) :
    (o.write bytes).1.written = o.written ∧ (o.write bytes).1.Faded := by
  cases bytes with
  | nil => exact ⟨List.append_nil _, h⟩
  | cons b bytes =>
    have hnone : taken o.accepts o.offered (b :: bytes) = [] := by
      rw [taken, if_neg (Bool.eq_false_iff.mp h.2)]
    have hfailed : (o.write (b :: bytes)).2 = false := by
      rw [Output.write, hnone]
      rfl
    refine ⟨?_, (h.1.write _).2 hfailed⟩
    rw [Output.write, hnone, List.append_nil]

theorem Fades.writeLine {o : Output} (h : o.Fades) (line : Bytes) :
    (o.writeLine line).1.Fades ∧
    ((o.writeLine line).2 = false → (o.writeLine line).1.Faded) := by
  obtain ⟨hfades, hfaded⟩ := h.write line
  rw [writeLine_eq]
  split
  · exact hfades.write [10]
  · next hfailed => exact ⟨hfades, fun _ => hfaded (Bool.eq_false_iff.mpr hfailed)⟩

theorem Faded.writeLine {o : Output} (h : o.Faded) (line : Bytes) :
    (o.writeLine line).1.written = o.written ∧ (o.writeLine line).1.Faded := by
  obtain ⟨hwritten, hfaded⟩ := h.write line
  rw [writeLine_eq]
  split
  · obtain ⟨hend, hfaded'⟩ := hfaded.write [10]
    exact ⟨hend.trans hwritten, hfaded'⟩
  · exact ⟨hwritten, hfaded⟩

theorem Faded.foldl_after {o : Output} (h : o.Faded) (events : List (Event α)) :
    (events.foldl Output.after o).written = o.written := by
  induction events generalizing o with
  | nil => rfl
  | cons event events ih =>
    cases event with
    | message value =>
      obtain ⟨hwritten, hfaded⟩ := h.writeLine (Format.print value)
      exact (ih hfaded).trans hwritten
    | decodeFailed error => exact ih h
    | endOfStream => exact ih h

/-- The lines are those of the first messages. The next message has the rest, and the others have
nothing. -/
theorem Fades.foldl_after {o : Output} (h : o.Fades) (events : List (Event α)) :
    ∃ whole lost rest, events.filterMap message? = whole ++ lost ∧
      (events.foldl Output.after o).written =
        o.written ++ ((whole.map Format.print).flatMap (fun line => line ++ [10]) ++ rest) ∧
      (∀ value ∈ lost.head?, rest <+: Format.print value) ∧ (lost = [] → rest = []) := by
  induction events generalizing o with
  | nil => exact ⟨[], [], [], rfl, (List.append_nil _).symm, by simp, fun _ => rfl⟩
  | cons event events ih =>
    cases event with
    | message value =>
      obtain ⟨hfades, hfaded⟩ := h.writeLine (Format.print value)
      rcases o.writeLine_front (Format.print value) with hline | ⟨front, hfront, hpart, hfailed⟩
      · obtain ⟨whole, lost, rest, hvalues, hwritten, hrest⟩ := ih hfades
        refine ⟨value :: whole, lost, rest, congrArg (value :: ·) hvalues, ?_, hrest⟩
        rw [List.foldl_cons, after, hwritten, hline, List.map_cons, List.flatMap_cons]
        simp only [List.append_assoc]
      · refine ⟨[], value :: events.filterMap message?, front, rfl, ?_, ?_, ?_⟩
        · rw [List.foldl_cons, after, (hfaded hfailed).foldl_after, hpart]
          rfl
        · rintro _ ⟨⟩
          exact hfront
        · exact fun hnone => absurd hnone (List.cons_ne_nil _ _)
    | decodeFailed error => exact ih h
    | endOfStream => exact ih h

end Output

/-- Every line is the encoding of one message, where the output is not taken up again. -/
theorem Crossing.Reaches.whole_lines [Memory] {c : Crossing α} {pid : Nat} {tuning : Tuning}
    {texts : List String} {output : Output} (h : (opening pid tuning texts output).Reaches c)
    (oneLine : ∀ value : α, 10 ∉ Format.print value) (empty : output.written = [])
    (fades : output.Fades) : ∃ emitted whole lost rest,
      c.ledger.toldByAll = emitted ++ c.telling?.toList ∧
      emitted.filterMap message? = whole ++ lost ∧
      Cut c.output.written (whole.map Format.print) rest := by
  obtain ⟨emitted, htold, houtput⟩ := h.emitted
  obtain ⟨whole, lost, rest, hvalues, hwritten, hnext, hnone⟩ := fades.foldl_after emitted
  refine ⟨emitted, whole, lost, rest, htold, hvalues, ?_, ?_, ?_⟩
  · rw [houtput, hwritten, empty, List.nil_append]
  · intro line hline
    obtain ⟨value, -, rfl⟩ := List.mem_map.mp hline
    exact oneLine value
  · cases lost with
    | nil => exact hnone rfl ▸ List.not_mem_nil
    | cons value lost =>
      exact fun h => oneLine value ((hnext value rfl).subset h)

end WorkerLink.Bridge
