import WorkerLink.Proofs.Wire.Reading

/-!
# A scan against the whole output

A scan sees its bytes piece by piece and keeps only some of them. `Waiting` says
what it may have kept, out of all the bytes since the last frame; it does not
say how they were cut into pieces. One more piece leaves a scan that waits, or a
result which is that of `read` on all the bytes (`Waiting.advance`), and so does
the end of the output (`Waiting.ended`).
-/

namespace WorkerLink.Wire

variable [Memory]

/-- `Waiting scan buffered seen`: the scan wants more after the bytes `seen`, of which `buffered`
is still at hand. -/
inductive Waiting : Scan → Bytes → Bytes → Prop
  | header {seen : Bytes} :
      Bytes.cut? Frame.marker seen = none →
      Waiting .header (seen.last (Frame.marker.length - 1)) seen
  | terminator {seen noise t : Bytes} :
      Bytes.cut? Frame.marker seen = some (noise, t) →
      Bytes.cut? Frame.terminator t = none → t.length ≤ headerLimit →
      Waiting .terminator t seen
  | body {seen noise t field body : Bytes} {parts : List Bytes} {n missing : Nat} :
      Bytes.cut? Frame.marker seen = some (noise, t) →
      Bytes.cut? Frame.terminator t = some (field, body) →
      Frame.parseLength? field = some n → Memory.reserves n →
      parts.reverse.flatten = body → body.length + missing = n → 0 < missing →
      Waiting (.body n parts missing) [] seen

def Agrees (seen : Bytes) : Pull → Prop
  | .more scan buffered => Waiting scan buffered seen
  | .done (.ok frame) buffered => read seen = .ok (frame, buffered)
  | .done (.error error) _ => read seen = .error error

theorem read_of_marker {seen noise t : Bytes}
    (h : Bytes.cut? Frame.marker seen = some (noise, t)) : read seen = readHeader t := by
  simp only [read, h]

theorem readHeader_of_terminator {t field body : Bytes}
    (h : Bytes.cut? Frame.terminator t = some (field, body)) :
    readHeader t = readBody field body := by
  simp only [readHeader, h]

theorem readBody_of_length {field body : Bytes} {n : Nat}
    (hp : Frame.parseLength? field = some n) (hm : Memory.reserves n) :
    readBody field body = if n ≤ body.length then .ok (⟨body.take n⟩, body.drop n)
      else .error (.truncated n body.length) := by
  simp only [readBody, hp, if_pos hm]

theorem advanceBody_agrees {seen noise t field got buffered : Bytes} {parts : List Bytes}
    {n missing : Nat} (hmark : Bytes.cut? Frame.marker seen = some (noise, t))
    (hterm : Bytes.cut? Frame.terminator t = some (field, got ++ buffered))
    (hp : Frame.parseLength? field = some n) (hm : Memory.reserves n)
    (hgot : parts.reverse.flatten = got) (hn : got.length + missing = n) :
    Agrees seen (Scan.advanceBody n parts missing buffered) := by
  have whole : read seen = readBody field (got ++ buffered) := by
    rw [read_of_marker hmark, readHeader_of_terminator hterm]
  have hall : ((buffered.take missing) :: parts).reverse.flatten =
      got ++ buffered.take missing := by
    simp [hgot]
  unfold Scan.advanceBody
  by_cases henough : missing ≤ buffered.length
  · have hpart : (buffered.take missing).length = missing := by
      rw [List.length_take]
      omega
    have hle : n ≤ (got ++ buffered).length := by
      rw [List.length_append]
      omega
    have htake : (got ++ buffered).take n = got ++ buffered.take missing := by
      rw [← hn, List.take_length_add_append]
    have hdrop : (got ++ buffered).drop n = buffered.drop missing := by
      rw [← hn, List.drop_length_add_append]
    simp only [hpart, if_true, Agrees]
    rw [whole, readBody_of_length hp hm, if_pos hle, htake, hdrop, hall]
  · have hpart : buffered.take missing = buffered := List.take_of_length_le (by omega)
    have hne : buffered.length ≠ missing := by omega
    rw [hpart] at hall
    simp only [hpart, hne, if_false, Agrees]
    refine .body hmark hterm hp hm hall ?_ (by omega)
    rw [List.length_append]
    omega

theorem advanceTerminator_agrees {seen noise t : Bytes}
    (hmark : Bytes.cut? Frame.marker seen = some (noise, t)) :
    Agrees seen (Scan.advanceTerminator t) := by
  have whole := read_of_marker hmark
  unfold Scan.advanceTerminator
  cases hterm : Bytes.cut? Frame.terminator t with
  | none =>
    rw [readHeader, hterm] at whole
    by_cases hlong : headerLimit < t.length
    · simp only [headerLimit] at hlong
      simp only [hlong, if_true, Agrees]
      rw [whole, if_pos (by simpa only [headerLimit] using hlong)]
    · simp only [headerLimit] at hlong
      simp only [hlong, if_false, Agrees]
      exact .terminator hmark hterm (by simpa only [headerLimit] using Nat.le_of_not_lt hlong)
  | some found =>
    obtain ⟨field, body⟩ := found
    rw [readHeader_of_terminator hterm] at whole
    cases hp : Frame.parseLength? field with
    | none =>
      simp only [hp, Agrees]
      rw [whole, readBody, hp]
    | some n =>
      by_cases hm : Memory.reserves n
      · simp only [hp, hm, if_true]
        have hempty : Bytes.cut? Frame.terminator t = some (field, [] ++ body) := hterm
        exact advanceBody_agrees hmark hempty hp hm rfl (Nat.zero_add n)
      · simp only [hp, if_neg hm, Agrees]
        rw [whole, readBody, hp]
        exact if_neg hm

/-- One more piece takes a scan on, wherever the pieces were cut. -/
theorem Waiting.advance {scan : Scan} {buffered seen : Bytes} (h : Waiting scan buffered seen)
    (bytes : Bytes) : Agrees (seen ++ bytes) (scan.advance (buffered ++ bytes)).pull := by
  cases h with
  | header hnone =>
    have hcut := Bytes.cut?_append_of_none hnone bytes
    simp only [Scan.advance, Scan.advanceHeader]
    cases hb : Bytes.cut? Frame.marker (seen.last (Frame.marker.length - 1) ++ bytes) with
    | none =>
      rw [hb, Option.map_none] at hcut
      simp only [Agrees, Bytes.last_append_last]
      exact .header hcut
    | some found =>
      obtain ⟨noise, t⟩ := found
      rw [hb, Option.map_some] at hcut
      exact advanceTerminator_agrees hcut
  | terminator hmark hnone hlen =>
    exact advanceTerminator_agrees (Bytes.cut?_append_of_some hmark bytes)
  | body hmark hterm hp hm hparts hn hpos =>
    refine advanceBody_agrees (Bytes.cut?_append_of_some hmark bytes) ?_ hp hm hparts hn
    exact Bytes.cut?_append_of_some hterm bytes

/-- The end of the output makes a scan that waits give the error of the whole. -/
theorem Waiting.ended {scan : Scan} {buffered seen : Bytes} (h : Waiting scan buffered seen) :
    ∃ error rest, (scan.ended buffered).pull = .done (.error error) rest ∧
      read seen = .error error := by
  cases h with
  | header hnone =>
    by_cases hs : seen = []
    · exact ⟨.endOfStream, [], by simp [Scan.ended, hs, Bytes.last], by rw [read, hnone, if_pos hs]⟩
    · have hlast : seen.last (Frame.marker.length - 1) ≠ [] := by
        have hpos := List.length_pos_iff.mpr hs
        have hlen := Bytes.length_last (Frame.marker.length - 1) seen
        have hmarker : Frame.marker.length = 15 := by decide
        intro he
        rw [he, List.length_nil] at hlen
        omega
      exact ⟨.missingHeader, [], by simp [Scan.ended, hlast], by rw [read, hnone, if_neg hs]⟩
  | terminator hmark hnone hlen =>
    refine ⟨.missingTerminator, _, rfl, ?_⟩
    rw [read_of_marker hmark, readHeader, hnone]
    exact if_neg (by omega)
  | body hmark hterm hp hm hparts hn hpos =>
    refine ⟨_, _, rfl, ?_⟩
    rw [read_of_marker hmark, readHeader_of_terminator hterm, readBody_of_length hp hm,
      if_neg (by omega)]
    congr 2
    omega

omit [Memory] in
/-- A scan does not go on past the end of the output. -/
theorem exists_ended (scan : Scan) (buffered : Bytes) :
    ∃ error left, (scan.ended buffered).pull = .done (.error error) left := by
  cases scan with
  | header =>
    by_cases hempty : buffered = []
    · exact ⟨.endOfStream, [], by simp only [Scan.ended, if_pos hempty]⟩
    · exact ⟨.missingHeader, [], by simp only [Scan.ended, if_neg hempty]⟩
  | terminator => exact ⟨_, _, rfl⟩
  | body length parts missing => exact ⟨_, _, rfl⟩

/-- The start of a scan is a scan that has seen nothing. -/
theorem waiting_start : Waiting .header [] [] := by
  have hnone : Bytes.cut? Frame.marker [] = none := by decide
  exact .header hnone

/-- Before the end of the output a scan gives up only over a header that it has seen. -/
theorem advance_error {scan : Scan} {buffered left : Bytes} {error : FrameError}
    (h : (scan.advance buffered).pull = .done (.error error) left) :
    (∃ text, error = .invalidLength text) ∨ ∃ n, error = .allocation n := by
  have body {n missing : Nat} {parts : List Bytes} {rest : Bytes} :
      Scan.advanceBody n parts missing rest ≠ .done (.error error) left := by
    unfold Scan.advanceBody
    intro hb
    dsimp only at hb
    split at hb <;> cases hb
  have terminator {rest : Bytes} (ht : Scan.advanceTerminator rest = .done (.error error) left) :
      (∃ text, error = .invalidLength text) ∨ ∃ n, error = .allocation n := by
    unfold Scan.advanceTerminator at ht
    split at ht
    · split at ht
      · cases ht
        exact .inl ⟨_, rfl⟩
      · split at ht
        · exact False.elim (body ht)
        · cases ht
          exact .inr ⟨_, rfl⟩
    · split at ht
      · cases ht
        exact .inl ⟨_, rfl⟩
      · cases ht
  cases scan with
  | header =>
    unfold Scan.advance Scan.advanceHeader at h
    dsimp only at h
    split at h
    · exact terminator h
    · cases h
  | terminator => exact terminator h
  | body n parts missing => exact False.elim (body h)

end WorkerLink.Wire
