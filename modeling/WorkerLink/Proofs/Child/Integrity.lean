import WorkerLink.Proofs.Child.Sanity

/-!
# What reaches the writer

Whatever the writer does and whenever the sends are cancelled, the bytes handed
over are the frames of the sends that were reported as done, in the order in
which these had the handle, and then at most a part of one more frame. Once a
send has failed nothing is handed over any more, and every answer is counted by
the send that it is for.
-/

namespace WorkerLink

variable {α : Type}

/-- Bytes of one more frame, whose send has failed or is still at it. -/
def Ledger.Unfinished (l : Ledger α) (tail : Bytes) : Prop :=
  tail = [] ∨ ∃ name payload, (name, payload) ∈ l.acquired ∧ tail <+: Frame.encode payload ∧
    (l.Failed name ∨ ⟨name, .sending (Frame.encode payload)⟩ ∈ l.calls)

namespace Link

theorem unfinished_of_sending [Memory] {l : Ledger α} (r : l.Reachable) {name : Nat}
    {framed mine : Bytes} (call : ⟨name, .sending framed⟩ ∈ l.calls) (pre : mine <+: framed) : l.Unfinished mine := by
  obtain ⟨earlier, payload, hlast, ⟨⟩⟩ := r.inTurn.last name _ call rfl
  refine .inr ⟨name, payload, ?_, pre, .inr call⟩
  rw [hlast]
  exact List.mem_append_right _ (List.mem_singleton_self _)

theorem Leftover.unfinished {l : Ledger α} {tail : Bytes} (h : Leftover l tail) :
    l.Unfinished tail := by
  refine Or.imp_right ?_ h
  rintro ⟨name, payload, hmem, hfailed, hpre⟩
  exact ⟨name, payload, hmem, hpre, .inl hfailed⟩

theorem Holds.unfinished {l : Ledger α} {handed accepted mine : Bytes}
    (h : Holds handed accepted l mine) (own : l.Unfinished mine) :
    ∃ tail, handed = accepted ++ tail ∧ l.Unfinished tail := by
  obtain ⟨tail, rfl, hleft, rfl | rfl⟩ := h
  · exact ⟨mine, by rw [List.append_nil], own⟩
  · exact ⟨tail, by rw [List.append_nil], hleft.unfinished⟩

theorem Sane.unfinished [Memory] {j : Link α} (s : Sane j) :
    ∃ tail, j.handed = j.accepted ++ tail ∧ j.ledger.Unfinished tail := by
  have hstands := s.stands
  generalize j.desk = desk at hstands
  cases desk with
  | free => exact hstands.2.unfinished (.inl rfl)
  | busy name framed stage =>
    obtain ⟨hcall, hworks⟩ := hstands
    cases stage with
    | next rest written =>
      obtain ⟨_, _, mine, hsplit, _, hm⟩ := hworks
      exact hm.unfinished (unfinished_of_sending s.reachable hcall ⟨_, hsplit⟩)
    | handing chunk rest written =>
      obtain ⟨_, _, mine, hsplit, _, hm⟩ := hworks
      exact hm.unfinished (unfinished_of_sending s.reachable hcall ⟨_, hsplit⟩)
    | awaiting rest written | lapsed rest written =>
      obtain ⟨_, mine, chunk, _, _, hsplit, _, hhanded⟩ := hworks
      exact ⟨mine ++ chunk, by rw [hhanded, List.append_assoc],
        unfinished_of_sending s.reachable hcall ⟨_, hsplit⟩⟩
  | answered name framed answer =>
    obtain ⟨hcall, _, mine, hpre, hm, _⟩ := hstands
    exact hm.unfinished (unfinished_of_sending s.reachable hcall hpre)

/-- The bytes handed to the writer are the frames of the sends that were reported as done, in the
order in which these had the handle, and then a part of at most one more frame. After a send has
failed no byte follows, and no answer is counted by a send that it is not for. -/
theorem outgoing_integrity [Memory] {j : Link α} (reachable : j.Reachable) :
    (∃ tail, j.handed = j.accepted ++ tail ∧ j.ledger.Unfinished tail) ∧
    ((j.ledger.acquired.map Prod.fst).Nodup ∧
      (∀ name payload, (name, payload) ∈ j.ledger.acquired →
        Opens (j.ledger.deeds name) (.send (.ok payload))) ∧
      ∀ name, j.ledger.fate name = some (.ends (.sent (.ok ()))) →
        ∃ payload, (name, payload) ∈ j.ledger.acquired) ∧
    (∀ name, j.ledger.Failed name → ∀ j', j.Reaches j' → j'.handed = j.handed) ∧
    ∀ entry ∈ j.counted, entry.1 = entry.2 := by
  have hsane := reachable.sane
  have hsound := hsane.reachable.sound
  refine ⟨hsane.unfinished, ⟨hsane.reachable.inTurn.distinct, ?_, ?_⟩, ?_, hsane.counted⟩
  · exact fun name payload hmem => hsound.acquired_opens hmem
  · exact fun name hfate => hsound.acquired_of_sent hfate
  · intro name hfailed j' hreaches
    rw [handed, (hreaches.still (hsane.failed name hfailed)).2, handed]

end Link

end WorkerLink

namespace WorkerLink.Link

attribute [local instance] Memory.kilobyte

/-- A shutdown while the first chunk of a frame is out: the send fails, and the four bytes of that
chunk stay the last ones. -/
theorem abandoned_chunk_is_last : ∃ j : Link Unit, j.Reachable ∧ j.ledger.Failed 0 ∧
    j.handed = Bytes.ofChars ['C', 'o', 'n', 't'] ∧ j.accepted = [] ∧
    ∀ j', j.Reaches j' → j'.handed = j.handed := by
  obtain ⟨j, hr, hfailed, hhanded, haccepted⟩ : ∃ j : Link Unit, j.Reachable ∧
      j.ledger.Failed 0 ∧ j.handed = Bytes.ofChars ['C', 'o', 'n', 't'] ∧ j.accepted = [] := by
    have start := Reachable.start (α := Unit) 7 {} { pid := 7, chunkSize := 4 } rfl
    have sends := start.next (@Moves.calls _ _ _ 0 (.start (.send (.ok [97]))) _ rfl nofun)
    have claims := sends.next (@Moves.calls _ _ _ 0 (.goOn .proceed) _
      (by with_unfolding_all rfl) (by intro _ _ _ _ _ h; cases h))
    have frames := claims.next (@Moves.calls _ _ _ 0 (.goOn .proceed) _
      (by with_unfolding_all rfl) (by intro _ _ _ _ _ h; cases h))
    have enters := frames.next (@Moves.enters _ _ _ 0 (Frame.encode [97]) rfl
      (by with_unfolding_all exact List.mem_singleton_self _))
    have looks := enters.next (@Moves.steps _ _ _ 0 _ _ false _ rfl (by with_unfolding_all rfl))
    have hands := looks.next (@Moves.steps _ _ _ 0 _ _ false _ rfl (by with_unfolding_all rfl))
    have lapses := hands.next (@Moves.steps _ _ _ 0 _ _ true _ rfl (by with_unfolding_all rfl))
    have spawns := lapses.next .spawns
    have cancels := spawns.next (@Moves.calls _ _ _ 1 (.start .shutdown) _ rfl nofun)
    have abandons := cancels.next (@Moves.steps _ _ _ 0 _ _ false _ rfl
      (by with_unfolding_all rfl))
    have answers := abandons.next (@Moves.answers _ _ _ 0 0 _ _ _ _ rfl
      (by with_unfolding_all rfl) (by with_unfolding_all rfl))
    refine ⟨_, answers, ⟨.shortWrite 0 22, ?_, .inr ⟨0, 22, rfl⟩⟩, ?_, ?_⟩
    · with_unfolding_all rfl
    · with_unfolding_all rfl
    · with_unfolding_all rfl
  exact ⟨j, hr, hfailed, hhanded, haccepted, (outgoing_integrity hr).2.2.1 0 hfailed⟩

end WorkerLink.Link
