import WorkerLink.Proofs.Connection.Sends

/-!
# What a shutdown does

A shutdown cancels the sends, and then it borrows the handle to cancel its read,
or does without it. Nothing else of the connection changes. Where the sends are
cancelled already, a shutdown that is over has changed nothing at all.
-/

namespace WorkerLink

variable {α : Type}

/-- What a deed of a shutdown is, and what it does to the connection. -/
inductive Deed.Shuts (c : Connection) : Deed α → Connection → Prop
  | starts : Shuts c ⟨.start .shutdown, .goesOn .awaitingCancel⟩ { c with cancelSend := true }
  | gets {input : Input} : c.slot.busy = false →
      Shuts c ⟨.goOn .awaitingCancel input, .goesOn .cancelling⟩
        { c with slot := { c.slot with busy := true } }
  | misses {input : Input} {reason : Unavailable} : c.slot.claim = .error reason →
      Shuts c ⟨.goOn .awaitingCancel input, .ends .shutDown⟩ c
  | returns {next : Next α} {input : Input} : (∀ call, next ≠ .goesOn call) →
      Shuts c ⟨.goOn .cancelling input, next⟩ c.release

theorem Call.Goes.shuts [Memory] {c c' : Connection} {call : Call α} {input : Input} {next : Next α}
    (h : Goes c call input c' next) (serves : call.Serves .shutdown) :
    Deed.Shuts c ⟨.goOn call input, next⟩ c' := by
  cases h with
  | cancels hc _ =>
    obtain ⟨_, hfree, rfl⟩ := Connection.claim_eq_ok.mp hc
    exact .gets hfree
  | skipsCancel hc _ => exact .misses (Connection.claim_eq_error.mp hc)
  | cancelled => exact .returns (by rintro _ ⟨⟩)
  | cancelRaises => exact .returns (by rintro _ ⟨⟩)
  | takesHandle _ _ | lacksHandle _ _ | frames _ | lacksMemory _ | wrote | sendRaises
  | dispatches _ => cases serves

namespace Deed.Shuts

variable {c c' : Connection} {d : Deed α}

/-- Who is at the handle is all that a shutdown changes, but for the flag that cancels the sends. -/
theorem eq_with (h : d.Shuts c c') (cancelled : c'.cancelSend = true) :
    c' = { c with cancelSend := true, slot := { c.slot with busy := c'.slot.busy } } := by
  cases h with
  | starts => rfl
  | gets _ | misses _ =>
    have hbefore : c.cancelSend = true := cancelled
    rw [← hbefore]
  | returns _ =>
    have hbefore : c.cancelSend = true := cancelled
    rw [← hbefore]
    rfl

/-- The handle is asked to cancel its read with the deed that gets it, and with no other. -/
theorem asks_iff (h : d.Shuts c c') :
    d.request? = some .cancel ↔ c.slot.busy = false ∧ c'.slot.busy = true := by
  cases h with
  | gets hfree => exact ⟨fun _ => ⟨hfree, rfl⟩, fun _ => rfl⟩
  | starts | misses _ =>
    refine ⟨nofun, ?_⟩
    rintro ⟨hfree, hbusy⟩
    cases hfree.symm.trans hbusy
  | @returns next _ hover =>
    refine ⟨fun hasks => ?_, nofun⟩
    cases next with
    | goesOn call => exact absurd rfl (hover call)
    | ends _ | unwinds => cases hasks

end Deed.Shuts

/-- What a shutdown has asked of the handle, by where it stands. -/
inductive Cancels : List Request → Next α → Prop
  | waits : Cancels [] (.goesOn .awaitingCancel)
  | asks : Cancels [.cancel] (.goesOn .cancelling)
  | skips : Cancels [] (.ends .shutDown)
  | ended {next : Next α} : (∀ call, next ≠ .goesOn call) → Cancels [.cancel] next

theorem Cancels.shuts {c c' : Connection} {requests : List Request} {call : Call α} {input : Input}
    {next : Next α} (h : Cancels requests (.goesOn call))
    (hd : Deed.Shuts c ⟨.goOn call input, next⟩ c') :
    Cancels (requests ++ (Deed.request? ⟨.goOn call input, next⟩).toList) next := by
  cases hd with
  | gets _ =>
    cases h with
    | waits => exact .asks
    | ended hover => exact absurd rfl (hover _)
  | misses _ =>
    cases h with
    | waits => exact .skips
    | ended hover => exact absurd rfl (hover _)
  | returns hover =>
    have hnone : Deed.request? ⟨.goOn .cancelling input, next⟩ = none := by
      cases next with
      | goesOn call => exact absurd rfl (hover call)
      | ends _ | unwinds => rfl
    rw [hnone]
    cases h with
    | asks => exact .ended hover
    | ended hover => exact absurd rfl (hover _)

theorem Trail.cancels [Memory] {deeds : List (Deed α)} {next : Next α} (h : Trail deeds next)
    (opens : Opens deeds .shutdown) : Cancels (dealings deeds).requests next := by
  induction h with
  | start hs =>
    obtain ⟨_, ho⟩ := opens
    cases ho
    cases hs with
    | shutsDown => exact .waits
  | goOn ht hg ih =>
    have hopens := (opens_snoc ht.ne_nil).mp opens
    rw [dealings_snoc]
    exact (ih hopens).shuts (hg.shuts (ht.serves hopens))

/-- A shutdown asks the handle for nothing but to cancel its read, and that once at most. -/
theorem Cancels.requests_eq {requests : List Request} {next : Next α} (h : Cancels requests next) :
    requests = [] ∨ requests = [.cancel] := by
  cases h with
  | waits | skips => exact .inl rfl
  | asks | ended _ => exact .inr rfl

/-- What a shutdown has made of the connection `c`, by where it stands, if nothing else has moved. -/
inductive ShutFrom (c : Connection) : Option (Next α) → Connection → Prop
  | before : ShutFrom c none c
  | waits : ShutFrom c (some (.goesOn .awaitingCancel)) { c with cancelSend := true }
  | asks : c.slot.busy = false → ShutFrom c (some (.goesOn .cancelling))
      { c with cancelSend := true, slot := { c.slot with busy := true } }
  | ended {next : Next α} : (∀ call, next ≠ .goesOn call) →
      ShutFrom c (some next) { c with cancelSend := true }

theorem ShutFrom.shuts {c c₁ c₂ : Connection} {d : Deed α} (h : ShutFrom c d.cause.found c₁)
    (hd : d.Shuts c₁ c₂) : ShutFrom c (some d.next) c₂ := by
  cases hd with
  | starts =>
    cases h with
    | before => exact .waits
  | gets hfree =>
    cases h with
    | waits => exact .asks hfree
    | ended hover => exact absurd rfl (hover _)
  | misses _ =>
    cases h with
    | waits => exact .ended (by rintro _ ⟨⟩)
    | ended hover => exact absurd rfl (hover _)
  | returns hover =>
    cases h with
    | asks hfree =>
      have hbefore : ({ c with cancelSend := true } : Connection).slot.busy = false := hfree
      rw [Connection.release_of_free hbefore]
      exact .ended hover
    | ended hover => exact absurd rfl (hover _)

namespace Ledger

variable [Memory]

section Moved

variable {l l' : Ledger α} {name : Nat} {deed : Deed α} {before after : List (Named α)}

/-- The deeds of a shutdown are those of a shutdown. -/
theorem Sound.shuts (s : Sound l) (m : Moves l l' name deed before after)
    (opens : Opens (l'.deeds name) .shutdown) : deed.Shuts l.connection l'.connection := by
  rw [m.deeds_self] at opens
  have hdoes := m.does
  generalize l'.connection = c' at hdoes ⊢
  cases hdoes with
  | starts hs =>
    rw [m.fresh _ rfl, s.deeds_fresh] at opens
    obtain ⟨_, ho⟩ := opens
    cases ho
    cases hs with
    | shutsDown => exact .starts
  | goesOn hg =>
    have htrail := s.trail _ m.self_mem
    exact hg.shuts (htrail.serves ((opens_snoc htrail.ne_nil).mp opens))

end Moved

/-- Once a shutdown has started, the sends are cancelled. -/
theorem Reachable.cancelSend_of_opens {l : Ledger α} (r : l.Reachable) {name : Nat}
    (opens : Opens (l.deeds name) .shutdown) : l.connection.cancelSend = true := by
  induction r with
  | start pid tuning =>
    obtain ⟨_, ho⟩ := opens
    cases ho
  | spawn _ ih => exact ih opens
  | @next l l' thread move hr hn ih =>
    obtain ⟨mover, deed, before, after, hm⟩ := moves_of_next hn
    by_cases he : name = mover
    · subst he
      rw [hm.deeds_self] at opens
      by_cases hnew : l.deeds name = []
      · rw [hnew] at opens
        have hdoes := hm.does
        generalize l'.connection = c' at hdoes ⊢
        obtain ⟨_, ho⟩ := opens
        cases ho
        cases hdoes with
        | starts hs =>
          cases hs with
          | shutsDown => rfl
      · exact hm.does.follows.cancelSend (ih ((opens_snoc hnew).mp opens))
    · rw [hm.deeds_other he] at opens
      exact hm.does.follows.cancelSend (ih opens)

/-- While only one shutdown moves, the connection is what that has made of it. -/
theorem Reaches.shutFrom {l₀ l : Ledger α} {name : Nat} {since : List (Nat × Deed α)}
    (h : l₀.Reaches l) (r : l₀.Reachable) (fresh : l₀.deeds name = [])
    (told : l.history = l₀.history ++ since) (alone : ∀ entry ∈ since, entry.1 = name)
    (opens : ∀ operation, Opens (l.deeds name) operation → operation = .shutdown) :
    ShutFrom l₀.connection (l.fate name) l.connection := by
  refine h.of_alone (fun l' => ShutFrom l₀.connection (l'.fate name) l'.connection) r told alone
    opens ?_ ?_ ?_
  · rw [fate, fresh]
    exact .before
  · exact fun l' hfrom => hfrom
  · intro l' l'' deed before after hsound hfrom hm hopens
    rw [hsound.fate_of_cause hm] at hfrom
    rw [hm.fate_self]
    exact hfrom.shuts (hsound.shuts hm hopens)

end Ledger

end WorkerLink
