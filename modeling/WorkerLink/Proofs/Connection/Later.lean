import WorkerLink.Proofs.Connection.Ledger

/-!
# What later moves keep

A connection that is done, has its sends cancelled or has been closed stays so,
and its process id stays what it was (`Connection.Follows`). This holds of each
deed by itself, so it holds from any moment to any later one, and the record of
the deeds only grows.
-/

namespace WorkerLink

variable {α : Type}

/-- What holds of a connection for good once it holds. -/
structure Connection.Follows (c c' : Connection) : Prop where
  pid : c'.pid = c.pid
  done : c.done = true → c'.done = true
  cancelSend : c.cancelSend = true → c'.cancelSend = true
  closed : c.isClosed = true → c'.isClosed = true

namespace Connection

theorem Follows.refl (c : Connection) : Follows c c := ⟨rfl, id, id, id⟩

theorem Follows.trans {c c' c'' : Connection} (h : Follows c c') (k : Follows c' c'') :
    Follows c c'' where
  pid := k.pid.trans h.pid
  done := fun hd => k.done (h.done hd)
  cancelSend := fun hc => k.cancelSend (h.cancelSend hc)
  closed := fun hc => k.closed (h.closed hc)

theorem follows_markDone (c : Connection) : Follows c c.markDone := ⟨rfl, fun _ => rfl, id, id⟩

theorem follows_diagnose (c : Connection) (bytes : Bytes) : Follows c (c.diagnose bytes) :=
  ⟨rfl, id, id, id⟩

theorem follows_release (c : Connection) : Follows c c.release := ⟨rfl, id, id, id⟩

theorem follows_retire (c : Connection) : Follows c c.retire := ⟨rfl, id, id, fun _ => rfl⟩

theorem follows_claim {c c' : Connection} (h : c.claim = .ok c') : Follows c c' := by
  obtain ⟨_, _, rfl⟩ := claim_eq_ok.mp h
  exact ⟨rfl, id, id, id⟩

end Connection

open Connection (Follows)

theorem Dispatch.Absorbs.follows {run : Dispatch α} {c c' : Connection} {a : Advance}
    {next : Next α} (h : Absorbs run c a c' next) : Follows c c' := by
  have hstray := Connection.follows_diagnose c a.stray
  cases h with
  | wants _ => exact hstray
  | finds _ => exact hstray
  | stops _ => exact hstray.trans (Connection.follows_markDone _)

variable [Memory]

theorem Dispatch.Goes.follows {run : Dispatch α} {c c' : Connection} {input : Input}
    {next : Next α} (h : Goes run c input c' next) : Follows c c' := by
  cases h with
  | found _ _ | missed _ _ | tooLate _ _ | begins _ _ | leaves _ _ | probes _ _ | inactive _ _
  | retries _ | decodes _ _ | stumbles _ _ | delivers _ | continues _ _ | finishes _ _
  | abandons _ _ _ | closed _ | raises _ _ => exact .refl c
  | refused _ | clears _ => exact ⟨rfl, id, id, id⟩
  | seeks _ ha | givesUp _ ha => exact ha.follows
  | fails _ => exact (Connection.follows_diagnose c _).trans (Connection.follows_markDone _)
  | hearsNothing _ => exact Connection.follows_diagnose c _
  | hears _ _ ha => exact (Connection.follows_diagnose c _).trans ha.follows
  | concludes _ => exact Connection.follows_markDone c
  | closes _ hc _ => exact Connection.follows_claim hc
  | retires _ => exact Connection.follows_retire c
  | releases _ | closeRaises _ => exact Connection.follows_release c

/-- Nothing that a call does takes a flag back. -/
theorem Deed.Does.follows {c c' : Connection} {d : Deed α} (h : d.Does c c') : Follows c c' := by
  cases h with
  | starts hs =>
    cases hs with
    | lacksPayload | sends | refuses _ => exact .refl c
    | shutsDown => exact ⟨rfl, id, fun _ => rfl, id⟩
    | dispatches _ => exact ⟨rfl, id, id, id⟩
  | goesOn hg =>
    cases hg with
    | takesHandle hc _ | cancels hc _ => exact Connection.follows_claim hc
    | frames _ | lacksHandle _ _ | skipsCancel _ _ => exact .refl c
    | lacksMemory _ | wrote | cancelled | sendRaises | cancelRaises =>
      exact Connection.follows_release c
    | dispatches hd => exact hd.follows

namespace Ledger

/-- What can come about from a ledger on. -/
inductive Reaches (l : Ledger α) : Ledger α → Prop
  | refl : Reaches l l
  | spawn {l' : Ledger α} : Reaches l l' → Reaches l l'.spawn
  | next {l' l'' : Ledger α} {thread : Nat} {move : Move α} :
      Reaches l l' → l'.next thread move = some l'' → Reaches l l''

theorem Reaches.reachable {l l' : Ledger α} (h : l.Reaches l') (r : l.Reachable) :
    l'.Reachable := by
  induction h with
  | refl => exact r
  | spawn _ ih => exact .spawn ih
  | next _ hn ih => exact .next ih hn

theorem Reaches.trans {l l' l'' : Ledger α} (h : l.Reaches l') (k : l'.Reaches l'') :
    l.Reaches l'' := by
  induction k with
  | refl => exact h
  | spawn _ ih => exact .spawn ih
  | next _ hn ih => exact .next ih hn

theorem reaches_follow {l l' : Ledger α} {moves : List (Nat × Move α)}
    (hf : l.follow moves = some l') : l.Reaches l' := by
  induction moves generalizing l with
  | nil =>
    cases hf
    exact .refl
  | cons move moves ih =>
    rw [follow] at hf
    split at hf
    · next hn => exact (Reaches.refl.next hn).trans (ih hf)
    · cases hf

theorem Reaches.follows {l l' : Ledger α} (h : l.Reaches l') :
    Follows l.connection l'.connection := by
  induction h with
  | refl => exact .refl _
  | spawn _ ih => exact ih
  | next _ hn ih =>
    obtain ⟨_, _, _, _, hm⟩ := moves_of_next hn
    exact ih.trans hm.does.follows

end Ledger

end WorkerLink
