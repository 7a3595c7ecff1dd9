import WorkerLink.Bridge.Relay

/-!
# The stages of the host side of a bridge

What one step of the host does to its stage, as a relation with a constructor for
each way it can go (`Relay.Goes`), and what it does to the lock
(`Relay.holder_of_step`). Log records are left out.

Under the lock nothing keeps the host waiting: each task can be done at once, and
after at most one more the lock is free (`Relay.lets_go`).
-/

namespace WorkerLink.Bridge.Relay

variable {α : Type} [Format α]

/-- `Goes c r input r'`: with this input the host goes from one stage to the other, while the
connection is `c`. -/
inductive Goes (c : Connection) : Relay α → RelayInput → Relay α → Prop
  | takes {task : Task} : Goes c (.locking task) .proceed (.holding task)
  | stops : c.done = true → Goes c (.holding .check) .proceed .joining
  | listens : c.done = false → Goes c (.holding .check) .proceed .listening
  | forwards {text : String} {message : α} : (read α text).1 = some message →
      Goes c (.holding (.handle (.line text))) .proceed (.sending message)
  | skips {text : String} : (read α text).1 = none →
      Goes c (.holding (.handle (.line text))) .proceed (.holding .check)
  | hearsNothing : Goes c (.holding (.handle .nothing)) .proceed (.holding .check)
  | hearsEnd : Goes c (.holding (.handle .inputEnded)) .proceed (.holding .drain)
  | reviews {outcome : Outcome} : Goes c (.holding (.review outcome)) .proceed (.holding .check)
  | rests : c.done = false → Goes c (.holding .drain) .proceed .resting
  | drained : c.done = true → Goes c (.holding .drain) .proceed .shuttingDown
  | givesUp : Goes c (.holding .drain) .timeUp .shuttingDown
  | leaves : Goes c (.holding .leave) .proceed .joining
  | hears {heard : Heard} : Goes c .listening (.heard heard) (.locking (.handle heard))
  | sent {message : α} {outcome : Outcome} :
      Goes c (.sending message) (.called outcome) (.locking (.review outcome))
  | wakes : Goes c .resting .proceed (.locking .drain)
  | shutDown {outcome : Outcome} : Goes c .shuttingDown (.called outcome) (.locking .leave)

theorem goes_of_perform {c : Connection} {input : RelayInput} {task : Task} {r : Relay α}
    {records : List Log.Record} (h : perform c input task = some (r, records)) :
    Goes c (.holding task) input r := by
  cases task with
  | check =>
    cases input <;> simp only [perform] at h <;> cases h
    by_cases hd : c.done = true
    · rw [if_pos hd]
      exact .stops hd
    · rw [if_neg hd]
      exact .listens (by simpa using hd)
  | handle heard =>
    cases heard with
    | line text =>
      simp only [perform] at h
      split at h
      · next hread =>
        cases h
        exact .forwards (by rw [hread])
      · next hread =>
        cases h
        exact .skips (by rw [hread])
      · cases h
    | nothing =>
      cases input <;> simp only [perform] at h <;> cases h
      exact .hearsNothing
    | inputEnded =>
      cases input <;> simp only [perform] at h <;> cases h
      exact .hearsEnd
  | review outcome =>
    cases input <;> simp only [perform] at h <;> cases h
    exact .reviews
  | drain =>
    cases input <;> simp only [perform] at h <;> cases h
    · by_cases hd : c.done = true
      · rw [if_pos hd]
        exact .drained hd
      · rw [if_neg hd]
        exact .rests (by simpa using hd)
    · exact .givesUp
  | leave =>
    cases input <;> simp only [perform] at h <;> cases h
    exact .leaves

section Steps

variable {thread : Nat} {m m' : Machine α} {r r' : Relay α} {input : RelayInput}
  {records : List Log.Record}

theorem goes_of_step (h : r.step thread m input = some (m', r', records)) :
    Goes m.connection r input r' := by
  unfold step at h
  split at h
  · split at h
    · cases h
      exact .takes
    · cases h
  · obtain ⟨⟨_, _⟩, hperform, he⟩ := Option.map_eq_some_iff.mp h
    cases he
    exact goes_of_perform hperform
  · cases h
    exact .hears
  · cases h
    exact .sent
  · cases h
    exact .wakes
  · cases h
    exact .shutDown
  · cases h

/-- After a step the host has the lock if its stage says so. If it had the lock before, the lock is
free otherwise; if not, nothing has changed. It takes only a free lock. -/
theorem holder_of_step (h : r.step thread m input = some (m', r', records)) :
    m'.hostHolder = (if r'.holdsLock then some thread
      else if r.holdsLock then none else m.hostHolder) ∧
    (r.holdsLock = false → r'.holdsLock = true → m.hostHolder = none) := by
  unfold step at h
  split at h
  · split at h
    · next hfree =>
      cases h
      exact ⟨rfl, fun _ _ => Option.isNone_iff_eq_none.mp hfree⟩
    · cases h
  · obtain ⟨⟨_, _⟩, _, he⟩ := Option.map_eq_some_iff.mp h
    cases he
    exact ⟨rfl, nofun⟩
  · cases h
    exact ⟨rfl, nofun⟩
  · cases h
    exact ⟨rfl, nofun⟩
  · cases h
    exact ⟨rfl, nofun⟩
  · cases h
    exact ⟨rfl, nofun⟩
  · cases h

end Steps

/-- A task can be done at once. -/
theorem perform_proceed (c : Connection) (task : Task) :
    ∃ turn : Turn α, perform c .proceed task = some turn := by
  cases task with
  | handle heard =>
    cases heard with
    | line text =>
      simp only [perform]
      cases hread : read α text with
      | mk message? records => cases message? <;> exact ⟨_, rfl⟩
    | nothing => exact ⟨_, rfl⟩
    | inputEnded => exact ⟨_, rfl⟩
  | check => exact ⟨_, rfl⟩
  | review outcome => exact ⟨_, rfl⟩
  | drain => exact ⟨_, rfl⟩
  | leave => exact ⟨_, rfl⟩

/-- A step of the host under the lock. -/
theorem step_holding (thread : Nat) (m : Machine α) (task : Task) :
    ∃ m' r records, step thread m (.holding task) .proceed = some (m', r, records) := by
  obtain ⟨⟨r, records⟩, hturn⟩ : ∃ turn : Turn α, perform m.connection .proceed task = some turn :=
    perform_proceed m.connection task
  exact ⟨_, r, records, by rw [step, hturn]; rfl⟩

/-- After a task the host has let go of the lock, or one task is left with which it will. -/
theorem Goes.lets_go {c : Connection} {task : Task} {r : Relay α}
    (h : Goes c (.holding task) .proceed r) : r.holdsLock = false ∨
      ∃ task', r = .holding task' ∧
        ∀ c' (r' : Relay α), Goes c' (.holding task') .proceed r' → r'.holdsLock = false := by
  have last {task' : Task} (hlast : task' = .check ∨ task' = .drain) (c' : Connection)
      (r' : Relay α) (hgoes : Goes c' (.holding task') .proceed r') : r'.holdsLock = false := by
    rcases hlast with rfl | rfl <;> cases hgoes <;> rfl
  cases h with
  | stops _ | listens _ | forwards _ | rests _ | drained _ | leaves => exact .inl rfl
  | skips _ | hearsNothing | reviews => exact .inr ⟨.check, rfl, last (.inl rfl)⟩
  | hearsEnd => exact .inr ⟨.drain, rfl, last (.inr rfl)⟩

end WorkerLink.Bridge.Relay
