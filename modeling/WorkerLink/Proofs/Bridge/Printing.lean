import WorkerLink.Proofs.Bridge.Crossing
import WorkerLink.Proofs.Bridge.InputLines

/-!
# From the events to the output

The output is what the events that the receiver has come back from make of it, in
the order in which they were told. The one event that the receiver may still have
is not in it yet (`Emitted`). Each event is worth a line or nothing (`lineOf`), and
an output that takes every byte gets the lines of all of them (`Reaches.prints`).
-/

namespace WorkerLink.Bridge

variable {α : Type} [Format α]

def lineOf : Event α → Bytes
  | .message value => Format.print value ++ [10]
  | .decodeFailed _ | .endOfStream => []

def message? : Event α → Option α
  | .message value => some value
  | .decodeFailed _ | .endOfStream => none

theorem flatMap_lineOf (events : List (Event α)) : events.flatMap lineOf =
    ((events.filterMap message?).map Format.print).flatMap fun line => line ++ [10] := by
  induction events with
  | nil => rfl
  | cons event events ih =>
    cases event with
    | message value => exact congrArg (Format.print value ++ [10] ++ ·) ih
    | decodeFailed _ | endOfStream => exact ih

/-- Each message is a line where no message has a line feed in it. -/
theorem cut_flatMap_lineOf (oneLine : ∀ value : α, 10 ∉ Format.print value)
    (events : List (Event α)) :
    Cut (events.flatMap lineOf) ((events.filterMap message?).map Format.print) [] := by
  refine ⟨?_, ?_, List.not_mem_nil⟩
  · rw [flatMap_lineOf, List.append_nil]
  · intro line hline
    obtain ⟨value, -, rfl⟩ := List.mem_map.mp hline
    exact oneLine value

namespace Output

def TakesAll (o : Output) : Prop := ∀ n, o.accepts n = true

theorem taken_of_accepts {accepts : Nat → Bool} (h : ∀ n, accepts n = true) (n : Nat)
    (bytes : Bytes) : taken accepts n bytes = bytes := by
  induction bytes generalizing n with
  | nil => rfl
  | cons b bytes ih => rw [taken, if_pos (h n), ih]

theorem TakesAll.write {o : Output} (h : o.TakesAll) (bytes : Bytes) :
    ∃ o', o.write bytes = (o', true) ∧ o'.written = o.written ++ bytes ∧ o'.TakesAll := by
  have hwrite : o.write bytes = ({ o with
      written := o.written ++ bytes
      offered := o.offered + min (bytes.length + 1) bytes.length }, true) := by
    simp only [Output.write, taken_of_accepts h, decide_true]
  exact ⟨_, hwrite, rfl, h⟩

theorem TakesAll.writeLine {o : Output} (h : o.TakesAll) (line : Bytes) :
    ∃ o', o.writeLine line = (o', true) ∧ o'.written = o.written ++ (line ++ [10]) ∧
      o'.TakesAll := by
  obtain ⟨o₁, hmessage, hwritten₁, hall₁⟩ := h.write line
  obtain ⟨o₂, hend, hwritten₂, hall₂⟩ := hall₁.write [10]
  refine ⟨o₂, ?_, ?_, hall₂⟩
  · simp only [Output.writeLine, hmessage, hend]
  · rw [hwritten₂, hwritten₁, List.append_assoc]

def after (o : Output) : Event α → Output
  | .message value => (o.writeLine (Format.print value)).1
  | .decodeFailed _ | .endOfStream => o

end Output

theorem emit_fst (c : Connection) (o : Output) (event : Event α) :
    (emit c o event).1 = o.after event := by
  cases event with
  | message value =>
    simp only [emit, Output.after]
    split <;> simp only [*]
  | decodeFailed error => rfl
  | endOfStream => rfl

namespace Output

theorem TakesAll.after {o : Output} (h : o.TakesAll) (event : Event α) :
    (o.after event).written = o.written ++ lineOf event ∧ (o.after event).TakesAll := by
  cases event with
  | message value =>
    obtain ⟨o', hline, hwritten, hall⟩ := h.writeLine (Format.print value)
    rw [Output.after, hline]
    exact ⟨hwritten, hall⟩
  | decodeFailed error => exact ⟨(List.append_nil _).symm, h⟩
  | endOfStream => exact ⟨(List.append_nil _).symm, h⟩

/-- Whatever the events are, the output gets their lines in order. -/
theorem TakesAll.foldl_after {o : Output} (h : o.TakesAll) (events : List (Event α)) :
    (events.foldl Output.after o).written = o.written ++ events.flatMap lineOf ∧
      (events.foldl Output.after o).TakesAll := by
  induction events generalizing o with
  | nil => exact ⟨(List.append_nil _).symm, h⟩
  | cons event events ih =>
    obtain ⟨hwritten, hall⟩ := h.after event
    obtain ⟨hmore, hall'⟩ := ih hall
    refine ⟨?_, hall'⟩
    rw [List.foldl_cons, hmore, hwritten, List.flatMap_cons, List.append_assoc]

end Output

/-- What the receiver does with events depends on the connection in what it records only. -/
theorem written_of_emitted {o : Output} (h : o.TakesAll)
    (events : List (Connection × Event α)) :
    (events.foldl (fun o told => (emit told.1 o told.2).1) o).written =
      o.written ++ events.flatMap fun told => lineOf told.2 := by
  have hsame : events.foldl (fun o told => (emit told.1 o told.2).1) o =
      (events.map Prod.snd).foldl Output.after o := by
    rw [List.foldl_map]
    exact congrArg (fun f => events.foldl f o) (funext₂ fun o told => emit_fst told.1 o told.2)
  rw [hsame, (h.foldl_after _).1, List.flatMap_map]

namespace Crossing

/-- The output is what the events told make of it, but for the one that the receiver has. -/
def Emitted (before : Output) (c : Crossing α) : Prop :=
  ∃ emitted, c.ledger.toldByAll = emitted ++ c.telling?.toList ∧
    c.output = emitted.foldl Output.after before

section Steps

variable {c : Crossing α} {before : Output} {l : Ledger α} {name : Nat}
  {deed : Deed α}

/-- The host tells no events. -/
theorem Emitted.by_host (e : c.Emitted before) {move : Move α}
    {below : List (Named α)}
    (shifts : Ledger.Shifts c.ledger l hostThread move name deed below)
    (history : l.history = c.ledger.history ++ [(name, deed)]) (quiet : deed.delivery? = none)
    {call? : Option Nat} : Emitted before { c with ledger := l, call? } := by
  obtain ⟨emitted, htold, houtput⟩ := e
  have hstack : l.stack dispatchThread = c.ledger.stack dispatchThread :=
    shifts.others _ threads_differ.symm
  have htelling : telling? { c with ledger := l, call? } = c.telling? := by
    simp only [telling?, hstack]
  refine ⟨emitted, ?_, houtput⟩
  rw [htelling, ← htold, Ledger.toldByAll_snoc history, quiet]
  exact List.append_nil _

theorem delivery?_of_operation {operation : Operation α} {cause : Cause α}
    {next : Next α} (asked : c.relay.operation? = some operation)
    (serves : ∀ call, next = .goesOn call → call.Serves operation) :
    Deed.delivery? ⟨cause, next⟩ = none := by
  cases next with
  | ends outcome => rfl
  | unwinds => rfl
  | goesOn call =>
    cases call with
    | dispatch run => exact False.elim (not_dispatch_of_operation asked (serves _ rfl) run rfl)
    | awaitingSend _ | framing _ | sending _ | awaitingCancel | cancelling => rfl

/-- What the dispatch tells next is what the receiver has then. -/
theorem Emitted.by_dispatch (e : c.Emitted before) {move : Move α}
    (shifts : Ledger.Shifts c.ledger l dispatchThread move name deed [])
    (history : l.history = c.ledger.history ++ [(name, deed)]) {opened : Bool} {output : Output}
    (written : output = c.telling?.toList.foldl Output.after c.output) :
    Emitted before { c with ledger := l, opened, output } := by
  obtain ⟨emitted, htold, houtput⟩ := e
  have hleft : l.stack dispatchThread = deed.left name := by
    rw [shifts.left, List.append_nil]
  have htelling : telling? { c with ledger := l, opened, output } = deed.delivery? := by
    simp only [telling?, hleft, Deed.left, Deed.delivery?]
    cases deed.next <;> rfl
  refine ⟨emitted ++ c.telling?.toList, ?_, ?_⟩
  · rw [htelling, Ledger.toldByAll_snoc history, htold]
  · rw [List.foldl_append, ← houtput]
    exact written

variable [Memory]

theorem Emitted.dispatches (e : c.Emitted before) (o : c.Orderly) {input : Input}
    (next : c.ledger.next dispatchThread (.goOn input) = some l) {output : Output}
    (written : output = c.telling?.toList.foldl Output.after c.output) :
    Emitted before { c with ledger := l, output } := by
  obtain ⟨_, _, _, _, _, -, -, -, hm, hs⟩ := o.goesOn_of_dispatches next
  exact e.by_dispatch hs hm.history written

theorem Emitted.moves {c' : Crossing α} (e : c.Emitted before) (o : c.Orderly) (h : c.Moves c') :
    c'.Emitted before := by
  cases h with
  | relays _ _ => exact e
  | unwinds _ _ => exact e
  | asks asked idle next =>
    obtain ⟨_, _, _, hserves, hm, hs⟩ := o.starts_of_asks idle next
    exact e.by_host hs hm.history (delivery?_of_operation asked hserves)
  | answers next =>
    obtain ⟨_, _, _, _, _, _, -, -, asked, -, hserves, hm, hs⟩ := o.goesOn_of_answers next
    exact e.by_host hs hm.history (delivery?_of_operation asked hserves)
  | opens closed next =>
    obtain ⟨_, _, _, hm, hs⟩ := o.starts_of_opens closed next
    refine e.by_dispatch hs hm.history ?_
    rw [telling?_of_away (o.away_of_closed closed)]
    rfl
  | dispatches none next =>
    refine e.dispatches o next ?_
    rw [none]
    rfl
  | emits telling next =>
    refine e.dispatches o next ?_
    rw [emit_fst, telling]
    rfl

theorem Reaches.emitted {pid : Nat} {tuning : Tuning} {lines : List String} {output : Output}
    (h : (opening pid tuning lines output).Reaches c) : c.Emitted output := by
  induction h with
  | refl => exact ⟨[], rfl, rfl⟩
  | moves hreaches hmoves ih =>
    exact ih.moves ((orderly_opening pid tuning lines output).reaches hreaches) hmoves

end Steps

/-- The output has the lines of the events told, but for the one that the receiver has. -/
theorem Reaches.prints [Memory] {c : Crossing α} {pid : Nat} {tuning : Tuning}
    {lines : List String} {output : Output} (h : (opening pid tuning lines output).Reaches c)
    (takesAll : output.TakesAll) : ∃ emitted, c.ledger.toldByAll = emitted ++ c.telling?.toList ∧
      c.output.written = output.written ++ emitted.flatMap lineOf := by
  obtain ⟨emitted, htold, houtput⟩ := h.emitted
  exact ⟨emitted, htold, houtput ▸ (takesAll.foldl_after emitted).1⟩

end Crossing

end WorkerLink.Bridge
