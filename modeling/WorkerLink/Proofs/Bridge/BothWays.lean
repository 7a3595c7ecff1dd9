import WorkerLink.Proofs.Bridge.Finishing
import WorkerLink.Proofs.Bridge.InputLines
import WorkerLink.Proofs.Bridge.Printing
import WorkerLink.Proofs.Json.OneLine

/-!
# Both ways of a bridge

What a bridge does with an input and with the events of its worker, over all
orders of its steps (`relays_both_ways`): the worker gets the frames of the lines
that are JSON, in order and nothing besides, and the output gets one line for
each message, in the order in which the messages were told.
-/

namespace WorkerLink.Bridge

namespace Crossing

/-- A bridge hears the texts of its input. Where nothing disturbs it, the worker never gets anything
but a front part of what they are worth, and all of it once the host is done with them. A host that
listens no more is done with them, and as long as the connection is not done it can get there. An
output that takes every byte gets the lines of the events that were told, without the one that the
receiver still has, and each message is one line. -/
theorem relays_both_ways {α : Type} [Format α] [Memory] {input : Bytes} {endsAt pid : Nat}
    {tuning : Tuning} {output : Output} {c : Crossing α}
    (oneLine : ∀ message : α, 10 ∉ Format.print message)
    (reaches : (opening pid tuning (Feed.ofBytes input endsAt).texts output).Reaches c) :
    Brings input (Feed.ofBytes input endsAt).texts ∧
    (Undisturbed (Feed.ofBytes input endsAt).texts c →
      (∀ text ∈ (Feed.ofBytes input endsAt).texts, HasRoom (frameOf α text)) →
      c.ledger.passed <+: (Feed.ofBytes input endsAt).texts.flatMap (frameOf α) ∧
      (c.relay.isPast = true → c.Consumed) ∧
      (c.Consumed → c.ledger.passed = (Feed.ofBytes input endsAt).texts.flatMap (frameOf α)) ∧
      (c.ledger.connection.done = false →
        ∃ c', c.Reaches c' ∧ Undisturbed (Feed.ofBytes input endsAt).texts c' ∧ c'.Consumed)) ∧
    (output.TakesAll →
      (∃ emitted, c.ledger.toldByAll = emitted ++ c.telling?.toList ∧
        c.output.written = output.written ++ emitted.flatMap lineOf) ∧
      ∀ events : List (Connection × Event α),
        (events.foldl (fun o told => (emit told.1 o told.2).1) output).written =
          output.written ++ events.flatMap fun told => lineOf told.2) ∧
    ∀ events : List (Event α),
      Cut (events.flatMap lineOf) ((events.filterMap message?).map Format.print) [] := by
  refine ⟨brings_ofBytes input endsAt, ?_, ?_, cut_flatMap_lineOf oneLine⟩
  · intro undisturbed room
    have a := undisturbed.accounts room
    refine ⟨?_, a.consumed_of_past, ?_, ?_⟩
    · rw [← a.total, List.append_assoc]
      exact List.prefix_append _ _
    · rintro ⟨hlines, hhand⟩
      have htotal := a.total
      rw [hlines, hhand] at htotal
      simpa using htotal
    · intro undone
      obtain ⟨c', hcomes, hconsumed⟩ := undisturbed.exists_consumed room undone
      exact ⟨c', hcomes.reaches, hcomes.undisturbed, hconsumed⟩
  · intro takesAll
    exact ⟨reaches.prints takesAll, written_of_emitted takesAll⟩

attribute [local instance] Memory.kilobyte

/-- The worker says 7 before the host has heard a line. -/
theorem worker_says_seven (texts : List String) : ∃ c : Crossing Json.Value,
    (opening 7 {} texts {}).Reaches c ∧ Undisturbed texts c ∧
    c.ledger.connection.done = false ∧ c.ledger.toldByAll = [.message (.integer 7)] ∧
    c.telling? = none := by
  let opened : Crossing Json.Value := opening 7 {} texts {}
  obtain ⟨l, c, hopens, hundone, hfollow, hundone', htold, hnone⟩ : ∃ l c,
      opened.ledger.next dispatchThread
        (.start (.dispatch (.ofFormat Json.Value) .locked)) = some l ∧
      l.connection.done = false ∧
      follow { opened with ledger := l, opened := true }
        [.proceed, .proceed, .proceed, .alive true,
          .read [] (.ok (Frame.marker ++ [49, 13, 10, 13, 10, 55])), .proceed, .proceed,
          .returned] = some c ∧
      c.ledger.connection.done = false ∧ c.ledger.toldByAll = [.message (.integer 7)] ∧
      c.telling? = none :=
    ⟨_, _, rfl, rfl, rfl, rfl, rfl, rfl⟩
  have hopening : Undisturbed texts opened := .start 7 {} {}
  have hstarted := hopening.opens rfl hopens hundone
  have hsays := hstarted.undisturbed.follow hfollow hundone'
  exact ⟨c, (hstarted.trans hsays).reaches, hsays.undisturbed, hundone', htold, hnone⟩

/-- The worker says 7 before the host has heard any of four lines, of which two are JSON. -/
theorem relays_both_ways_of_four_lines : ∃ (texts : List String) (c c' : Crossing Json.Value),
    texts = (Feed.ofBytes [49, 13, 10, 32, 10, 123, 10, 110, 117, 108, 108] 5).texts ∧
    (opening 7 {} texts {}).Reaches c ∧ Undisturbed texts c ∧
    c.ledger.toldByAll = [.message (.integer 7)] ∧ c.output.written = [55, 10] ∧
    c.Reaches c' ∧ c'.Consumed ∧
    c'.ledger.passed = Frame.encode [49] ++ Frame.encode [110, 117, 108, 108] := by
  let input : Bytes := [49, 13, 10, 32, 10, 123, 10, 110, 117, 108, 108]
  have htexts : (Feed.ofBytes input 5).texts = ["1", " ", "\x7b", "null"] := by decide +kernel
  have hworth : ["1", " ", "\x7b", "null"].flatMap (frameOf Json.Value) =
      Frame.encode [49] ++ Frame.encode [110, 117, 108, 108] := by decide +kernel
  have hreserves : ∀ text ∈ ["1", " ", "\x7b", "null"],
      Memory.reserves (frameOf Json.Value text).length := by decide +kernel
  have hroom : ∀ text ∈ ["1", " ", "\x7b", "null"], HasRoom (frameOf Json.Value text) :=
    fun text hmem _ => hreserves text hmem
  obtain ⟨c, hreaches, hundisturbed, hundone, htold, hnone⟩ :=
    worker_says_seven ["1", " ", "\x7b", "null"]
  rw [← htexts] at hreaches hundisturbed hworth hroom
  obtain ⟨-, hforward, hback, -⟩ := relays_both_ways Json.newline_not_mem_encode hreaches
  obtain ⟨⟨emitted, hemitted, hwritten⟩, -⟩ := hback fun _ => rfl
  obtain ⟨-, -, -, hconsume⟩ := hforward hundisturbed hroom
  obtain ⟨c', hreaches', hundisturbed', hconsumed⟩ := hconsume hundone
  obtain ⟨-, hforward', -, -⟩ :=
    relays_both_ways Json.newline_not_mem_encode (hreaches.trans hreaches')
  obtain ⟨-, -, hwhole, -⟩ := hforward' hundisturbed' hroom
  refine ⟨_, c, c', rfl, hreaches, hundisturbed, htold, ?_, hreaches', hconsumed, ?_⟩
  · rw [hnone, htold] at hemitted
    obtain rfl : [.message (.integer 7)] = emitted := hemitted.trans (List.append_nil _)
    rw [hwritten]
    decide +kernel
  · rw [hwhole hconsumed, hworth]

end Crossing

end WorkerLink.Bridge
