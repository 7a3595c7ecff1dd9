import WorkerLink.Settings
import WorkerLink.Word

/-!
Values that may stand for a setting, before it is known whether they fit it. Only texts and whole
numbers fit one; the other kinds are kept apart so that a source can say them.
-/

namespace WorkerLink.Settings

inductive Value
  | text (s : String)
  | integer (n : Int)
  /-- A number with a fraction or an exponent, as written. -/
  | real (written : String)
  | boolean (b : Bool)
  | moment (written : String)
  | list (items : List Value)
  | table (entries : List (String × Value))

/-- A layer of settings: values by name, of which the last counts. -/
abbrev Layer := List (String × Value)

def Layer.get? (layer : Layer) (key : String) : Option Value :=
  (layer.reverse.find? fun entry => entry.1 = key).map (·.2)

/-- A size or a time: a whole number of 64 bits without a sign. -/
def Value.word? : Value → Option Nat
  | .integer n => if 0 ≤ n && n < Word.limit then some n.toNat else none
  | _ => none

def assign? (s : Settings) (setting : Setting) (value : Value) : Option Settings :=
  match setting with
  | .logFilter =>
    match value with
    | .text text => some { s with logFilter := text }
    | _ => none
  | .logFormat =>
    match value with
    | .text text => (LogFormat.ofName? text).map fun found => { s with logFormat := found }
    | _ => none
  | .sendTimeout => value.word?.map fun n => { s with sendTimeout := n }
  | .shutdownTimeout => value.word?.map fun n => { s with shutdownTimeout := n }
  | .closeTimeout => value.word?.map fun n => { s with closeTimeout := n }
  | .pollInterval => value.word?.map fun n => { s with pollInterval := n }
  | .stderrCapacity => value.word?.map fun n => { s with stderrCapacity := n }
  | .drainTimeout => value.word?.map fun n => { s with drainTimeout := n }

end WorkerLink.Settings
