import TieredVm.Operator.Apply

/-!
# The recording interpreter

An interpreter that computes nothing: it writes down every call it gets and answers each operator
with the same marker. It knows no functions.

`Recording.interpreter` is `Recorder` of the unit tests, whose log of calls is `State.calls` and
whose `MARKER` is `marker`.
-/

namespace TieredVm.Recording

/-- The calls written down so far, in order. -/
structure State where
  calls : List String := []
deriving DecidableEq

/-- What every operator is answered with. -/
def marker : Value := .uninitialized

/-- Writes a call down. -/
def note (call : String) : Local State Unit :=
  modify fun s => { s with calls := s.calls ++ [call] }

/-- An operator entry: the call is written down and the marker is the result. -/
def entry {n : Nat} (point : EntryPoint) : Entry State (n + 1) := fun operands => do
  Attempt.lift (Run.onRuntime (note point.text))
  return operands.withResult marker

/-- The category of a value, by whether it is a number. -/
def category (v : Value) : Local State Category := do
  note "typeof_kind"
  match v.asNumber? with
  | .ok n => return if n.isSome then .number else .object
  | .error violation => throw (Stop.violation violation)

/-- The recording interpreter. -/
def interpreter : Interpreter State where
  bytecode := fun _ _ => none
  captures := fun _ _ => none
  duplicate := pure
  add := entry .add
  arith := fun op => entry (.arith op)
  logic := fun op => entry (.logic op)
  shr := entry .shr
  unary := fun op => entry (.unary op)
  relational := fun op => entry (.relational op)
  equal := fun n => entry (.equal n)
  strictEqual := fun n => entry (.strictEqual n)
  instanceOf := entry .instanceOf
  contains := entry .contains
  truth := fun _ => do
    note "to_bool_free"
    return true
  category := category
  categoryText := fun c => do
    note s!"atom_to_string({c.name})"
    return marker
  release := fun _ => note "free_value"

/-- The text of the interpreter's state. -/
def State.text (s : State) : String :=
  Text.record "Recorder" [("calls", Text.bracketed (s.calls.map Text.quoted))]

end TieredVm.Recording
