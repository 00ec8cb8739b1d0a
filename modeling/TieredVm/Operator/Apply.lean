import TieredVm.Machine.Context
import TieredVm.Operator.Inline

/-!
# Operators

An operator answers inline where it can. Otherwise it records the hand-off, packs its operands
into slots and calls the interpreter's entry: the result is what the entry left in the first slot;
an exception it answers with is raised, and the result is the error sentinel.

Truth is read from the payload of a small value and asked of the interpreter for any other.

* `handOff` is `slow_path::binary` and `slow_path::unary`, with the event of `trace_fallback`.
* `binary` at an operator is its function in `ops`: `add`, `sub`, `mul`, `div`, `rem`, `pow`,
  `bit_and`, `bit_or`, `bit_xor`, `shl`, `sar`, `shr`, the comparisons that `int_compare!` makes,
  `instance_of` and `in_op`.
* `unaryOp` is `neg`, `plus`, `bit_not`, `inc` and `dec`. `toBool`, `logicalNot` and `typeOf` are
  `to_bool`, `lnot` and `type_of`.
-/

namespace TieredVm

variable {R : Type}

/-- Hands operands to an entry of the interpreter. -/
def handOff {n : Nat} (label : String) (entry : Entry R (n + 1)) (operands : Operands (n + 1)) :
    Run R Value := do
  Run.emit (.slowPath label operands.toList)
  match ← (entry operands).run with
  | .ok answered => return answered.result
  | .error e => Machine.raise e

namespace Interpreter

variable (I : Interpreter R)

/-- A binary operator. -/
def binary (op : BinaryOp) (x y : Value) : Run R Value :=
  match op.inline? x y with
  | some v => pure v
  | none => handOff op.label (op.entry I) (.pair x y)

/-- A unary operator on numbers. -/
def unaryOp (op : UnaryOp) (x : Value) : Run R Value :=
  match op.inline? x with
  | some v => pure v
  | none => handOff op.label (I.unary op) (.single x)

/-- The truth of a value. A value that is not small is released. -/
def toBool (x : Value) : Run R Bool :=
  match x.small? with
  | some payload => pure (payload != 0)
  | none => Run.onRuntime (I.truth x)

/-- Logical negation. -/
def logicalNot (x : Value) : Run R Value := do
  match x.asBool? with
  | some b => return .ofBool (!b)
  | none => return .ofBool (!(← I.toBool x))

/-- The text of a value's category. The value is released once its category is known. -/
def typeOf (x : Value) : Run R Value := Run.onRuntime do
  let category ← I.category x
  I.release x
  I.categoryText category

end Interpreter

end TieredVm
