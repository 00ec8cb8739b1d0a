import TieredVm.Stop
import TieredVm.Text.Quoted
import TieredVm.Value.Basic

/-!
# Operand slots

The interpreter's generic operators read their operands from a run of slots and leave the result
in the first one. `Operands n` is such a run.

`Operands` keeps its name, and so do `get`, `setResult`, `result`, `pair`, `single`, `lhs`, `rhs`
and `operand` (`set_result` and so on). `withResult` is `set_result` where slot 0 is known to be
there. `text` is the derived `Debug`.
-/

namespace TieredVm

/-- The operands of one operator call, in slot order. -/
structure Operands (n : Nat) where
  slots : Vector Value n
deriving DecidableEq

namespace Operands

/-- The operand in a slot. -/
def get {n : Nat} (o : Operands n) (i : Nat) : Except Panic Value :=
  if h : i < n then .ok o.slots[i] else .error (.outOfBounds n i)

/-- Writes the result, which takes the first slot. -/
def setResult {n : Nat} (o : Operands n) (v : Value) : Except Panic (Operands n) :=
  if h : 0 < n then .ok ⟨o.slots.set 0 v h⟩ else .error (.outOfBounds n 0)

/-- The operands with their first slot overwritten by the result. -/
def withResult {n : Nat} (o : Operands (n + 1)) (v : Value) : Operands (n + 1) :=
  ⟨o.slots.set 0 v⟩

/-- What the first slot holds. -/
def result {n : Nat} (o : Operands (n + 1)) : Value := o.slots[0]

/-- The operands of a binary operator. -/
def pair (x y : Value) : Operands 2 := ⟨#v[x, y]⟩

/-- The operand of a unary operator. -/
def single (x : Value) : Operands 1 := ⟨#v[x]⟩

def lhs (o : Operands 2) : Value := o.slots[0]

def rhs (o : Operands 2) : Value := o.slots[1]

def operand (o : Operands 1) : Value := o.slots[0]

def toList {n : Nat} (o : Operands n) : List Value := o.slots.toList

@[simp] theorem lhs_pair (x y : Value) : (pair x y).lhs = x := rfl

@[simp] theorem rhs_pair (x y : Value) : (pair x y).rhs = y := rfl

@[simp] theorem operand_single (x : Value) : (single x).operand = x := rfl

/-- The result is what was written last. -/
@[simp] theorem result_withResult {n : Nat} (o : Operands (n + 1)) (v : Value) :
    (o.withResult v).result = v := by
  simp [result, withResult]

end Operands

/-- The text of a run of operands. -/
def Operands.text {n : Nat} (o : Operands n) : Except Violation String := do
  return Text.record "Operands" [("slots", ← Value.listText o.toList)]

end TieredVm
