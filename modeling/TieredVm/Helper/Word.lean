import TieredVm.Machine.Basic
import TieredVm.Violation

/-!
# Words

Generated code passes every argument as a signed 64-bit word and gets one word back. Values travel
as their patterns, frames and buffers as their addresses, counts and offsets as integers, which are
checked before anything else happens.

* `Word.toValue` and `Word.ofValue` are the helper functions `value` and `bits`. Both reinterpret a
  word, and lose nothing.
* `Word.toLength` is `length`, and `Word.toPc` is `pc_offset`.
-/

namespace TieredVm

/-- What generated code passes and gets back. -/
abbrev Word := Int64

namespace Word

/-- The value a word is the pattern of. -/
def toValue (w : Word) : Value := ⟨w.toUInt64⟩

/-- The pattern of a value as a word. -/
def ofValue (v : Value) : Word := v.bits.toInt64

/-- The address a word holds. -/
def toAddress (w : Word) : Address := w.toUInt64.toNat

/-- The word that holds an address. -/
def ofAddress (a : Address) : Word := (UInt64.ofNat a).toInt64

/-- The frame a word points at; zero is no frame. -/
def toFrame? (w : Word) : Option FrameId := if w = 0 then none else some w.toAddress

/-- A count or an index, which must not be negative. -/
def toLength (use : LengthUse) (w : Word) : Except Violation Nat :=
  if 0 ≤ w.toInt then .ok w.toInt.toNat else .error (.negativeLength use w.toInt)

/-- An offset into code: an unsigned 32-bit number. -/
def toPc (w : Word) : Except Violation Nat :=
  if 0 ≤ w.toInt ∧ w.toInt < 0x100000000 then .ok w.toInt.toNat else .error (.badPc w.toInt)

/-- Patterns pass through words unchanged. -/
@[simp] theorem toValue_ofValue (v : Value) : (ofValue v).toValue = v := by
  simp [ofValue, toValue]

@[simp] theorem ofValue_toValue (w : Word) : ofValue w.toValue = w := by
  simp [ofValue, toValue]

end Word

/-- The words a routine is called with, the context apart. -/
abbrev Words (n : Nat) := Vector Word n

namespace Words

/-- The word at a place. Past the last one, where no routine reads, words are zero. -/
def word {n : Nat} (a : Words n) (i : Nat) : Word := a[i]?.getD 0

/-- The word at a place, read as the pattern of a value. -/
def value {n : Nat} (a : Words n) (i : Nat) : Value := (a.word i).toValue

end Words

end TieredVm
