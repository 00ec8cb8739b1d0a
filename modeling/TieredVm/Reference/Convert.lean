import TieredVm.Decimal.Reading
import TieredVm.Reference.Heap
import TieredVm.Text.Blank

/-!
# Conversions

How the reference interpreter turns values into numbers, 32-bit integers, texts and truths, and
when it takes two values for equal. Only symbols refuse to become numbers. A reference to nothing
has no conversion at all; meeting one is a violation.

These are methods of `TestRuntime`: `toNumber`, `toInt32`, `toText`, `toTruth`, `strictEqual` and
`looseEqual` are `to_number`, `to_int32`, `to_display`, `truthy`, `strict_equals` and
`loose_equals`. `toCategory` is the match in `typeof_kind`.
-/

namespace TieredVm.Reference

/-- A conversion may meet a reference to nothing, and it may refuse. -/
abbrev Converted := ExceptT Exception (Except Violation)

/-- The number a text is a numeral for: blanks around it do not count, nothing at all is zero, and
anything else that is no numeral is no number. -/
def numberOfText (t : String) : Double :=
  let trimmed := Text.trimmed t.toList
  if trimmed = [] then Double.zero false else (Decimal.read? trimmed).getD Double.nan

namespace State

variable (s : State)

/-- The number a value converts to. -/
def toNumber (v : Value) : Converted Double := do
  match ← v.kind with
  | .int n => return Double.ofInt32 n
  | .float64 d => return d
  | .bool b => return Double.ofInt b.toNat
  | .null => return Double.zero false
  | .heap .string _ => return numberOfText ((← s.textOf? v).getD "")
  | .heap .symbol _ => throw (.typeError "cannot convert a Symbol to a number")
  | _ => return Double.nan

/-- The 32-bit integer a value converts to. -/
def toInt32 (v : Value) : Converted Int32 := return (← s.toNumber v).toInt32

/-- The text a value converts to. -/
def toText (v : Value) : Except Violation String := do
  match ← v.kind with
  | .int n => return toString n.toInt
  | .float64 d => return d.plainText
  | .bool b => return toString b
  | .null => return "null"
  | .undefined => return "undefined"
  | .heap .string _ => return (← s.textOf? v).getD ""
  | _ => return "[object Object]"

/-- The truth of a value. -/
def toTruth (v : Value) : Except Violation Bool := do
  match ← v.kind with
  | .int n => return n != 0
  | .bool b => return b
  | .float64 d => return !d.isNaN && !d.numEq (Double.zero false)
  | .null | .undefined => return false
  | .heap .string _ => return (← s.textOf? v).getD "" != ""
  | _ => return true

/-- The category of a value. -/
def toCategory (v : Value) : Except Violation Category := do
  match ← v.kind with
  | .int _ | .float64 _ => return .number
  | .bool _ => return .boolean
  | .undefined => return .undefined
  | .heap .string _ => return .string
  | .heap .symbol _ => return .symbol
  | .heap .bigInt _ => return .bigint
  | .heap .object p => return if s.isFunction p then .function else .object
  | _ => return .object

/-! ## Equality -/

/-- Equality without conversions: numbers by value, texts by content, all else by identity. -/
def strictEqual (a b : Value) : Except Violation Bool := do
  match ← a.asNumber?, ← b.asNumber? with
  | some x, some y => return x.numEq y
  | _, _ =>
    match ← s.textOf? a with
    | none => return a == b
    | some x =>
      match ← s.textOf? b with
      | some y => return x == y
      | none => return a == b

/-- Is the value one of the two that stand for nothing? -/
def isNothing (v : Value) : Except Violation Bool := do
  match ← v.kind with
  | .null | .undefined => return true
  | _ => return false

/-- Do two values need no conversion to be compared? -/
def comparable (a b : Value) : Except Violation Bool := do
  if a.tag = b.tag then return true
  return (← a.asNumber?).isSome && (← b.asNumber?).isSome

/-- Equality with conversions. The two values that stand for nothing equal each other only, and an
object equals nothing of another tag. -/
def looseEqual (a b : Value) : Converted Bool := do
  let nothingLeft ← isNothing a
  let nothingRight ← isNothing b
  if nothingLeft || nothingRight then return nothingLeft && nothingRight
  if ← comparable a b then return ← s.strictEqual a b
  if a.tag = .heap .object ∨ b.tag = .heap .object then return false
  let x ← s.toNumber a
  let y ← s.toNumber b
  return x.numEq y

end State

end TieredVm.Reference
