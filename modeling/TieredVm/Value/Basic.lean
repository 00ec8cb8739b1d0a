import TieredVm.Double.Arith
import TieredVm.Text.Quoted
import TieredVm.Violation

/-!
# Tagged 64-bit values

A value is one 64-bit pattern. A double is stored as it is, with every NaN folded into one; any
other value puts 16 box bits above a 48-bit payload, in the space that the other NaNs leave free.

* Writing: `ofInt`, `ofBool`, `ofDouble`, `number`, `ofPointer` and the constants; `ofKind` covers
  them all.
* Reading: `tag` always answers. `kind` answers for every pattern but a reference to address zero.

Patterns come from compiled code as they are, so readers accept any 64 bits.

* `Value` keeps its name. `ofInt`, `ofBool`, `ofDouble`, `number`, `catchOffset` and `ofPointer` are
  `int`, `bool`, `float64`, `number`, `catch_offset` and `heap`; the constants are the associated
  ones, `exception` being `EXCEPTION`. `ofTagPayload` is `from_tag_payload`, and the structure
  itself is `from_bits` and `bits`.
* `asInt?`, `asBool?`, `asDouble?`, `asNumber?`, `asPointer?`, `small?`, `bothInt?` and
  `bothDouble?` are `as_int`, `as_bool`, `as_float`, `as_number`, `as_heap`, `small_payload`,
  `both_int` and `both_float`; `intPayload`, `boolPayload`, `doublePayload` and `pointerPayload` are
  the `payload_as_*`.
* `text` is the `Debug` of a value. `pointerAt` is `HeapPtr::new`, and `ofTagged` is `heap` under
  any tag.
-/

namespace TieredVm

/-- A tagged value. Equality is equality of patterns. -/
structure Value where
  bits : UInt64
deriving DecidableEq

namespace Value

/-! ## Writing -/

/-- The pattern with the given box bits above the given payload. -/
def boxed (box payload : Nat) : Value := ⟨UInt64.ofNat (box * 0x1000000000000 + payload)⟩

def ofInt (n : Int32) : Value := boxed 0x7ff9 n.toUInt32.toNat

def ofBool (b : Bool) : Value := boxed 0x7ffa b.toNat

def null : Value := boxed 0x7ffb 0

def undefined : Value := boxed 0x7ffc 0

def uninitialized : Value := boxed 0x7ffd 0

def catchOffset (n : Int32) : Value := boxed 0x7ffe n.toUInt32.toNat

/-- The error sentinel: what an operation answers when it failed. -/
def exception : Value := boxed 0x7fff 0

instance : Inhabited Value := ⟨undefined⟩

/-- A double, kept a double even when it is integral; every NaN becomes the same one. -/
def ofDouble (d : Double) : Value := if d.isNaN then ⟨Double.nan.bits⟩ else ⟨d.bits⟩

/-- Does an integer fit a signed 32-bit word? -/
def fitsInt32 (n : Int) : Bool := decide (-0x80000000 ≤ n) && decide (n < 0x80000000)

/-- A number, stored as an integer when it is one in range and not the negative zero. -/
def number (d : Double) : Value :=
  if d.isInt32 then ofInt (Int32.ofInt (d.clamped (-0x80000000) 0x7fffffff)) else ofDouble d

/-- A reference. -/
def ofPointer (tag : HeapTag) (p : Pointer) : Value := boxed tag.box p.addr

/-- The value with a given decoding. -/
def ofKind : Kind → Value
  | .int n => ofInt n
  | .bool b => ofBool b
  | .null => null
  | .undefined => undefined
  | .uninitialized => uninitialized
  | .catchOffset n => catchOffset n
  | .exception => exception
  | .float64 d => ofDouble d
  | .heap t p => ofPointer t p

/-! ## Fields of a pattern -/

/-- The box bits. -/
def box (v : Value) : Nat := v.bits.toNat / 0x1000000000000

/-- The 48 payload bits. -/
def payload (v : Value) : Nat := v.bits.toNat % 0x1000000000000

/-- The low 32 bits. -/
def low (v : Value) : Nat := v.bits.toNat % 0x100000000

/-- The low 32 bits as a signed integer. -/
def lowInt (v : Value) : Int32 := (UInt32.ofNat v.low).toInt32

/-- The whole pattern as a double. -/
def double (v : Value) : Double := ⟨v.bits⟩

/-! ## Reading -/

/-- The tag of a pattern. -/
def tag (v : Value) : Tag := Tag.ofBox v.box

/-- The decoding of a pattern. Only a reference to address zero has none. -/
def kind (v : Value) : Except Violation Kind :=
  match v.tag with
  | .int => .ok (.int v.lowInt)
  | .bool => .ok (.bool (v.low != 0))
  | .null => .ok .null
  | .undefined => .ok .undefined
  | .uninitialized => .ok .uninitialized
  | .catchOffset => .ok (.catchOffset v.lowInt)
  | .exception => .ok .exception
  | .float64 => .ok (.float64 v.double)
  | .heap t =>
    match Pointer.ofAddr? v.payload with
    | some p => .ok (.heap t p)
    | none => .error (.nullPointer t)

/-- The text of a value in messages and events. -/
def text (v : Value) : Except Violation String := Kind.text <$> v.kind

/-- The texts of several values, in order. -/
def listText (vs : List Value) : Except Violation String := Text.bracketed <$> vs.mapM text

def asInt? (v : Value) : Option Int32 :=
  if v.tag = .int then some v.lowInt else none

def asBool? (v : Value) : Option Bool :=
  if v.tag = .bool then some (v.low != 0) else none

def asDouble? (v : Value) : Option Double :=
  if v.tag = .float64 then some v.double else none

/-- The numeric value of an integer or a double. -/
def asNumber? (v : Value) : Except Violation (Option Double) := do
  match ← v.kind with
  | .int n => return some (Double.ofInt32 n)
  | .float64 d => return some d
  | _ => return none

/-- The pointer of a reference with the given tag. -/
def asPointer? (t : Tag) (v : Value) : Except Violation (Option Pointer) := do
  match ← v.kind with
  | .heap u p => return if t = .heap u then some p else none
  | _ => return none

/-- The payload of a small value, from which its truth is read. -/
def small? (v : Value) : Option Int32 :=
  if v.tag.isSmall then some v.lowInt else none

/-- Is this the error sentinel? -/
def isException (v : Value) : Bool := v == exception

/-- Is this a reference? -/
def isHeap (v : Value) : Bool := v.tag.isHeap

/-- The two integers, if both operands are integers. -/
def bothInt? (a b : Value) : Option (Int32 × Int32) := do
  let x ← a.asInt?
  let y ← b.asInt?
  return (x, y)

/-- The two doubles, if both operands are doubles. -/
def bothDouble? (a b : Value) : Option (Double × Double) := do
  let x ← a.asDouble?
  let y ← b.asDouble?
  return (x, y)

/-! ## Reading behind a guard

The caller has checked the tag; another tag means the check was skipped. -/

def intPayload (v : Value) : Except Violation Int32 :=
  v.asInt?.elim (.error (.wrongPayload .int v.tag)) .ok

def boolPayload (v : Value) : Except Violation Bool :=
  v.asBool?.elim (.error (.wrongPayload .bool v.tag)) .ok

def doublePayload (v : Value) : Except Violation Double :=
  v.asDouble?.elim (.error (.wrongPayload .float64 v.tag)) .ok

def pointerPayload (v : Value) : Except Violation Pointer := do
  match ← v.kind with
  | .heap _ p => return p
  | _ => throw (.wrongPayload (.heap .object) v.tag)

/-! ## Rebuilding -/

/-- The pointer at an address; `none` at zero. -/
def pointerAt (a : Nat) : Except Violation (Option Pointer) :=
  if a = 0 then .ok none
  else match Pointer.ofAddr? a with
    | some p => .ok (some p)
    | none => .error (.wideAddress a)

/-- A reference under a tag that should mark one. -/
def ofTagged (t : Tag) (p : Pointer) : Except Violation Value :=
  match t with
  | .heap h => .ok (ofPointer h p)
  | _ => .error (.notPointerTag t)

/-- The value with the given tag and raw payload. A double takes the whole word, any other value
the part of it that its tag gives a meaning to. -/
def ofTagPayload (t : Tag) (word : UInt64) : Except Violation Value :=
  let v : Value := ⟨word⟩
  match t with
  | .float64 => .ok (ofDouble v.double)
  | .int => .ok (ofInt v.lowInt)
  | .bool => .ok (ofBool (v.low != 0))
  | .catchOffset => .ok (catchOffset v.lowInt)
  | .null => .ok null
  | .undefined => .ok undefined
  | .uninitialized => .ok uninitialized
  | .exception => .ok exception
  | .heap h =>
    match Pointer.ofAddr? v.payload with
    | some p => .ok (ofPointer h p)
    | none => .error (.nullPayload h)

end Value

end TieredVm
