import TieredVm.Double.Nearest

/-!
# Arithmetic on doubles

Every operation is the exact rational result rounded once, with the signs of zeros, the infinities
and the NaNs of the binary64 rules around it. `compare?` is the numeric order, undefined on a NaN.
`toInt32` and `isInt32` are computed from these operations, as the machine computes them. `power` alone
is left to the machine: nothing here depends on which function it is.

* `neg`, `add`, `sub`, `mul`, `div`, `rem` and `power` are the operators of `f64` and its `powf`;
  `trunc`, `fract`, `abs` and `remEuclid` are its methods, and `ofInt32` is `f64::from`.
* `clamped` is a conversion `as` to an integer type, which saturates.
* `toInt32` is `TestRuntime::to_int32` after the conversion to a number. `isInt32` is the test of
  `Value::number`.
-/

namespace TieredVm.Double

/-- The sign bit flipped. -/
def neg (x : Double) : Double := ofMagnitude (!x.negative) (x.bits.toNat % signBit)

/-- `x + y`. A zero sum is negative only when both operands are. -/
def add (x y : Double) : Double :=
  match x.datum, y.datum with
  | .nan, _ | _, .nan => nan
  | .infinity s, .infinity t => if s = t then infinity s else nan
  | .infinity s, .finite _ _ => infinity s
  | .finite _ _, .infinity t => infinity t
  | .finite s a, .finite t b =>
    let sum := signed s a + signed t b
    if sum = 0 then zero (s && t) else ofRat sum

/-- `x - y`. -/
def sub (x y : Double) : Double := add x (neg y)

/-- `x * y`. -/
def mul (x y : Double) : Double :=
  match x.datum, y.datum with
  | .nan, _ | _, .nan => nan
  | .infinity s, .infinity t => infinity (s != t)
  | .infinity s, .finite t b => if b = 0 then nan else infinity (s != t)
  | .finite s a, .infinity t => if a = 0 then nan else infinity (s != t)
  | .finite s a, .finite t b => nearest (s != t) (a * b)

/-- `x / y`. -/
def div (x y : Double) : Double :=
  match x.datum, y.datum with
  | .nan, _ | _, .nan => nan
  | .infinity _, .infinity _ => nan
  | .infinity s, .finite t _ => infinity (s != t)
  | .finite s _, .infinity t => zero (s != t)
  | .finite s a, .finite t b =>
    if b = 0 then if a = 0 then nan else infinity (s != t)
    else nearest (s != t) (a / b)

/-- The remainder of truncating division; it has the sign of the dividend. -/
def rem (x y : Double) : Double :=
  match x.datum, y.datum with
  | .nan, _ | _, .nan => nan
  | .infinity _, _ => nan
  | .finite _ _, .infinity _ => x
  | .finite s a, .finite _ b =>
    if b = 0 then nan else nearest s (a - b * ((a / b).floor : Int))

/-- `x` to the power `y`, as the machine computes it. -/
def power (x y : Double) : Double :=
  ⟨(Float.pow (Float.ofBits x.bits) (Float.ofBits y.bits)).toBits⟩

/-! ## Order -/

/-- The numeric order of two rationals. -/
def orderOf (a b : Rat) : Ordering := if a < b then .lt else if a = b then .eq else .gt

/-- The numeric order; `none` as soon as one side is a NaN. -/
def compare? (x y : Double) : Option Ordering :=
  match x.datum, y.datum with
  | .nan, _ | _, .nan => none
  | .infinity s, .infinity t => some (if s = t then .eq else if s then .lt else .gt)
  | .infinity s, .finite _ _ => some (if s then .lt else .gt)
  | .finite _ _, .infinity t => some (if t then .gt else .lt)
  | .finite s a, .finite t b => some (orderOf (signed s a) (signed t b))

/-- Numeric equality: zeros are equal, a NaN equals nothing. -/
def numEq (x y : Double) : Bool := x.compare? y == some .eq

/-- Numeric order, strict; false as soon as one side is a NaN. -/
def lt (x y : Double) : Bool := x.compare? y == some .lt

/-- Numeric order; false as soon as one side is a NaN. -/
def le (x y : Double) : Bool := x.lt y || x.numEq y

/-! ## Integers -/

/-- The double equal to a 32-bit integer. -/
def ofInt32 (n : Int32) : Double := ofInt n.toInt

/-- The sign bit cleared. -/
def abs (x : Double) : Double := ofMagnitude false (x.bits.toNat % signBit)

/-- The integral part, toward zero, under the sign of the number. -/
def trunc (x : Double) : Double :=
  match x.datum with
  | .finite s a => nearest s (a.floor : Int)
  | _ => x

/-- What truncation cuts off. -/
def fract (x : Double) : Double := x.sub x.trunc

/-- The remainder that is not negative: `rem`, and one divisor more where that is below zero. -/
def remEuclid (x y : Double) : Double :=
  let r := x.rem y
  if r.lt (zero false) then r.add y.abs else r

/-- The cast to the integers between two bounds: truncated toward zero, and held at the bound that it
passes. A NaN casts to zero. -/
def clamped (d : Double) (lo hi : Int) : Int :=
  match d.datum with
  | .nan => 0
  | .infinity s => if s then lo else hi
  | .finite s a => max lo (min hi (if s then -a.floor else a.floor))

/-- Truncation modulo `2 ^ 32`, read as a signed word; `0` for the infinities and NaNs. -/
def toInt32 (d : Double) : Int32 :=
  if d.isFinite then
    let residue := d.trunc.remEuclid (ofInt 0x100000000)
    (UInt32.ofNat (residue.clamped 0 0xffffffff).toNat).toInt32
  else 0

/-- Does a 32-bit integer stand for the number? It has no fraction, is in range, and is not the
negative zero. -/
def isInt32 (d : Double) : Bool :=
  d.fract.numEq (zero false) && (ofInt (-0x80000000)).le d && d.le (ofInt 0x7fffffff)
    && (!d.numEq (zero false) || !d.negative)

end TieredVm.Double
