/-!
# Doubles

A double is a 64-bit pattern. Its datum is what the pattern stands for under the binary64 format:
a sign bit, an 11-bit biased exponent and a 52-bit fraction.

* `Double.datum` reads a pattern: a NaN, an infinity, or a signed exact rational magnitude. The
  sign is kept beside the magnitude, so the two zeros stay apart.
* `Double.ofMagnitude` writes a pattern from a sign and the 63 bits below it.

Arithmetic is defined on data, not on patterns, so every law about it is a law about rationals.

`Double` is `f64` under `from_bits` and `to_bits`.
-/

namespace TieredVm

/-- A binary64 number, held as its 64-bit pattern. -/
structure Double where
  /-- The pattern: sign, biased exponent, fraction, from the top bit down. -/
  bits : UInt64
deriving DecidableEq

namespace Double

/-- What a pattern stands for. The magnitude of a finite datum is never negative. -/
inductive Datum where
  | nan
  | infinity (negative : Bool)
  | finite (negative : Bool) (magnitude : Rat)
deriving DecidableEq

/-! ## Fields of a pattern -/

/-- The sign bit of a pattern, `2 ^ 63`. -/
def signBit : Nat := 0x8000000000000000

/-- The bit above the fraction, `2 ^ 52`. A normal number's significand has it, its pattern does
not. -/
def hiddenBit : Nat := 0x10000000000000

/-- The 63 low bits of the infinities: the largest exponent above an empty fraction. -/
def infinityBits : Nat := 0x7ff0000000000000

/-- Is the sign bit set? -/
def negative (d : Double) : Bool := decide (signBit ≤ d.bits.toNat)

/-- The biased exponent, between `0` and `2047`. -/
def exponentField (d : Double) : Nat := d.bits.toNat / hiddenBit % 2048

/-- The 52 fraction bits. -/
def fraction (d : Double) : Nat := d.bits.toNat % hiddenBit

/-- The integral significand: the fraction, with the hidden bit added to a normal number. -/
def significand (d : Double) : Nat :=
  if d.exponentField = 0 then d.fraction else d.fraction + hiddenBit

/-- The power of two that one unit of the significand counts for. -/
def scale (d : Double) : Int := (max d.exponentField 1 : Nat) - 1075

/-- The rational `m * 2 ^ e`. -/
def scaled (m : Nat) (e : Int) : Rat :=
  if 0 ≤ e then ((m * Nat.pow 2 e.toNat : Nat) : Rat)
  else (m : Rat) / (Nat.pow 2 (-e).toNat : Rat)

/-- The exact magnitude of a finite pattern. -/
def magnitude (d : Double) : Rat := scaled d.significand d.scale

/-- The pattern is one of the NaNs. -/
def isNaN (d : Double) : Bool := d.exponentField == 2047 && d.fraction != 0

/-- Neither an infinity nor a NaN. -/
def isFinite (d : Double) : Bool := d.exponentField != 2047

/-- The datum of a pattern. -/
def datum (d : Double) : Datum :=
  if d.exponentField = 2047 then
    if d.fraction = 0 then .infinity d.negative else .nan
  else .finite d.negative d.magnitude

/-! ## Writing patterns -/

/-- The pattern with the given sign bit above the given 63 bits. -/
def ofMagnitude (negative : Bool) (low : Nat) : Double :=
  ⟨UInt64.ofNat ((if negative then signBit else 0) + low)⟩

/-- The NaN every NaN is written as. -/
def nan : Double := ofMagnitude false 0x7ff8000000000000

/-- The infinity of the given sign. -/
def infinity (negative : Bool) : Double := ofMagnitude negative infinityBits

/-- The zero of the given sign. -/
def zero (negative : Bool) : Double := ofMagnitude negative 0

/-- Sign and magnitude as one rational; both zeros give `0`. -/
def signed (negative : Bool) (magnitude : Rat) : Rat := if negative then -magnitude else magnitude

end Double

end TieredVm
