import TieredVm.Double.Basic

/-!
# The nearest double

Rounding of a rational to the nearest double, ties to the even significand. The grid of doubles
around a magnitude `n / d` has the step `2 ^ e`, where `e` keeps 53 significant bits above the
subnormal floor `-1074`. The quotient by that step is rounded to an integer once; the pattern is
then `(e + 1074) * 2 ^ 52` plus that integer, since a carry out of the significand is the next
exponent. A magnitude past the largest finite double gives the infinity.

The operations of `f64` round so, and so does reading one from a text.
-/

namespace TieredVm.Double

/-- Does `n / d` reach `2 ^ e`? -/
def reaches (n d : Nat) (e : Int) : Bool :=
  if 0 ≤ e then decide (d * Nat.pow 2 e.toNat ≤ n)
  else decide (d ≤ n * Nat.pow 2 (-e).toNat)

/-- The binary order of magnitude of `n / d`: the largest `e` with `2 ^ e ≤ n / d`. -/
def binade (n d : Nat) : Int :=
  let e : Int := (n.log2 : Int) - d.log2
  if reaches n d e then e else e - 1

/-- `n / d` to the nearest integer, a tie to the even one. -/
def roundHalfEven (n d : Nat) : Nat :=
  let q := n / d
  let r := n % d
  if 2 * r < d then q else if d < 2 * r then q + 1 else q + q % 2

/-- `n / d` in units of `2 ^ e`, to the nearest integer. -/
def inUnits (n d : Nat) (e : Int) : Nat :=
  if 0 ≤ e then roundHalfEven n (d * Nat.pow 2 e.toNat)
  else roundHalfEven (n * Nat.pow 2 (-e).toNat) d

/-- The 63 bits below the sign of the double nearest to `n / d`. -/
def nearestBits (n d : Nat) : Nat :=
  if n = 0 then 0
  else
    let e := max (binade n d - 52) (-1074)
    min ((e + 1074).toNat * hiddenBit + inUnits n d e) infinityBits

/-- The double of the given sign nearest to a magnitude. -/
def nearest (negative : Bool) (magnitude : Rat) : Double :=
  ofMagnitude negative (nearestBits magnitude.num.natAbs magnitude.den)

/-- The double nearest to a rational; zero is written without a sign. -/
def ofRat (q : Rat) : Double := nearest (decide (q < 0)) q

/-- The double nearest to an integer; exact up to `2 ^ 53` in magnitude. -/
def ofInt (n : Int) : Double := ofRat n

end TieredVm.Double
