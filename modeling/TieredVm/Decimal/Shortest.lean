import TieredVm.Double.Nearest

/-!
# The shortest decimal of a double

The decimals that read back as a given double are those in its rounding interval: halfway to each
neighbour, the ends included when the significand is even. `shortest` takes the coarsest decimal
grid, from one digit up, with a point in that interval. Only the two grid points around the value
can be in it first; of two hits the nearer wins, and a tie goes up. Seventeen digits always do.

Everything is exact rational arithmetic.

These are the digits that both formats of an `f64` print.
-/

namespace TieredVm

/-- Decimal digits with the place of the point: the value is `0.d₁d₂… * 10 ^ point`. -/
structure Decimal where
  /-- The digits, most significant first, the last one not a zero. -/
  digits : List Char
  /-- How many digits stand before the point. -/
  point : Int
deriving DecidableEq

namespace Decimal

/-- The rational `10 ^ k`. -/
def powTen (k : Int) : Rat :=
  if 0 ≤ k then (Nat.pow 10 k.toNat : Rat) else 1 / (Nat.pow 10 (-k).toNat : Rat)

/-- The interval of rationals that round to a double. -/
structure Interval where
  lower : Rat
  upper : Rat
  /-- Do the ends belong to it? -/
  closed : Bool

/-- Membership in a rounding interval. -/
def Interval.contains (i : Interval) (q : Rat) : Bool :=
  if i.closed then decide (i.lower ≤ q) && decide (q ≤ i.upper)
  else decide (i.lower < q) && decide (q < i.upper)

/-- The rounding interval of a finite magnitude. Below a power of two the grid is twice as fine,
unless the numbers below are subnormal. -/
def intervalOf (d : Double) : Interval :=
  let m := d.significand
  let e := d.scale
  let v := Double.scaled m e
  let finer := m = Double.hiddenBit ∧ 1 < d.exponentField
  let below := if finer then Double.scaled 1 (e - 2) else Double.scaled 1 (e - 1)
  { lower := v - below, upper := v + Double.scaled 1 (e - 1), closed := m % 2 == 0 }

/-- How many digits stand before the point of a positive rational: the least `p` with
`v < 10 ^ p`. The binary order of magnitude gives it up to two steps. -/
def decade (v : Rat) : Int :=
  let t := (Double.binade v.num.natAbs v.den * 30103).fdiv 100000
  if v < powTen t then t else if v < powTen (t + 1) then t + 1 else t + 2

/-- The point of the grid with step `10 ^ k` that reads back, if there is one. -/
def gridPoint? (i : Interval) (v : Rat) (k : Int) : Option Nat :=
  let unit := powTen k
  let f := (v / unit).floor.toNat
  let low := (f : Rat) * unit
  let high := ((f + 1 : Nat) : Rat) * unit
  if i.contains low then
    if i.contains high then some (if v - low < high - v then f else f + 1) else some f
  else if i.contains high then some (f + 1) else none

/-- The grid point with the fewest digits, with the exponent of its grid. -/
def search (i : Interval) (v : Rat) (p : Int) : List Nat → Nat × Int
  | [] => ((v / powTen (p - 17)).floor.toNat, p - 17)
  | n :: rest =>
    match gridPoint? i v (p - n) with
    | some f => (f, p - n)
    | none => search i v p rest

/-- The digits of `f * 10 ^ k`, trailing zeros dropped. -/
def ofGrid (f : Nat) (k : Int) : Decimal :=
  let s := Nat.toDigits 10 f
  { digits := (s.reverse.dropWhile (· == '0')).reverse, point := s.length + k }

/-- The shortest decimal that reads back as a finite magnitude other than zero. -/
def shortest (d : Double) : Decimal :=
  let v := d.magnitude
  let (f, k) := search (intervalOf d) v (decade v) ((List.range 17).map (· + 1))
  ofGrid f k

end Decimal

end TieredVm
