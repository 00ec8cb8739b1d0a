import TieredVm.Decimal.Shortest

/-!
# Texts of doubles

Two layouts of the same shortest digits.

* `Double.plainText` never uses an exponent and writes an integral value without a point.
* `Double.exactText` marks every value as a double: an integral one keeps one decimal, and values
  from `10 ^ 16` up or below `10 ^ -4` are written with an exponent.

`plainText` is the `Display` of an `f64`, and `exactText` its `Debug`.
-/

namespace TieredVm

namespace Decimal

/-- Positional notation. -/
def positional (d : Decimal) : List Char :=
  if d.point ≤ 0 then '0' :: '.' :: (List.replicate (-d.point).toNat '0' ++ d.digits)
  else if d.digits.length ≤ d.point.toNat then
    d.digits ++ List.replicate (d.point.toNat - d.digits.length) '0'
  else d.digits.take d.point.toNat ++ '.' :: d.digits.drop d.point.toNat

/-- One digit before the point, and a power of ten. -/
def scientific (d : Decimal) : List Char :=
  let tail := d.digits.drop 1
  d.digits.take 1 ++ (if tail.isEmpty then [] else '.' :: tail) ++
    'e' :: (toString (d.point - 1)).toList

/-- Positional notation with at least one decimal, or an exponent outside `10 ^ -4` to
`10 ^ 16`. -/
def marked (d : Decimal) : List Char :=
  if d.point < -3 || 16 < d.point then d.scientific
  else if (d.digits.length : Int) ≤ d.point then d.positional ++ ['.', '0']
  else d.positional

end Decimal

namespace Double

/-- The text of a double, its digits laid out by `layout` and zero written as `zeroText`. -/
def textWith (layout : Decimal → List Char) (zeroText : String) (d : Double) : String :=
  match d.datum with
  | .nan => "NaN"
  | .infinity s => if s then "-inf" else "inf"
  | .finite s a =>
    let body := if a = 0 then zeroText else String.ofList (layout (Decimal.shortest d))
    if s then "-" ++ body else body

/-- Never an exponent, and no point in an integral value. -/
def plainText (d : Double) : String := textWith Decimal.positional "0" d

/-- Always recognisable as a double. -/
def exactText (d : Double) : String := textWith Decimal.marked "0.0" d

end Double

end TieredVm
