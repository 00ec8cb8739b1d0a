import TieredVm.Double.Nearest

/-!
# Reading a decimal

A numeral is an optional sign followed by a word for an infinity or a NaN, in any letter case, or
by digits with an optional point and an optional exponent. At least one digit must stand before or
after the point, and an exponent needs a digit of its own. The value is rounded once.

Two limits keep long numerals cheap. An exponent that has reached 65536 takes no further digit, so
it stays below 655360 however it is written. Digits past the eight hundredth are only asked whether
they are all zero: no double, and no midpoint of two, needs that many.

`Decimal.read?` is `str::parse` at `f64`, which `TestRuntime::to_number` reads texts with.
-/

namespace TieredVm.Decimal

/-- An ASCII digit. -/
def isDigit (c : Char) : Bool := decide ('0' ≤ c) && decide (c ≤ '9')

/-- The number a run of digits stands for. -/
def ofDigits (ds : List Char) : Nat := ds.foldl (fun n c => 10 * n + (c.toNat - '0'.toNat)) 0

/-- An optional sign: is it negative, and what follows. -/
def readSign : List Char → Bool × List Char
  | '-' :: rest => (true, rest)
  | '+' :: rest => (false, rest)
  | cs => (false, cs)

/-- Where an exponent stops taking digits. -/
def exponentLimit : Nat := 0x10000

/-- The exponent a run of digits stands for. -/
def exponentOf (ds : List Char) : Nat :=
  ds.foldl (fun e c => if e < exponentLimit then 10 * e + (c.toNat - '0'.toNat) else e) 0

/-- The exponent part of a numeral, which must be all that is left. -/
def readExponent : List Char → Option Int
  | [] => some 0
  | c :: rest =>
    if c = 'e' ∨ c = 'E' then
      let (negative, ds) := readSign rest
      if ds ≠ [] ∧ ds.all isDigit then
        some (if negative then -(exponentOf ds : Int) else (exponentOf ds : Int))
      else none
    else none

/-- How many digits are told apart. -/
def digitLimit : Nat := 800

/-- The digits that matter, without the zeros in front, and how many were left off behind them.
Where one of those is not zero, a last digit `1` stands for them all. -/
def significant (ds : List Char) : List Char × Nat :=
  let ds := ds.dropWhile (· = '0')
  let (kept, rest) := ds.splitAt digitLimit
  if rest.all (· = '0') then (kept, rest.length) else (kept ++ ['1'], rest.length - 1)

/-- The double nearest to the number with the digits `ds`, the first of them not zero, times
`10 ^ e`. Exponents far outside the range of doubles are answered without computing the power. -/
def toDouble (negative : Bool) (ds : List Char) (e : Int) : Double :=
  let size : Int := ds.length + e
  let m := ofDigits ds
  if m = 0 then Double.zero negative
  else if 400 < size then Double.infinity negative
  else if size < -400 then Double.zero negative
  else if 0 ≤ e then Double.ofMagnitude negative (Double.nearestBits (m * Nat.pow 10 e.toNat) 1)
  else Double.ofMagnitude negative (Double.nearestBits m (Nat.pow 10 (-e).toNat))

/-- The digits, point and exponent of a numeral without its sign. -/
def readMagnitude (negative : Bool) (cs : List Char) : Option Double :=
  let whole := cs.takeWhile isDigit
  let rest := cs.dropWhile isDigit
  let (decimals, rest) := match rest with
    | '.' :: more => (more.takeWhile isDigit, more.dropWhile isDigit)
    | _ => ([], rest)
  if whole = [] ∧ decimals = [] then none
  else (readExponent rest).map fun e =>
    let (ds, dropped) := significant (whole ++ decimals)
    toDouble negative ds (e - decimals.length + dropped)

/-- The double a text is a numeral for. -/
def read? (text : List Char) : Option Double :=
  let (negative, body) := readSign text
  let word := body.map Char.toLower
  if word = "inf".toList ∨ word = "infinity".toList then some (Double.infinity negative)
  else if word = "nan".toList then some Double.nan
  else readMagnitude negative body

end TieredVm.Decimal
