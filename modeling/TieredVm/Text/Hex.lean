/-!
# Hexadecimal numerals

Lower-case hexadecimal text of natural numbers, bare or padded to a fixed number of digits.

`address` is how a pointer is printed.
-/

namespace TieredVm.Text

/-- The lower-case hexadecimal digits of a number, without leading zeros. -/
def hex (n : Nat) : String := String.ofList (Nat.toDigits 16 n)

/-- At least `width` hexadecimal digits, filled up with zeros on the left. -/
def hexPadded (width n : Nat) : String :=
  let digits := Nat.toDigits 16 n
  String.ofList (List.replicate (width - digits.length) '0' ++ digits)

/-- An address: `0x` and its hexadecimal digits. -/
def address (n : Nat) : String := "0x" ++ hex n

end TieredVm.Text
