import TieredVm.Text.Hex
import TieredVm.Text.Unprintable

/-!
# Quoted text and records

A quoted text stands between double quotes. The quote and the backslash are written after a
backslash; so are tab, line feed, carriage return and the null character, each by its letter.
Characters that have no shape of their own are written by number. Records, lists and optional
values are laid out around such texts.

`quoted` is the `Debug` of a `str`, `quotedChar` its escape of one character; `bracketed`, `record`
and `optional` are the `Debug` of a list, of a structure and of an `Option`.
-/

namespace TieredVm.Text

/-- How one character is written between double quotes. -/
def quotedChar (c : Char) : List Char :=
  if c = '\x00' then ['\\', '0']
  else if c = '\t' then ['\\', 't']
  else if c = '\r' then ['\\', 'r']
  else if c = '\n' then ['\\', 'n']
  else if c = '"' then ['\\', '"']
  else if c = '\\' then ['\\', '\\']
  else if isUnprintable c then ['\\', 'u', '\x7b'] ++ Nat.toDigits 16 c.toNat ++ ['\x7d']
  else [c]

/-- The text between double quotes. -/
def quoted (s : String) : String :=
  String.ofList ('"' :: s.toList.flatMap quotedChar ++ ['"'])

/-- Items between brackets. -/
def bracketed (items : List String) : String := "[" ++ ", ".intercalate items ++ "]"

/-- A named record with its fields in order. -/
def record (name : String) (fields : List (String × String)) : String :=
  name ++ " \x7b " ++ ", ".intercalate (fields.map fun f => f.1 ++ ": " ++ f.2) ++ " \x7d"

/-- An optional text. -/
def optional : Option String → String
  | none => "None"
  | some s => "Some(" ++ s ++ ")"

end TieredVm.Text
