import TieredVm.Decimal.Layout
import TieredVm.Text.Hex
import TieredVm.Value.Tag

/-!
# Decoded values

`Kind` is a value taken apart: its tag together with the payload that the tag gives a meaning to.
A reference holds a `Pointer`, an address that fits the 48 payload bits and is not null, so a kind
never stands for a reference to nothing.

`Kind` is `ValueKind`, `Pointer` is `HeapPtr`, and `Kind.text` is how the `Debug` of `Value` prints
a kind.
-/

namespace TieredVm

/-- The address of a heap cell: not null, and within 48 bits. -/
structure Pointer where
  addr : Nat
  pos : 0 < addr
  fits : addr < 0x1000000000000
deriving DecidableEq

namespace Pointer

/-- The pointer at an address that can be one. -/
def ofAddr? (a : Nat) : Option Pointer :=
  if h : 0 < a ∧ a < 0x1000000000000 then some ⟨a, h.1, h.2⟩ else none

theorem ofAddr?_addr (p : Pointer) : ofAddr? p.addr = some p := dif_pos ⟨p.pos, p.fits⟩

end Pointer

/-- A value by tag and payload. -/
inductive Kind where
  | int (n : Int32)
  | bool (b : Bool)
  | null
  | undefined
  | uninitialized
  | catchOffset (n : Int32)
  | exception
  | float64 (d : Double)
  | heap (tag : HeapTag) (p : Pointer)
deriving DecidableEq

namespace Kind

/-- The tag of a decoded value. -/
def tag : Kind → Tag
  | int _ => .int
  | bool _ => .bool
  | null => .null
  | undefined => .undefined
  | uninitialized => .uninitialized
  | catchOffset _ => .catchOffset
  | exception => .exception
  | float64 _ => .float64
  | heap t _ => .heap t

/-- The text of a decoded value in messages and events. -/
def text : Kind → String
  | int n => s!"Int({n.toInt})"
  | bool b => s!"Bool({b})"
  | null => "Null"
  | undefined => "Undefined"
  | uninitialized => "Uninitialized"
  | catchOffset n => s!"CatchOffset({n.toInt})"
  | exception => "Exception"
  | float64 d => s!"Float64({d.exactText})"
  | heap t p => s!"{t.name}({Text.address p.addr})"

end Kind

end TieredVm
