/-!
# Value tags

Every value carries one of thirteen tags. Five of them mark a reference to a heap cell; four more
are *small*: their payload is itself a truth value. Tags have a name, the interpreter's number,
and, doubles apart, the 16 box bits that announce them at the top of a pattern.

`Tag` keeps its name, with the references under one constructor. `number` is `raw`, `ofNumber?` is
`from_raw`, `isHeap` and `isSmall` are `is_heap` and `is_small`, `HeapTag.box` is `box_bits`, and
`ofBox` is the match on the `BOX_*` constants in `Value::tag`.
-/

namespace TieredVm

/-- What kind of heap cell a reference points at. -/
inductive HeapTag where
  | bigInt | symbol | string | functionBytecode | object
deriving DecidableEq, Repr

/-- The tag of a value. -/
inductive Tag where
  /-- A reference to a heap cell. -/
  | heap (cell : HeapTag)
  | int | bool | null | undefined
  /-- A binding that has not been initialised. -/
  | uninitialized
  /-- Where an exception handler starts. -/
  | catchOffset
  /-- The error sentinel. -/
  | exception
  | float64
deriving DecidableEq, Repr

namespace HeapTag

def name : HeapTag → String
  | bigInt => "BigInt"
  | symbol => "Symbol"
  | string => "String"
  | functionBytecode => "FunctionBytecode"
  | object => "Object"

/-- The box bits of a reference. -/
def box : HeapTag → Nat
  | object => 0xfff9
  | functionBytecode => 0xfffa
  | string => 0xfffb
  | symbol => 0xfffc
  | bigInt => 0xfffd

end HeapTag

namespace Tag

def name : Tag → String
  | heap t => t.name
  | int => "Int"
  | bool => "Bool"
  | null => "Null"
  | undefined => "Undefined"
  | uninitialized => "Uninitialized"
  | catchOffset => "CatchOffset"
  | exception => "Exception"
  | float64 => "Float64"

/-- The interpreter's number of a tag; references are the negative ones. -/
def number : Tag → Int
  | heap .bigInt => -10
  | heap .symbol => -8
  | heap .string => -7
  | heap .functionBytecode => -2
  | heap .object => -1
  | int => 0
  | bool => 1
  | null => 2
  | undefined => 3
  | uninitialized => 4
  | catchOffset => 5
  | exception => 6
  | float64 => 7

/-- All tags, by increasing number. -/
def all : List Tag :=
  [heap .bigInt, heap .symbol, heap .string, heap .functionBytecode, heap .object, int, bool,
    null, undefined, uninitialized, catchOffset, exception, float64]

/-- The tag with the given number. -/
def ofNumber? (n : Int) : Option Tag := all.find? fun t => t.number == n

/-- The tag with the given name. -/
def ofName? (s : String) : Option Tag := all.find? fun t => t.name == s

def isHeap : Tag → Bool
  | heap _ => true
  | _ => false

/-- Is the payload a truth value? -/
def isSmall : Tag → Bool
  | int | bool | null | undefined => true
  | _ => false

/-- The tag that the top 16 bits of a pattern announce. Patterns that announce no other are
doubles. -/
def ofBox (b : Nat) : Tag :=
  if b = 0x7ff9 then int
  else if b = 0x7ffa then bool
  else if b = 0x7ffb then null
  else if b = 0x7ffc then undefined
  else if b = 0x7ffd then uninitialized
  else if b = 0x7ffe then catchOffset
  else if b = 0x7fff then exception
  else if b = 0xfff9 then heap .object
  else if b = 0xfffa then heap .functionBytecode
  else if b = 0xfffb then heap .string
  else if b = 0xfffc then heap .symbol
  else if b = 0xfffd then heap .bigInt
  else float64

theorem mem_all (t : Tag) : t ∈ all := by
  cases t with
  | heap h => cases h <;> simp [all]
  | _ => simp [all]

/-- A tag is found again by its number. -/
theorem ofNumber?_number (t : Tag) : ofNumber? t.number = some t := by
  cases t with
  | heap h => cases h <;> rfl
  | _ => rfl

/-- The references are the tags with a negative number. -/
theorem isHeap_iff (t : Tag) : t.isHeap = true ↔ t.number < 0 := by
  cases t with
  | heap h => cases h <;> decide
  | _ => decide

/-- The box bits of a reference announce its tag. -/
theorem ofBox_box (h : HeapTag) : ofBox h.box = heap h := by cases h <;> rfl

end Tag

end TieredVm
