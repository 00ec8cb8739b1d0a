import TieredVm.Interpreter.Functions

/-!
# The reference interpreter's state

A small heap of texts, objects and functions, together with what the interpreter keeps track of:
the entries it was called through, the values it released and duplicated, and the stack traces it
took inside the calls it made. Cells are never released, so a reference stays good.

Cells lie sixteen bytes apart from a fixed address on. A reference finds its cell by address alone.

`State` is `TestRuntime`: a `Cell` is a `HeapObject`, `cellAt?` is `lookup`, `allocate` is `alloc`,
and `newText`, `newSymbol`, `newObject` and `newFunction` are `string`, `symbol`, `object` and
`function`. `textOf?` is `str_of`. `objectModel` is its `ObjectModel`, and `release` its
`free_value`. Its fields `heap`, `atoms`, `freed` and `dups` are `cells`, `categoryTexts`,
`released` and `duplicated`.
-/

namespace TieredVm.Reference

/-- What a heap cell holds. -/
inductive Cell where
  /-- A text; symbols are cells of this kind too. -/
  | text (s : String)
  | object (keys : List String) (constructor : Option Value)
  | function (code : Bytecode) (captured : List Capture)
deriving DecidableEq

/-- The interpreter's state. -/
structure State where
  cells : Array Cell := #[]
  /-- The text that stands for a category, once it has been asked for. -/
  categoryTexts : Category → Option Value := fun _ => none
  /-- The names of the entries called, in order. -/
  calls : List String := []
  /-- The values released, in order. -/
  released : List Value := []
  /-- The values duplicated, in order. -/
  duplicated : List Value := []
  /-- What the next operator entry fails with. -/
  failNext : Option Exception := none
  /-- The stack traces taken, in order. -/
  traces : List (List String) := []

/-- Where the first cell lies. -/
def heapBase : Nat := 0x7e57a0000000

/-- The address of a cell. -/
def cellAddress (i : Nat) : Nat := heapBase + 16 * i

namespace State

/-- The cell at an address. -/
def cellAt? (s : State) (p : Pointer) : Option Cell :=
  if heapBase ≤ p.addr ∧ (p.addr - heapBase) % 16 = 0 then
    s.cells[(p.addr - heapBase) / 16]?
  else none

/-- The bytecode of a function cell. -/
def bytecode? (s : State) (p : Pointer) : Option Bytecode :=
  match s.cellAt? p with
  | some (.function code _) => some code
  | _ => none

/-- The variables a function cell captured. -/
def captures? (s : State) (p : Pointer) : Option (List Capture) :=
  match s.cellAt? p with
  | some (.function _ captured) => some captured
  | _ => none

/-- Is the cell a function? -/
def isFunction (s : State) (p : Pointer) : Bool := (s.bytecode? p).isSome

/-- How many cells are functions. -/
def functionCount (s : State) : Nat :=
  s.cells.toList.countP fun c => match c with
    | .function _ _ => true
    | _ => false

/-- The content of a text value. -/
def textOf? (s : State) (v : Value) : Except Violation (Option String) := do
  match ← v.asPointer? (.heap .string) with
  | none => return none
  | some p =>
    match s.cellAt? p with
    | some (.text t) => return some t
    | _ => return none

/-- For a reference to a cell, the text the cell holds, if any. -/
def describe? (s : State) (v : Value) : Option (Option String) := do
  if !v.isHeap then none
  match ← s.cellAt? (← Pointer.ofAddr? v.payload) with
  | .text t => return some t
  | _ => return none

end State

/-! ## Allocation -/

/-- Adds a cell and refers to it under the given tag. -/
def allocate (tag : HeapTag) (c : Cell) : Local State Value := do
  let s ← get
  match Pointer.ofAddr? (cellAddress s.cells.size) with
  | none => throw (.abort .outOfMemory)
  | some p =>
    set { s with cells := s.cells.push c }
    return .ofPointer tag p

/-- A new text. -/
def newText (t : String) : Local State Value := allocate .string (.text t)

/-- A new symbol. -/
def newSymbol : Local State Value := allocate .symbol (.text "Symbol()")

/-- A new object with the given keys, made by the given constructor. -/
def newObject (keys : List String) (constructor : Option Value) : Local State Value :=
  allocate .object (.object keys constructor)

/-- A new function. -/
def newFunction (code : Bytecode) (captured : List Capture) : Local State Value :=
  allocate .object (.function code captured)

/-- Releasing a value is only taken note of. -/
def release (v : Value) : Local State Unit :=
  modify fun s => { s with released := s.released ++ [v] }

/-- Duplicating a value gives the value itself, and is taken note of. -/
def duplicate (v : Value) : Local State Value := do
  modify fun s => { s with duplicated := s.duplicated ++ [v] }
  return v

/-- Takes note of a call. -/
def noteCall (name : String) : Local State Unit :=
  modify fun s => { s with calls := s.calls ++ [name] }

/-- What call frames need to know about the heap. -/
def objectModel : ObjectModel State where
  bytecode := State.bytecode?
  captures := State.captures?
  duplicate := duplicate

end TieredVm.Reference
