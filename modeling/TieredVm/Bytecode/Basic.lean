import TieredVm.Bytecode.Lines
import TieredVm.Text.Quoted
import TieredVm.Value.Basic

/-!
# Function bytecode

What the machine needs to know about a function that the interpreter compiled: its declared
arguments and locals, the length of its code, its constants, and which variables it captures. The
code itself is the interpreter's business; only offsets into it are checked here.

* `Bytecode` is `FunctionBytecode`; its code (`byte_code`) is kept as a length (`codeLength`, for
  `code_len`), its constants are `cpool` and its line table is `line_table`.
* `displayName`, `constant?`, `constant`, `containsPc` and `position?` are its `display_name`,
  `cpool`, `cpool_checked`, `contains_pc` and `find_line_col`.
* `ClosureVar.text` is the derived `Debug` of `ClosureVar`.
-/

namespace TieredVm

/-- Where a captured variable is found in the enclosing function. -/
structure ClosureVar where
  name : Option String := none
  /-- It is one of the enclosing frame's own slots, and not one that frame captured itself. -/
  isLocal : Bool := false
  /-- The slot is an argument. -/
  isArg : Bool := false
  index : Nat := 0
deriving DecidableEq

/-- A compiled function. -/
structure Bytecode where
  name : Option String := none
  argCount : Nat := 0
  varCount : Nat := 0
  codeLength : Nat := 0
  constants : Array Value := #[]
  closureVars : List ClosureVar := []
  lines : Option LineTable := none
deriving DecidableEq

/-- The text of a captured variable's description. -/
def ClosureVar.text (v : ClosureVar) : String :=
  Text.record "ClosureVar"
    [("name", Text.optional (v.name.map Text.quoted)), ("is_local", toString v.isLocal),
      ("is_arg", toString v.isArg), ("var_idx", toString v.index)]

namespace Bytecode

/-- The function's name; one without is anonymous. -/
def displayName (b : Bytecode) : String := b.name.getD "<anonymous>"

/-- A constant, if there is one at the index. -/
def constant? (b : Bytecode) (i : Nat) : Option Value := b.constants[i]?

/-- A constant whose index compiled code vouches for. -/
def constant (b : Bytecode) (i : Nat) : Except Violation Value :=
  match b.constant? i with
  | some v => .ok v
  | none => .error (.constantOutOfRange i b.displayName b.constants.size)

/-- Is `pc` an offset into the code? The end of the code is one. -/
def containsPc (b : Bytecode) (pc : Nat) : Bool := decide (pc ≤ b.codeLength)

/-- Source line and column of an offset, if the table covers it. -/
def position? (b : Bytecode) (pc : Nat) : Option (Nat × Nat) := do
  let table ← b.lines
  let entry ← table.find? pc
  return (entry.line, entry.column)

end Bytecode

end TieredVm
