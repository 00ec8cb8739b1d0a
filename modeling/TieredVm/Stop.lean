import TieredVm.Violation

/-!
# How an operation can fail to answer

A *panic* unwinds: it ends the operation that met it, and a caller may catch it and go on with the
state the operation left. A panic that reaches compiled code cannot unwind through it, and a frame
that is no longer innermost cannot be unlinked by its own scope; both *abort* the whole machine.

* A `Panic` is what `panic!` or a bounds check unwinds with; `violation` is the one of
  `invariant_violation`.
* `Abort.escaped` is a panic in an `extern` function, and `Abort.brokenScope` is the abort of
  `ExitGuard`. The other two are ends of the process that no check announces.
-/

namespace TieredVm

/-- What a panic reports. -/
inductive Panic where
  | violation (v : Violation)
  /-- A slot outside a buffer of known length was asked for. -/
  | outOfBounds (length index : Nat)
  /-- A failure of the embedding program, with its own words. -/
  | message (text : String)
deriving DecidableEq

/-- Why the whole machine is given up. -/
inductive Abort where
  /-- A panic reached compiled code. -/
  | escaped (p : Panic)
  /-- A scope ended while its frame was not the innermost one. -/
  | brokenScope (depth : Nat)
  /-- The address range of heap cells is used up. -/
  | outOfMemory
  /-- Nested calls went deeper than there are functions to call. -/
  | tooDeep
deriving DecidableEq

/-- An operation ended without an answer. -/
inductive Stop where
  | panic (p : Panic)
  | abort (a : Abort)
deriving DecidableEq

def Panic.text : Panic → String
  | violation v => v.message
  | outOfBounds n i => s!"index out of bounds: the len is {n} but the index is {i}"
  | message s => s

def Abort.text : Abort → String
  | escaped p => p.text
  | brokenScope d => s!"heron: frame left linked above a scoped frame (depth {d})"
  | outOfMemory => "out of memory"
  | tooDeep => "call stack exhausted"

namespace Stop

/-- The stop that a violation causes. -/
def violation (v : Violation) : Stop := .panic (.violation v)

end Stop

end TieredVm
