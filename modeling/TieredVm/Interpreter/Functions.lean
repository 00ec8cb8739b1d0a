import TieredVm.Frame.Trace
import TieredVm.Interpreter.Basic

/-!
# Functions and their frames

Reads of a function object (its bytecode, its constants, its captured variables), and the frame
transitions of the chain held to the layout that the function's bytecode declares: at least its
arguments, exactly its locals, and offsets into its own code. Frames may also be entered for native
functions, which declare nothing and record no offsets.

* `codeOf`, `constantOf` and `capturedOf` are `get_function_bytecode`, `function_cpool` and
  `get_function_var_ref`; `objectOf` is the check of the tag that they begin with, and `codeOf?` is
  `frame_bytecode`.
* `enter`, `attachLocals` and `setPc` are `stack_frame_init`, `stack_frame_attach_locals` and
  `stack_frame_set_pc`, the functions of `bridge`. Its `stack_frame_exit` is `Chain.exit`, and its
  `backtrace` is `trace`.
-/

namespace TieredVm.ObjectModel

variable {R : Type} (O : ObjectModel R)

/-! ## Reads of a function object -/

/-- The bytecode of a value, if it is a bytecode function. -/
def codeOf? (function : Value) : Run R (Option Bytecode) := do
  let p ← Run.expect (function.asPointer? (.heap .object))
  return p.bind (O.bytecode (← get).runtime)

/-- The object a value refers to, needed for the given use. -/
def objectOf (use : FunctionUse) (function : Value) : Run R Pointer := do
  match ← Run.expect (function.asPointer? (.heap .object)) with
  | some p => return p
  | none => Run.violate (.notAnObject use function.tag)

/-- The bytecode of a function object. -/
def codeOf (function : Value) : Run R Bytecode := do
  let p ← objectOf .bytecode function
  match O.bytecode (← get).runtime p with
  | some code => return code
  | none => Run.violate (.notBytecode (← Run.expect function.kind))

/-- A constant of a function object, borrowed from its pool. -/
def constantOf (function : Value) (index : Nat) : Run R Value := do
  Run.expect ((← O.codeOf function).constant index)

/-- The value of a captured variable of a function object, duplicated for the caller. -/
def capturedOf (function : Value) (index : Nat) : Run R Value := do
  let p ← objectOf .closureValue function
  let code ← O.codeOf function
  let declared := code.closureVars.length
  if declared ≤ index then
    Run.violate (.closureOutOfRange index code.displayName declared)
  match O.captures (← get).runtime p with
  | none => Run.violate (.notClosure (← Run.expect function.kind))
  | some held =>
    if held.length ≠ declared then
      Run.violate (.captureMismatch code.displayName held.length declared)
    match held[index]? with
    | none => Run.violate (.closureOutOfRange index code.displayName declared)
    | some c => Run.onRuntime (O.duplicate ((← get).captureValue c))

/-! ## Frame transitions -/

/-- Enters a frame for a call. A bytecode function needs all its declared arguments. -/
def enter (frame : Option FrameId) (function : Value) (args : Address) (argCount : Nat) :
    Run R Unit := do
  if let some code ← O.codeOf? function then
    if argCount < code.argCount then
      Run.violate (.tooFewArguments code.displayName code.argCount argCount)
  Chain.enter frame function args argCount

/-- Gives a frame its locals. A bytecode function needs exactly those it declares. -/
def attachLocals (frame : Option FrameId) (locals : Address) (count : Nat) : Run R Unit := do
  match frame with
  | none => Run.violate (.nullFrame .attachLocals)
  | some id =>
    let function := ((← get).frames.get id).function
    if let some code ← O.codeOf? function then
      if count ≠ code.varCount then
        Run.violate (.wrongLocalCount code.displayName code.varCount count)
    Chain.attachLocals (some id) locals count

/-- Records the offset a frame is at, which must lie in its function's code. -/
def setPc (frame : Option FrameId) (pc : Nat) : Run R Unit := do
  match frame with
  | none => Run.violate (.nullFrame .setPc)
  | some id =>
    let code ← O.codeOf ((← get).frames.get id).function
    Chain.setPc (some id) code pc

/-- The stack trace of the linked frames, innermost first. -/
def trace : Run R (List TraceEntry) := do
  let m ← get
  Run.expect (Chain.trace (O.bytecode m.runtime) m)

end TieredVm.ObjectModel
