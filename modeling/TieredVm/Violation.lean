import TieredVm.Value.Kind

/-!
# Broken contracts

A `Violation` says which contract of the machine a caller broke: a payload read under the wrong
tag, a reference to nothing, a call frame used out of order. Continuing would misread memory, so a
violation always ends the operation that met it. `Violation.message` is its wording.

There is one constructor for each place that calls `invariant_violation`, and `detail` is the text
that is given there. `FrameState` keeps its name; `FrameUse` is the operation that
`FrameChain::active` is told, `FunctionUse` the function of `bridge` that needs an object, and
`LengthUse` what `length` is told.
-/

namespace TieredVm

/-- Where a call frame is in its life. -/
inductive FrameState where
  /-- Never entered. -/
  | unlinked
  /-- On the chain. -/
  | active
  /-- Left again; it may be entered anew. -/
  | exited
deriving DecidableEq, Repr

/-- The two runs of slots a frame has. -/
inductive SlotKind where
  | argument | localVar
deriving DecidableEq, Repr

/-- Operations that need a frame on the chain. -/
inductive FrameUse where
  | attachLocals | setPc | createVarRef | exit
  | currentVarRef | currentArg | currentLocal | setCurrentLocal
deriving DecidableEq, Repr

/-- Reads that need a function object. -/
inductive FunctionUse where
  | bytecode | closureValue
deriving DecidableEq, Repr

/-- Counts and indices that compiled code passes as raw words. -/
inductive LengthUse where
  | argumentCount | localCount | constantIndex | closureIndex
deriving DecidableEq, Repr

/-- A contract of the machine that a caller broke. -/
inductive Violation where
  /-- A payload was read under another tag than the value's. -/
  | wrongPayload (expected actual : Tag)
  /-- A value is tagged as a reference but holds no address. -/
  | nullPointer (tag : HeapTag)
  /-- A reference was to be made of no address. -/
  | nullPayload (tag : HeapTag)
  /-- A reference was to be made under a tag that marks none. -/
  | notPointerTag (tag : Tag)
  /-- An address does not fit the payload bits. -/
  | wideAddress (addr : Nat)
  | constantOutOfRange (index : Nat) (function : String) (size : Nat)
  | slotOutOfRange (kind : SlotKind) (index count : Nat)
  | pcOutside (pc : Nat) (function : String) (length : Nat)
  /-- The frame to enter is null. -/
  | enterNull
  /-- The frame to enter is already on the chain. -/
  | enterActive
  /-- The operation was given no frame. -/
  | nullFrame (use : FrameUse)
  /-- The operation was given a frame that is not on the chain. -/
  | idleFrame (use : FrameUse) (state : FrameState)
  /-- The frame to leave is not the innermost one. -/
  | exitOutOfOrder (depth : Nat)
  | tooFewArguments (function : String) (declared given : Nat)
  | wrongLocalCount (function : String) (declared given : Nat)
  /-- A function object was needed. -/
  | notAnObject (use : FunctionUse) (actual : Tag)
  | notBytecode (function : Kind)
  | notClosure (function : Kind)
  | closureOutOfRange (index : Nat) (function : String) (declared : Nat)
  | captureMismatch (function : String) (captured declared : Nat)
  /-- A raw word that stands for a count or an index is negative. -/
  | negativeLength (use : LengthUse) (raw : Int)
  /-- A raw word is no offset into bytecode. -/
  | badPc (raw : Int)
  /-- The context was taken down with frames on its chain. -/
  | liveFrames (depth : Nat)
deriving DecidableEq

def FrameState.name : FrameState → String
  | .unlinked => "Unlinked"
  | .active => "Active"
  | .exited => "Exited"

def SlotKind.name : SlotKind → String
  | .argument => "argument"
  | .localVar => "local"

def FrameUse.name : FrameUse → String
  | .attachLocals => "attach_locals"
  | .setPc => "set_pc"
  | .createVarRef => "create_var_ref"
  | .exit => "exit"
  | .currentVarRef => "current_var_ref"
  | .currentArg => "current_arg"
  | .currentLocal => "current_local"
  | .setCurrentLocal => "set_current_local"

def FunctionUse.name : FunctionUse → String
  | .bytecode => "get_function_bytecode"
  | .closureValue => "get_function_var_ref"

def LengthUse.name : LengthUse → String
  | .argumentCount => "argument count"
  | .localCount => "local count"
  | .constantIndex => "constant index"
  | .closureIndex => "closure variable index"

/-- Leaving a frame is worded apart from the other uses of one. -/
def FrameUse.phrase : FrameUse → String
  | .exit => "exit of"
  | use => use.name ++ " on"

namespace Violation

/-- What the violation is about, without the heading that all share. -/
def detail : Violation → String
  | wrongPayload e a => s!"payload read as {e.name} from a {a.name} value"
  | nullPointer t => s!"null pointer under {t.name} tag"
  | nullPayload t => s!"null payload for {t.name}"
  | notPointerTag t => s!"{t.name} is not a pointer tag"
  | wideAddress a => s!"heap pointer {Text.address a} does not fit in a 48-bit payload"
  | constantOutOfRange i f n => s!"constant {i} out of range for {f} (pool size {n})"
  | slotOutOfRange k i n => s!"{k.name} {i} out of range (frame has {n})"
  | pcOutside pc f n => s!"pc {pc} outside {f} ({n} bytes)"
  | enterNull => "init of a null frame"
  | enterActive => "frame initialized twice"
  | nullFrame u => s!"{u.phrase} a null frame"
  | idleFrame u s => s!"{u.phrase} a frame that is {s.name}"
  | exitOutOfOrder d => s!"frame exit out of order (depth {d})"
  | tooFewArguments f d g => s!"{f} declares {d} arguments, frame has {g}"
  | wrongLocalCount f d g => s!"{f} declares {d} locals, got {g}"
  | notAnObject u t => s!"{u.name}: expected object, got {t.name}"
  | notBytecode f => s!"get_function_bytecode: {f.text} is not a bytecode function"
  | notClosure f => s!"get_function_var_ref: {f.text} is not a closure"
  | closureOutOfRange i f n => s!"closure variable {i} out of range for {f} ({n} declared)"
  | captureMismatch f c d => s!"{f} captures {c} variables but declares {d}"
  | negativeLength u n => s!"{u.name} {n} is negative"
  | badPc n => s!"pc {n} is not a bytecode offset"
  | liveFrames d => s!"context dropped with {d} live frames"

/-- The wording of a violation. -/
def message (v : Violation) : String := "invariant violation: " ++ v.detail

end Violation

end TieredVm
