import TieredVm.Exception
import TieredVm.Machine.Store
import TieredVm.Stop

/-!
# The machine

`Machine R` is everything an operation can see or change: the interpreter's own state `R`, the
chain of linked call frames, the pending exception, and the memory that frames, argument and local
buffers and captured variables live in. Frames are owned by their callers: any frame address names
a frame, which is idle until it is entered.

`Run R` is an operation on a machine. It answers, or stops with what it had changed so far: a
panic undoes nothing.

When the journal is on, operations record events in it. An event shows values, and a reference to
nothing cannot be shown; recording such an event is itself a violation.

* A `Machine R` is a `VmContext` over `R`, with the frames, slots and captured variables that its
  pointers lead to. `Chain` is `FrameChain`, `Frame` is `StackFrame`, and `CaptureCell` is
  `VarRefState`.
* `Run.violate` is `invariant_violation`, and `Run.expect` a call that may end in one.
* The journal is what `tracing` is told when the feature `logging` is on. `Event` has one
  constructor for each such call: those of `trace_fallback`, `init`, `exit`, `raise`,
  `invariant_violation` and `ExitGuard`.
-/

namespace TieredVm

/-- The address of a frame. Zero is no frame. -/
abbrev FrameId := Nat

/-- The address of a value slot. -/
abbrev Address := Nat

/-- A handle on a captured variable. Handles are equal when they denote the same variable. -/
structure Capture where
  id : Nat
deriving DecidableEq

/-- A captured variable. -/
inductive CaptureCell where
  /-- It is still a slot of an active frame. -/
  | shared (slot : Address) (index : Nat) (kind : SlotKind)
  /-- The frame is gone; the variable owns its value. -/
  | owned (v : Value)
deriving DecidableEq

/-- One activation of a function. -/
structure Frame where
  /-- The frame below this one on the chain. -/
  below : Option FrameId := none
  function : Value := .undefined
  args : Address := 0
  argCount : Nat := 0
  locals : Address := 0
  localCount : Nat := 0
  /-- The offset recorded last. -/
  pc : Option Nat := none
  /-- The captured variables that share this frame's slots. -/
  captured : List Capture := []
  state : FrameState := .unlinked
deriving DecidableEq

/-- The linked frames, reached from the innermost one. -/
structure Chain where
  current : Option FrameId := none
  /-- How many frames are linked. -/
  depth : Nat := 0
deriving DecidableEq

/-- The text of a chain. -/
def Chain.text (c : Chain) : String := Text.record "FrameChain" [("depth", toString c.depth)]

/-- Everything an operation can see or change. -/
structure Machine (R : Type) where
  /-- The interpreter's own state. -/
  runtime : R
  chain : Chain := {}
  pending : Option Exception := none
  frames : Store Frame := .const {}
  memory : Store Value := .const .undefined
  captures : Store CaptureCell := .const (.owned .undefined)
  /-- The next frame address to hand out. -/
  freshFrame : FrameId := 1
  /-- The next slot address to hand out. -/
  freshSlot : Address := 8
  /-- The next captured variable to hand out. -/
  freshCapture : Nat := 0
  /-- The lines recorded so far, when recording is on. -/
  journal : Option (List String) := none

/-- An operation on a machine. -/
abbrev Run (R : Type) := EStateM Stop (Machine R)

/-! ## Events -/

/-- What an operation reports while it runs. -/
inductive Event where
  /-- An operator hands its operands to the interpreter. -/
  | slowPath (op : String) (operands : List Value)
  | enter (depth : Nat) (function : Value)
  | exit (depth : Nat)
  | raised (e : Exception)
  | violation (v : Violation)
  | brokenScope (depth : Nat)

/-- The line an event is recorded as, with its severity in front. -/
def Event.line : Event → Except Violation String
  | slowPath op vs => do
    let shown ← Value.listText vs
    return s!"TRACE slow path op={op} operands={shown}"
  | enter d f => do
    let shown ← f.text
    return s!"TRACE frame enter depth={d} func={shown}"
  | exit d => return s!"TRACE frame exit depth={d}"
  | raised e => do
    let shown ← e.report
    return s!"DEBUG exception raised error={shown}"
  | violation v => return "ERROR " ++ v.message
  | brokenScope d => return s!"ERROR frame left linked above a scoped frame depth={d}"

namespace Run

variable {R α : Type}

/-- Adds a line to the journal, if recording is on. -/
def write (line : String) : Run R Unit :=
  modify fun m => { m with journal := m.journal.map (· ++ [line]) }

/-- Ends the operation for a broken contract. -/
def violate (v : Violation) : Run R α := do
  write ("ERROR " ++ v.message)
  throw (Stop.violation v)

/-- The answer of a check, or the end of the operation. -/
def expect : Except Violation α → Run R α
  | .ok a => pure a
  | .error v => violate v

/-- Records an event, if recording is on. -/
def emit (e : Event) : Run R Unit := do
  if (← get).journal.isSome then write (← expect e.line)

/-- An operation of the interpreter on its own state alone. -/
def onRuntime (act : EStateM Stop R α) : Run R α := fun m =>
  match act m.runtime with
  | .ok a r => .ok a { m with runtime := r }
  | .error (.panic (.violation v)) r => violate v { m with runtime := r }
  | .error s r => .error s { m with runtime := r }

end Run

/-! ## Memory -/

namespace Machine

variable {R : Type}

/-- The address of a slot of a buffer. Slots are eight bytes wide. -/
def slotAddress (base : Address) (index : Nat) : Address := base + 8 * index

/-- The content of a buffer. -/
def buffer (m : Machine R) (base : Address) (count : Nat) : List Value :=
  (List.range count).map fun i => m.memory.get (slotAddress base i)

/-- Writes values into consecutive slots. -/
def fill (memory : Store Value) (base : Address) : List Value → Store Value
  | [] => memory
  | v :: rest => fill (memory.set base v) (slotAddress base 1) rest

/-- A new buffer with the given content. -/
def newBuffer (vs : List Value) : Run R Address := do
  let m ← get
  let base := m.freshSlot
  set { m with memory := fill m.memory base vs, freshSlot := slotAddress base (vs.length + 1) }
  return base

/-- A new frame address. -/
def newFrame : Run R FrameId := do
  let m ← get
  set { m with freshFrame := m.freshFrame + 1 }
  return m.freshFrame

end Machine

end TieredVm
