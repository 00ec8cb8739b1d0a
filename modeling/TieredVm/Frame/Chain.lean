import TieredVm.Bytecode.Basic
import TieredVm.Machine.Basic

/-!
# The frame chain

A frame is entered, may get a buffer of locals, records the offsets it reaches, and is left again;
then it may be entered anew. Entering links it above the innermost frame, leaving unlinks it, and
only the innermost frame can be left. Any other use ends in a violation before anything changes.

Variables captured from a frame share its slots while it is on the chain. Leaving it hands every
one of them its slot's value of that moment.

* `Chain` is `FrameChain`, and `Frame` is `StackFrame`: `below` is its `prev_frame`, `args` and
  `locals` are `arg_buf` and `var_buf`, and `captured` is `var_refs`. `Frame.slot` is
  `StackFrame::slot`.
* `enter`, `attachLocals`, `setPc`, `exit` and `capture` are `FrameChain::init`, `attach_locals`,
  `set_pc`, `exit` and `create_var_ref`; `captureOf` is `StackFrame::var_ref`.
* `active` and `innermost` are `FrameChain::active` and `with_current`. `captureCurrent`,
  `currentArg`, `currentLocal`, `setCurrentLocal` and `setCurrentPc` are `current_var_ref`,
  `current_arg`, `current_local`, `set_current_local` and `set_current_pc`.
* A captured variable is a `VarRef`: `captureValue`, `setCapture`, `captureShared` and
  `closeCapture` are its `get`, `set`, `is_open` and `close`, `sharesSlot` compares with
  `open_slot`, and `captureText` is its `Debug`.
-/

namespace TieredVm

/-! ## Captured variables -/

namespace Machine

variable {R : Type}

/-- The value of a captured variable. -/
def captureValue (m : Machine R) (c : Capture) : Value :=
  match m.captures.get c.id with
  | .shared slot _ _ => m.memory.get slot
  | .owned v => v

/-- Does the variable still share a frame's slot? -/
def captureShared (m : Machine R) (c : Capture) : Bool :=
  match m.captures.get c.id with
  | .shared _ _ _ => true
  | .owned _ => false

/-- Does the variable share the given slot of its frame? -/
def sharesSlot (m : Machine R) (index : Nat) (kind : SlotKind) (c : Capture) : Bool :=
  match m.captures.get c.id with
  | .shared _ i k => i == index && k == kind
  | .owned _ => false

/-- Writes a captured variable where it lives. -/
def setCapture (m : Machine R) (c : Capture) (v : Value) : Machine R :=
  match m.captures.get c.id with
  | .shared slot _ _ => { m with memory := m.memory.set slot v }
  | .owned _ => { m with captures := m.captures.set c.id (.owned v) }

/-- Detaches a captured variable from its slot; it keeps its value. -/
def closeCapture (m : Machine R) (c : Capture) : Machine R :=
  { m with captures := m.captures.set c.id (.owned (m.captureValue c)) }

/-- Adds a captured variable. -/
def addCapture (cell : CaptureCell) : Run R Capture := do
  let m ← get
  let c : Capture := ⟨m.freshCapture⟩
  set { m with captures := m.captures.set c.id cell, freshCapture := m.freshCapture + 1 }
  return c

/-- The text of a captured variable. -/
def captureText (m : Machine R) (c : Capture) : Except Violation String := do
  let shown ← (m.captureValue c).text
  let place := if m.captureShared c then "open" else "closed"
  return s!"VarRef({place}, {shown})"

end Machine

namespace Frame

/-- The address of a slot the frame has. -/
def slot (f : Frame) (kind : SlotKind) (index : Nat) : Except Violation Address :=
  let (base, count) := match kind with
    | .argument => (f.args, f.argCount)
    | .localVar => (f.locals, f.localCount)
  if index < count then .ok (Machine.slotAddress base index)
  else .error (.slotOutOfRange kind index count)

end Frame

namespace Chain

variable {R : Type}

/-! ## Transitions -/

/-- The frame at an address, which must be on the chain. -/
def active (use : FrameUse) : Option FrameId → Run R (FrameId × Frame)
  | none => Run.violate (.nullFrame use)
  | some id => do
    let f := (← get).frames.get id
    if f.state = .active then return (id, f) else Run.violate (.idleFrame use f.state)

/-- Stores a frame back at its address. -/
def putFrame (id : FrameId) (f : Frame) : Run R Unit :=
  modify fun m => { m with frames := m.frames.set id f }

/-- Links a frame above the innermost one, for a call of `function` with `argCount` arguments
at `args`. -/
def enter (frame : Option FrameId) (function : Value) (args : Address) (argCount : Nat) :
    Run R Unit := do
  match frame with
  | none => Run.violate .enterNull
  | some id =>
    let m ← get
    if (m.frames.get id).state = .active then Run.violate .enterActive
    let entered : Frame :=
      { below := m.chain.current, function, args, argCount, state := .active }
    let depth := m.chain.depth + 1
    set { m with
      frames := m.frames.set id entered
      chain := { current := some id, depth } }
    Run.emit (.enter depth function)

/-- Gives an active frame its locals. -/
def attachLocals (frame : Option FrameId) (locals : Address) (count : Nat) : Run R Unit := do
  let (id, f) ← active .attachLocals frame
  putFrame id { f with locals, localCount := count }

/-- Records the offset an active frame is at, in the code it executes. -/
def setPc (frame : Option FrameId) (code : Bytecode) (pc : Nat) : Run R Unit := do
  let (id, f) ← active .setPc frame
  if !code.containsPc pc then
    Run.violate (.pcOutside pc code.displayName code.codeLength)
  putFrame id { f with pc := some pc }

/-- Unlinks the innermost frame. -/
def exit (frame : Option FrameId) : Run R Unit := do
  let (id, f) ← active .exit frame
  let m ← get
  if m.chain.current ≠ some id then Run.violate (.exitOutOfOrder m.chain.depth)
  let closed := f.captured.foldl Machine.closeCapture m
  let depth := m.chain.depth - 1
  set { closed with
    frames := closed.frames.set id { f with below := none, captured := [], state := .exited }
    chain := { current := f.below, depth } }
  Run.emit (.exit depth)

/-! ## Captures -/

/-- The variable in a slot of a frame; asking again gives the same one. -/
def captureOf (id : FrameId) (f : Frame) (index : Nat) (kind : SlotKind) : Run R Capture := do
  match f.captured.find? ((← get).sharesSlot index kind) with
  | some c => return c
  | none =>
    let slot ← Run.expect (f.slot kind index)
    let c ← Machine.addCapture (.shared slot index kind)
    putFrame id { f with captured := f.captured ++ [c] }
    return c

/-- Captures a slot of an active frame. -/
def capture (frame : Option FrameId) (index : Nat) (kind : SlotKind) : Run R Capture := do
  let (id, f) ← active .createVarRef frame
  captureOf id f index kind

/-! ## The innermost frame -/

/-- The innermost frame, needed for the given use. -/
def innermost (use : FrameUse) : Run R (FrameId × Frame) := do
  active use (← get).chain.current

/-- Captures a slot of the innermost frame. -/
def captureCurrent (index : Nat) (kind : SlotKind) : Run R Capture := do
  let (id, f) ← innermost .currentVarRef
  captureOf id f index kind

/-- An argument of the innermost frame. -/
def currentArg (index : Nat) : Run R Value := do
  let (_, f) ← innermost .currentArg
  let slot ← Run.expect (f.slot .argument index)
  return (← get).memory.get slot

/-- A local of the innermost frame. -/
def currentLocal (index : Nat) : Run R Value := do
  let (_, f) ← innermost .currentLocal
  let slot ← Run.expect (f.slot .localVar index)
  return (← get).memory.get slot

/-- Overwrites a local of the innermost frame. -/
def setCurrentLocal (index : Nat) (v : Value) : Run R Unit := do
  let (_, f) ← innermost .setCurrentLocal
  let slot ← Run.expect (f.slot .localVar index)
  modify fun m => { m with memory := m.memory.set slot v }

/-- Records the offset the innermost frame is at. -/
def setCurrentPc (code : Bytecode) (pc : Nat) : Run R Unit := do
  setPc (← get).chain.current code pc

end Chain

end TieredVm
