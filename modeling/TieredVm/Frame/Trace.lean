import TieredVm.Frame.Chain

/-!
# Walks and traces

`Chain.walk` lists the linked frames, innermost first, by following each frame to the one below
it. A stack trace names the function of each and, where the function's line table covers the
recorded offset, the source position.

* `walk` is `FrameChain::walk`, `linkedFrom` and `linked` follow the links as `FrameWalk::next`
  does, and `FrameInfo` is what it yields (`StackFrame::info` is `Frame.info`).
* `trace` is `FrameChain::backtrace`, `traceEntry` its line for one frame, and `TraceEntry` is
  `BacktraceEntry`: `report` is its `Display` and `text` its derived `Debug`.
-/

namespace TieredVm

/-- A linked frame as a walk shows it. -/
structure FrameInfo where
  function : Value
  pc : Option Nat
  argCount : Nat
  localCount : Nat
  /-- How many captured variables still share its slots. -/
  openCaptures : Nat
deriving DecidableEq

/-- One line of a stack trace. -/
structure TraceEntry where
  /-- The function; native code has no bytecode to take a name from. -/
  name : String
  pc : Option Nat := none
  line : Option Nat := none
  column : Option Nat := none
deriving DecidableEq

namespace TraceEntry

/-- The line a user reads. -/
def report (e : TraceEntry) : String :=
  match e.line, e.column with
  | some line, some column => s!"at {e.name} ({line}:{column})"
  | _, _ => s!"at {e.name}"

/-- The entry as a term. -/
def text (e : TraceEntry) : String :=
  Text.record "BacktraceEntry"
    [("name", Text.quoted e.name), ("pc", Text.optional (e.pc.map toString)),
      ("line", Text.optional (e.line.map toString)),
      ("column", Text.optional (e.column.map toString))]

end TraceEntry

/-- What a walk shows of a frame. -/
def Frame.info (f : Frame) : FrameInfo :=
  { function := f.function, pc := f.pc, argCount := f.argCount, localCount := f.localCount,
    openCaptures := f.captured.length }

namespace Chain

/-- The frames met from `start` downwards, at most `fuel` of them. -/
def linkedFrom (frames : Store Frame) : Nat → Option FrameId → List FrameId
  | 0, _ | _, none => []
  | fuel + 1, some id => id :: linkedFrom frames fuel (frames.get id).below

/-- The linked frames, innermost first. -/
def linked {R : Type} (m : Machine R) : List FrameId :=
  linkedFrom m.frames m.chain.depth m.chain.current

/-- The linked frames as a walk shows them. -/
def walk {R : Type} (m : Machine R) : List FrameInfo :=
  (linked m).map fun id => (m.frames.get id).info

/-- The trace line of a frame, given how bytecode is found. -/
def traceEntry (bytecode : Pointer → Option Bytecode) (i : FrameInfo) :
    Except Violation TraceEntry := do
  let code := (← i.function.asPointer? (.heap .object)).bind bytecode
  let position := do (← code).position? (← i.pc)
  return { name := (code.map Bytecode.displayName).getD "<native>", pc := i.pc
           line := position.map Prod.fst, column := position.map Prod.snd }

/-- The trace of the linked frames, innermost first. -/
def trace {R : Type} (bytecode : Pointer → Option Bytecode) (m : Machine R) :
    Except Violation (List TraceEntry) :=
  (walk m).mapM (traceEntry bytecode)

end Chain

end TieredVm
