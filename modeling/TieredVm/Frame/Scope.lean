import TieredVm.Frame.Chain

/-!
# Scoped frames

A scoped frame lives exactly as long as the operation that runs inside it: it is left when that
operation answers, and also when it panics. Frames that the operation entered itself must be left
by then. One that is still linked lies in storage that is going away, and so does a scoped frame
that was left already; nothing can be unlinked safely any more, and the machine aborts.

* `withFrame` is `FrameChain::with_frame`.
* `runScoped` is the part of it that its `ExitGuard` watches over, and `leaveScope` is the guard's
  `drop`.
-/

namespace TieredVm.Chain

variable {R α : Type}

/-- Leaves the frame of a scope that ends. -/
def leaveScope (id : FrameId) : Run R Unit := do
  let chain := (← get).chain
  if chain.current ≠ some id then
    Run.emit (.brokenScope chain.depth)
    throw (.abort (.brokenScope chain.depth))
  exit (some id)

/-- Runs an operation and leaves the scope on every way out of it. A second panic while the first
one unwinds aborts. -/
def runScoped (id : FrameId) (body : Run R α) : Run R α := fun m =>
  match body m with
  | .ok a m => (leaveScope id *> pure a) m
  | .error (.panic p) m =>
    match leaveScope id m with
    | .ok _ m => .error (.panic p) m
    | .error (.panic q) m => .error (.abort (.escaped q)) m
    | .error stop m => .error stop m
  | .error stop m => .error stop m

/-- Runs an operation inside a new frame with the given arguments and locals. -/
def withFrame (function : Value) (args : Address) (argCount : Nat) (locals : Address)
    (localCount : Nat) (body : Run R α) : Run R α := do
  let id ← Machine.newFrame
  enter (some id) function args argCount
  attachLocals (some id) locals localCount
  runScoped id body

end TieredVm.Chain
