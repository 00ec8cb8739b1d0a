import TieredVm.Machine.Basic

/-!
# The pending exception

An operation that fails answers the error sentinel and parks the exception in the context, where
it stays until somebody takes it. A newer exception replaces an older one.

* `raise` and `takePending` are `VmContext::raise` and `take_exception`. Having an exception and
  looking at it (`has_exception`, `exception`) is reading `Machine.pending`.
* `takeDown` is `into_runtime`, `withContext` is what `VmContext::new` starts with, and
  `contextText` is the `Debug` of a context.
-/

namespace TieredVm.Machine

variable {R : Type}

/-- Parks an exception; the answer is the error sentinel. -/
def raise (e : Exception) : Run R Value := do
  Run.emit (.raised e)
  modify fun m => { m with pending := some e }
  return Value.exception

/-- Takes the pending exception away. -/
def takePending : Run R (Option Exception) := do
  let m ← get
  set { m with pending := none }
  return m.pending

/-- The machine with a new context around an interpreter state: an empty chain and nothing
pending. Frames and memory are their owners' and stay. -/
def withContext (m : Machine R) (runtime : R) : Machine R :=
  { m with runtime, chain := {}, pending := none }

/-- Takes the context down, which must have no linked frames, and gives back the interpreter
state. -/
def takeDown : Run R R := do
  let m ← get
  if m.chain.current.isSome then Run.violate (.liveFrames m.chain.depth)
  return m.runtime

/-- The text of a context, given the text of its interpreter state. -/
def contextText (runtimeText : String) (m : Machine R) : Except Violation String := do
  let pending ← match m.pending with
    | none => pure none
    | some e => some <$> e.text
  return Text.record "VmContext"
    [("runtime", runtimeText), ("frames", m.chain.text), ("pending", Text.optional pending)]

end TieredVm.Machine
