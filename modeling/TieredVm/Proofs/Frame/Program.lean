import TieredVm.Proofs.Frame.Transitions

/-!
# Programs of frame operations

`FrameCall` is one call on the chain or on a captured variable, and `Program` is what a caller makes
of such calls: sequences, panics and aborts of its own at any point, panics that it catches, and
scoped frames around further programs, nested as deep as it likes. `Program.run` performs a program
with the operations of the model; a scoped frame is `Chain.withFrame` around the run of its body.

* A caller that decides by what it reads makes, from a given machine, one of these programs.
* A call names a frame that was handed out (`FrameRef.owned`), no frame, or the innermost one. An
  address that was never handed out leads to no frame.
* A program may abort anywhere, inside scopes too, and an abort runs nothing on its way out. So what
  holds of every machine that a program leaves holds at every moment of every run
  (`Reachable`).
-/

namespace TieredVm

variable {R Op : Type}

/-! ## Calls -/

/-- The frame a call is made on. -/
inductive FrameRef where
  | null
  | owned (id : FrameId)
  | current
deriving DecidableEq

/-- The frame a reference leads to. -/
def FrameRef.find (m : Machine R) : FrameRef → Option FrameId
  | .null => none
  | .owned id => if id < m.freshFrame then some id else none
  | .current => m.chain.current

/-- A call on the chain, on a captured variable, or a write to a buffer. -/
inductive FrameCall where
  /-- A caller sets storage aside for one more frame. -/
  | newFrame
  | enter (frame : FrameRef) (function : Value) (args : Address) (argCount : Nat)
  | attachLocals (frame : FrameRef) (locals : Address) (count : Nat)
  | setPc (frame : FrameRef) (code : Bytecode) (pc : Nat)
  | capture (frame : FrameRef) (index : Nat) (kind : SlotKind)
  | exit (frame : FrameRef)
  | captureCurrent (index : Nat) (kind : SlotKind)
  | setCurrentLocal (index : Nat) (v : Value)
  /-- Writes a captured variable through a handle on it. -/
  | setVariable (c : Capture) (v : Value)
  /-- A variable that owns its value from the start. -/
  | newVariable (v : Value)
  /-- Writes a slot of a buffer directly. -/
  | poke (slot : Address) (v : Value)

/-- Performs a call. Its answer is dropped: what it read or made can be found in the machine. -/
def FrameCall.perform : FrameCall → Run R Unit
  | newFrame => discard Machine.newFrame
  | enter frame function args argCount => do
    Chain.enter (frame.find (← get)) function args argCount
  | attachLocals frame locals count => do Chain.attachLocals (frame.find (← get)) locals count
  | setPc frame code pc => do Chain.setPc (frame.find (← get)) code pc
  | capture frame index kind => do discard (Chain.capture (frame.find (← get)) index kind)
  | exit frame => do Chain.exit (frame.find (← get))
  | captureCurrent index kind => discard (Chain.captureCurrent index kind)
  | setCurrentLocal index v => Chain.setCurrentLocal index v
  | setVariable c v => modify fun m => m.setCapture c v
  | newVariable v => discard (Machine.addCapture (.owned v))
  | poke slot v => modify fun m => m.written slot v

/-! ## Programs -/

/-- What a scoped frame is entered with. -/
structure ScopeCall where
  function : Value
  args : Address := 0
  argCount : Nat := 0
  locals : Address := 0
  localCount : Nat := 0
deriving DecidableEq

/-- The part of a scope before its body: a new frame, entered, with its locals. -/
def ScopeCall.openFrame (c : ScopeCall) : Run R FrameId := do
  let id ← Machine.newFrame
  Chain.enter (some id) c.function c.args c.argCount
  Chain.attachLocals (some id) c.locals c.localCount
  return id

/-- Runs an operation inside the scoped frame of a call. -/
def ScopeCall.around {α : Type} (call : ScopeCall) (body : Run R α) : Run R α :=
  Chain.withFrame call.function call.args call.argCount call.locals call.localCount body

theorem ScopeCall.around_eq {α : Type} (c : ScopeCall) (body : Run R α) :
    c.around body = c.openFrame >>= fun id => Chain.runScoped id body := by
  simp [around, openFrame, Chain.withFrame]

/-- What a caller makes of calls. -/
inductive Program (Op : Type) where
  | done
  | call (op : Op)
  /-- The caller panics or aborts on its own. -/
  | stop (s : Stop)
  | seq (first second : Program Op)
  /-- A panic of the inner program is caught, and the run goes on. -/
  | caught (inner : Program Op)
  /-- The inner program runs inside a scoped frame. -/
  | scope (call : ScopeCall) (body : Program Op)

/-- Catches a panic. -/
def catchPanic (act : Run R Unit) : Run R Unit := fun m =>
  match act m with
  | .error (.panic _) m => .ok () m
  | r => r

namespace Program

/-- Performs a program, given how to perform a call. -/
def run (perform : Op → Run R Unit) : Program Op → Run R Unit
  | done => pure ()
  | call op => perform op
  | stop s => throw s
  | seq first second => do
    run perform first
    run perform second
  | caught inner => catchPanic (run perform inner)
  | scope c body => c.around (run perform body)

/-- Does every call that a run of a program makes meet a condition, in the machine it is made in? -/
def Along (perform : Op → Run R Unit) (P : Machine R → Op → Prop) : Program Op → Machine R → Prop
  | done, _ | stop _, _ => True
  | call op, m => P m op
  | seq first second, m =>
    Along perform P first m ∧ ∀ m', run perform first m = .ok () m' → Along perform P second m'
  | caught inner, m => Along perform P inner m
  | scope c body, m => ∀ id m', c.openFrame m = .ok id m' → Along perform P body m'

/-- A condition that every call meets everywhere. -/
theorem along_of_forall {perform : Op → Run R Unit} {P : Machine R → Op → Prop}
    (hP : ∀ m op, P m op) (p : Program Op) : ∀ m, p.Along perform P m := by
  induction p with
  | done => exact fun _ => trivial
  | stop _ => exact fun _ => trivial
  | call op => exact fun m => hP m op
  | seq first second ih₁ ih₂ => exact fun m => ⟨ih₁ m, fun m' _ => ih₂ m'⟩
  | caught inner ih => exact ih
  | scope c body ih => exact fun _ _ m' _ => ih m'

end Program

/-! ## Reachable machines -/

/-- Before the first call: nothing is linked, no frame is active, and no captured variable shares a
slot. -/
structure Machine.AtRest (m : Machine R) : Prop where
  chain : m.chain = {}
  idle : ∀ id, (m.frames.get id).state ≠ .active
  detached : ∀ c, m.captureShared c = false

/-- A machine that some program of frame operations leaves, by answering or by stopping anywhere. -/
def Machine.Reachable (m : Machine R) : Prop :=
  ∃ start : Machine R, start.AtRest ∧
    ∃ p : Program FrameCall, Result.state (p.run FrameCall.perform start) = m

end TieredVm
