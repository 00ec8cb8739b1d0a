import TieredVm.Helper.Call
import TieredVm.Helper.Linked
import TieredVm.Session.Step

/-!
# What a session knows

A session remembers what its steps stored under names, which frames it has named, and which
buffers it last gave to each frame. `Hosted G` puts that beside the state of the interpreter under
test, so that steps run inside an operator see the same names; operations of the interpreter alone
carry over.
-/

namespace TieredVm.Session

/-- The buffers last given to a frame, by address and length. -/
structure GivenBuffers where
  args : Address × Nat := (0, 0)
  locals : Address × Nat := (0, 0)

/-- A compiler of a session. -/
abbrev SessionCompiler := Compiler (linked Routine)

/-- A new compiler with the given helpers. -/
def newCompiler (helpers : List HelperKind) : Except CompileError SessionCompiler :=
  Compiler.new _ (HelperTable.ofSets (helpers.map fun k => (k, k.routine)))

/-- What a session remembers. The newest entry of a name counts. -/
structure Env where
  values : List (String × Value) := []
  frames : List (String × FrameId) := []
  captures : List (String × Capture) := []
  buffers : List (FrameId × GivenBuffers) := []
  /-- The compilers, the newest last. There is one for all helpers in the beginning. -/
  compilers : Array SessionCompiler := (newCompiler HelperKind.all).toOption.toArray
  /-- The compiled functions, each with the place of its compiler. -/
  compiled : List (String × Nat × Artifact) := []

/-- The interpreter under test, with the session's memory beside it. -/
structure Hosted (G : Type) where
  guest : G
  env : Env := {}

variable {G α : Type}

/-- An operation of the interpreter under test. -/
def hostRun (act : Run G α) : Run (Hosted G) α := fun m =>
  let outside (n : Machine G) : Machine (Hosted G) :=
    { n with runtime := { m.runtime with guest := n.runtime } }
  match act { m with runtime := m.runtime.guest } with
  | .ok a n => .ok a (outside n)
  | .error stop n => .error stop (outside n)

/-- An operation on the state of the interpreter under test alone. -/
def hostLocal (act : Local G α) : Local (Hosted G) α := fun h =>
  match act h.guest with
  | .ok a g => .ok a { h with guest := g }
  | .error stop g => .error stop { h with guest := g }

/-- An operator entry of the interpreter under test. -/
def hostEntry {n : Nat} (entry : Entry G n) : Entry (Hosted G) n := fun operands =>
  ExceptT.mk (hostRun (entry operands).run)

/-- The interpreter under test, hosted. -/
def hostInterpreter (I : Interpreter G) : Interpreter (Hosted G) where
  bytecode := fun h => I.bytecode h.guest
  captures := fun h => I.captures h.guest
  duplicate := fun v => hostLocal (I.duplicate v)
  add := hostEntry I.add
  arith := fun op => hostEntry (I.arith op)
  logic := fun op => hostEntry (I.logic op)
  shr := hostEntry I.shr
  unary := fun op => hostEntry (I.unary op)
  relational := fun op => hostEntry (I.relational op)
  equal := fun n => hostEntry (I.equal n)
  strictEqual := fun n => hostEntry (I.strictEqual n)
  instanceOf := hostEntry I.instanceOf
  contains := hostEntry I.contains
  truth := fun v => hostLocal (I.truth v)
  category := fun v => hostLocal (I.category v)
  categoryText := fun c => hostLocal (I.categoryText c)
  release := fun v => hostLocal (I.release v)

/-! ## Names -/

namespace Env

/-- The value of a reference; an unknown name is undefined. -/
def value (e : Env) : ValueRef → Value
  | .lit v => v
  | .named s => (e.values.lookup s).getD .undefined

/-- The exception a step mentions. -/
def exception (e : Env) : ExceptionRef → Exception
  | .error c m => .error c m
  | .thrown v => .thrown (e.value v)

/-- The name of a frame; frames the session has not named are scoped ones. -/
def frameName (e : Env) (id : FrameId) : String :=
  ((e.frames.find? fun f => f.2 == id).map Prod.fst).getD "scoped"

/-- The variables stored under the given names. -/
def variablesNamed (e : Env) (names : List String) : List Capture :=
  names.filterMap fun s => e.captures.lookup s

/-- The bytecode of a function to make. -/
def bytecode (e : Env) (f : FunctionSpec) : Bytecode :=
  { name := f.name, argCount := f.argCount, varCount := f.varCount, codeLength := f.codeLength,
    constants := (f.constants.map e.value).toArray, closureVars := f.closureVars,
    lines := f.lines.map LineTable.ofList }

end Env

/-- The session's memory. -/
def env : Run (Hosted G) Env := return (← get).runtime.env

/-- Changes the session's memory. -/
def modifyEnv (f : Env → Env) : Run (Hosted G) Unit :=
  modify fun m => { m with runtime := { m.runtime with env := f m.runtime.env } }

/-- Stores a value under a name, if there is one. -/
def storeValue (name : Option String) (v : Value) : Run (Hosted G) Unit :=
  match name with
  | some s => modifyEnv fun e => { e with values := (s, v) :: e.values }
  | none => pure ()

/-- Stores a captured variable under a name, if there is one. -/
def storeVariable (name : Option String) (c : Capture) : Run (Hosted G) Unit :=
  match name with
  | some s => modifyEnv fun e => { e with captures := (s, c) :: e.captures }
  | none => pure ()

/-- The value of a reference. -/
def valueOf (v : ValueRef) : Run (Hosted G) Value := return (← env).value v

/-- The address of a frame; a name gets a new frame when it is first used. -/
def frameOf : FrameRef → Run (Hosted G) (Option FrameId)
  | .null => return none
  | .innermost => return (← get).chain.current
  | .named s => do
    match (← env).frames.lookup s with
    | some id => return some id
    | none =>
      let id ← Machine.newFrame
      modifyEnv fun e => { e with frames := (s, id) :: e.frames }
      return some id

/-- The word of a reference. -/
def wordOf : WordRef → Run (Hosted G) Word
  | .word w => return w
  | .frame f => return (← frameOf f).elim 0 Word.ofAddress
  | .buffer vs => do
    let values := vs.map (← env).value
    return Word.ofAddress (← Machine.newBuffer values)
  | .value v => return Word.ofValue (← valueOf v)

/-- The buffers last given to a frame. -/
def buffersOf (id : FrameId) : Run (Hosted G) GivenBuffers :=
  return ((← env).buffers.lookup id).getD {}

/-- Remembers the buffers given to a frame. -/
def noteBuffers (frame : Option FrameId) (f : GivenBuffers → GivenBuffers) :
    Run (Hosted G) Unit := do
  if let some id := frame then
    let given ← buffersOf id
    modifyEnv fun e => { e with buffers := (id, f given) :: e.buffers }

/-- A new buffer with the given values; no values, no buffer. -/
def bufferOf (vs : Option (List ValueRef)) : Run (Hosted G) (Address × Nat) := do
  match vs with
  | none => return (0, 0)
  | some vs =>
    let values := vs.map (← env).value
    return (← Machine.newBuffer values, values.length)

end TieredVm.Session
