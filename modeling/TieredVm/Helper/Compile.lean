import TieredVm.Helper.Backend
import TieredVm.Helper.Table

/-!
# Compiled bodies

A compiled function takes the context and up to four words, runs a straight line of instructions
and answers one word. Every instruction fills the next slot; the first slots hold the context and
the arguments.

A compiler keeps one module for all its functions. The helpers that have a routine are registered by
symbol and imported into the module once; every function under construction refers to the imports anew.
Compiling fails at the first offence: too many parameters before the body is looked at, and within a call
a wrong number of arguments before a missing routine. A function that fails stays declared in the module
without being defined, and its number is used up.

* `Compiler` is `JitCompiler`, and `new`, `compile` and `invoke` are its functions of these names.
  `Artifact` is `JitCompileArtifact`, `CompileError` is `JitError`, and `maxParams` is
  `MAX_INVOKE_ARGS`.
* `declareHelpers` is `HelperFuncIds::declare`, `referAll` is `HelperRefs::declare`, and
  `HelperTable.require` and `HelperTable.call` are `HelperRefs::require` and `HelperRefs::call`.
  `HelperKind.declaration` holds the signature of `make_signature`.
* `Source` is a closure that `compile` is given, as straight-line code, and `Source.build` runs it.
  `building` keeps account of the one `FunctionBuilderContext` that all functions are built in.
-/

namespace TieredVm

/-- The most words a compiled function can take. -/
def maxParams : Nat := 4

/-- One instruction. Operands are slot numbers. -/
inductive Instr where
  | const (w : Word)
  /-- The sum of two slots modulo `2 ^ 64`. -/
  | add (a b : Nat)
  /-- `a` if the condition is not zero, else `b`. -/
  | select (condition a b : Nat)
  /-- Calls a helper; the first argument is the context. -/
  | call (k : HelperKind) (args : List Nat)
  /-- Fails to compile without the helper; fills its slot with the context. -/
  | require (k : HelperKind)
  /-- Is the helper there? `1` or `0`. -/
  | has (k : HelperKind)
deriving DecidableEq

/-- The slots an instruction reads, in order. -/
def Instr.reads : Instr → List Nat
  | .add a b => [a, b]
  | .select c a b => [c, a, b]
  | .call _ args => args
  | .const _ | .require _ | .has _ => []

/-- A function to compile. It answers the given slot, or the last one filled. -/
structure Source where
  name : String
  /-- How many words it takes after the context. -/
  params : Nat
  body : List Instr
  answer : Option Nat := none

/-- Why a body does not compile, or a compiled function is not run. -/
inductive CompileError where
  | module (reason : String)
  | builder (reason : String)
  | missingHelper (symbol : String)
  | arityMismatch (callee : String) (expected given : Nat)
deriving DecidableEq

namespace CompileError

def className : CompileError → String
  | module _ => "Module"
  | builder _ => "Builder"
  | missingHelper _ => "MissingHelper"
  | arityMismatch _ _ _ => "ArityMismatch"

def message : CompileError → String
  | module r => s!"cranelift module error: {r}"
  | builder r => s!"jit builder initialization failed: {r}"
  | missingHelper s => s!"runtime helper {s} is not registered"
  | arityMismatch c e g => s!"{c} takes {e} arguments, got {g}"

end CompileError

/-- Why a function was not compiled. -/
inductive Halt where
  | refused (e : CompileError)
  | panicked (p : Panic)
deriving DecidableEq

/-! ## Bodies -/

namespace HelperTable

/-- What the table has for a helper that has to be there. -/
def require {β : Type} (t : HelperTable β) (k : HelperKind) : Except CompileError β :=
  match t.get? k with
  | some b => .ok b
  | none => .error (.missingHelper k.symbol)

/-- A call of a helper. The context is among the arguments. -/
def call (refs : HelperTable Nat) (k : HelperKind) (args : List Nat) : Except CompileError IrInstr := do
  if args.length ≠ k.paramCount then
    throw (.arityMismatch k.symbol k.paramCount args.length)
  let ref ← refs.require k
  return .call ref args

end HelperTable

/-- The instruction that is generated, given the references to helpers. -/
def Instr.lower (refs : HelperTable Nat) : Instr → Except CompileError IrInstr
  | .const w => .ok (.const w)
  | .add a b => .ok (.add a b)
  | .select c a b => .ok (.select c a b)
  | .call k args => refs.call k args
  | .require k => do
    let _ ← refs.require k
    return .same 0
  | .has k => .ok (.const (if (refs.get? k).isSome then 1 else 0))

/-- Adds an instruction to a function under construction. Reading a slot that is not filled yet is a
panic. -/
def IrFunction.build (refs : HelperTable Nat) (f : IrFunction) (i : Instr) : Except Halt IrFunction :=
  match i.reads.find? (f.valueCount ≤ ·) with
  | some slot => .error (.panicked (.outOfBounds f.valueCount slot))
  | none =>
    match i.lower refs with
    | .ok lowered => .ok (f.emit lowered)
    | .error e => .error (.refused e)

/-- Builds the body of a function, and returns from it. -/
def Source.build (s : Source) (refs : HelperTable Nat) (f : IrFunction) : Except Halt IrFunction := do
  let f ← s.body.foldlM (IrFunction.build refs) f
  let answer := s.answer.getD (f.valueCount - 1)
  if f.valueCount ≤ answer then
    throw (.panicked (.outOfBounds f.valueCount answer))
  return { f with answer }

/-! ## The compiler -/

/-- A compiled function. -/
structure Artifact where
  /-- Where its code lies. -/
  code : Nat
  /-- How many words it takes after the context. -/
  params : Nat

/-- A compiler and its module. -/
structure Compiler {α : Type} (B : Backend α) where
  module : B.Module
  /-- The numbers of the imported helpers. -/
  imports : HelperTable FuncId
  /-- The number that the next function is named with. -/
  nextId : Nat := 0
  /-- A body that a panic left unfinished keeps the builder busy. -/
  builderIdle : Bool := true

/-- How a helper is imported. -/
def HelperKind.declaration (k : HelperKind) : Declaration where
  name := k.symbol
  linkage := .imported
  signature := { params := k.paramCount, returns := k.returnCount }

/-- The symbol of a compiled function. -/
def symbolFor (name : String) (id : Nat) : String := s!"heron_jit_{name}_{id}"

namespace Compiler

variable {α : Type} {B : Backend α}

/-- An operation of a compiler, which may fail half way. -/
abbrev Compiling (B : Backend α) := EStateM Halt (Compiler B)

/-- Imports a helper. -/
def declareHelper (B : Backend α) (imports : HelperTable FuncId) (k : HelperKind) :
    EStateM String B.Module (HelperTable FuncId) := do
  let id ← B.declare k.declaration
  return imports.set k id

/-- Imports every helper that has a routine. -/
def declareHelpers (B : Backend α) (t : HelperTable α) : EStateM String B.Module (HelperTable FuncId) :=
  t.toList.foldlM (fun imports entry => declareHelper B imports entry.1) .empty

/-- A new compiler, with the helpers that have a routine linked in. -/
def new (B : Backend α) (t : HelperTable α) : Except CompileError (Compiler B) :=
  match B.link (t.toList.map fun entry => (entry.1.symbol, entry.2)) with
  | .error reason => .error (.builder reason)
  | .ok module =>
    match declareHelpers B t module with
    | .error reason _ => .error (.module reason)
    | .ok imports module => .ok { module, imports }

/-- An operation on the module. -/
def inModule {β : Type} (act : EStateM String B.Module β) : Compiling B β := fun c =>
  match act c.module with
  | .ok b module => .ok b { c with module }
  | .error reason module => .error (.refused (.module reason)) { c with module }

/-- Refers to a helper, if it is imported. -/
def referTo (imports : HelperTable FuncId) : HelperTable Nat × IrFunction → HelperKind →
    HelperTable Nat × IrFunction
  | (refs, f), k =>
    match imports.get? k with
    | some id => (refs.set k (f.refer id).1, (f.refer id).2)
    | none => (refs, f)

/-- Refers to every imported helper, in table order. -/
def referAll (imports : HelperTable FuncId) (f : IrFunction) : HelperTable Nat × IrFunction :=
  HelperKind.all.foldl (referTo imports) (.empty, f)

/-- The name of the next function. Numbers are 64-bit words and stay at the largest one. -/
def nextSymbol (name : String) : Compiling B String := do
  let c ← get
  set { c with nextId := min (c.nextId + 1) 0xffffffffffffffff }
  return symbolFor name c.nextId

/-- Declares a function of the module's own, with a symbol of its own. -/
def declareOwn (name : String) (signature : Signature) : Compiling B FuncId := do
  let symbol ← nextSymbol name
  inModule (B.declare { name := symbol, linkage := .own, signature })

/-- Defines a function, and makes its code ready to run. -/
def defineOwn (id : FuncId) (f : IrFunction) : Compiling B Unit := do
  inModule (B.define id f)
  inModule B.finalize

/-- Builds a body. The builder is idle afterwards, also when the body is refused, but not after a
panic. -/
def building (body : Except Halt IrFunction) : Compiling B IrFunction := do
  if !(← get).builderIdle then
    throw (.panicked (.message "assertion failed: func_ctx.is_empty()"))
  modify fun c => { c with builderIdle := false }
  match body with
  | .error (.panicked p) => throw (.panicked p)
  | .error (.refused e) =>
    modify fun c => { c with builderIdle := true }
    throw (.refused e)
  | .ok f =>
    modify fun c => { c with builderIdle := true }
    return f

/-- Compiles a function. -/
def compile (s : Source) : Compiling B Artifact := do
  if maxParams < s.params then
    throw (.refused (.arityMismatch "compiled function" maxParams s.params))
  let signature : Signature := { params := s.params + 1, returns := 1 }
  let id ← declareOwn s.name signature
  let (refs, f) := referAll (← get).imports { signature }
  let f ← building (s.build refs f)
  defineOwn id f
  return { code := B.address (← get).module id, params := s.params }

/-- Calls a compiled function, which needs exactly as many words as it has parameters. -/
def invoke {R : Type} (c : Compiler B) (call : α → List Word → Run R Word) (a : Artifact)
    (context : Word) (args : List Word) : Run R (Except CompileError Word) :=
  let enter (words : List Word) : Run R (Except CompileError Word) :=
    Except.ok <$> (B.execute c.module a.code words).perform call
  if args.length ≠ a.params ∨ maxParams < args.length then
    return .error (.arityMismatch "compiled function" a.params args.length)
  else
    match args with
    | [] => enter [context]
    | [x] => enter [context, x]
    | [x, y] => enter [context, x, y]
    | [x, y, z] => enter [context, x, y, z]
    | [x, y, z, w] => enter [context, x, y, z, w]
    | _ => throw (.panic (.message "internal error: entered unreachable code: arity checked above"))

end Compiler

end TieredVm
