import TieredVm.Helper.Word

/-!
# Code generation

What the compiler of this library hands its functions to. A *module* holds declared functions, each under
a number. An imported function stands for the routine that is registered under its name. Any other one
is defined by a function in straight-line form, and has code that can be run once the module is
finalized.

`Backend` is a generator of such code, which is not part of this library. What running code does is
described by the routines it calls (`Behaviour`).

* `Backend` stands for `JITModule` with its `JITBuilder`: `link` is `symbol` for each helper and
  `new`, `declare` is `declare_function`, `define` is `define_function`, `finalize` is
  `finalize_definitions`, `address` is `get_finalized_function`, and `execute` is a jump to that
  address.
* `IrFunction` is the function that a `FunctionBuilder` is building: `refer` is
  `declare_func_in_func`, `emit` adds one of its instructions, and `Declaration` is what a function
  is declared with.
-/

namespace TieredVm

/-! ## What code does -/

/-- Code answers, or it calls a routine and goes on with the word it is answered. -/
inductive Behaviour (α β : Type) where
  | answer (b : β)
  | call (routine : α) (args : List Word) (next : Word → Behaviour α β)

namespace Behaviour

variable {α β γ : Type}

def bind : Behaviour α β → (β → Behaviour α γ) → Behaviour α γ
  | answer b, f => f b
  | call routine args next, f => call routine args fun w => (next w).bind f

instance : Monad (Behaviour α) where
  pure := answer
  bind := bind

/-- Does what code does, given how a routine is called. -/
def perform {m : Type → Type} [Monad m] (run : α → List Word → m Word) : Behaviour α β → m β
  | answer b => pure b
  | call routine args next => do
    let w ← run routine args
    (next w).perform run

end Behaviour

/-! ## Functions in straight-line form -/

/-- The number of a function in its module. -/
abbrev FuncId := Nat

/-- How many words a function takes, and how many it returns. -/
structure Signature where
  params : Nat
  returns : Nat
deriving DecidableEq

inductive Linkage where
  /-- The function is a routine that is registered under its name. -/
  | imported
  /-- The function is defined in the module, and not seen outside. -/
  | own
deriving DecidableEq

structure Declaration where
  name : String
  linkage : Linkage
  signature : Signature
deriving DecidableEq

/-- An instruction. It makes one value; values are numbered in order, the parameters first. -/
inductive IrInstr where
  | const (w : Word)
  /-- The sum of two values modulo `2 ^ 64`. -/
  | add (a b : Nat)
  /-- `a` if the condition is not zero, else `b`. -/
  | select (condition a b : Nat)
  /-- Calls a function that is referred to. -/
  | call (ref : Nat) (args : List Nat)
  /-- The same value again. -/
  | same (a : Nat)

/-- A function in straight-line form. -/
structure IrFunction where
  signature : Signature
  /-- The functions of the module that are referred to; a reference is a place in this list. -/
  refs : Array FuncId := #[]
  body : Array IrInstr := #[]
  /-- The value that is returned. -/
  answer : Nat := 0

namespace IrFunction

/-- How many values there are so far. -/
def valueCount (f : IrFunction) : Nat := f.signature.params + f.body.size

/-- Refers to one more function of the module. -/
def refer (f : IrFunction) (id : FuncId) : Nat × IrFunction :=
  (f.refs.size, { f with refs := f.refs.push id })

/-- Adds an instruction at the end. -/
def emit (f : IrFunction) (i : IrInstr) : IrFunction := { f with body := f.body.push i }

end IrFunction

/-- The word of a value. -/
def valueAt (values : Array Word) (i : Nat) : Word := values[i]?.getD 0

/-- What an instruction does, given the routines that references stand for. -/
def IrInstr.behaviour {α : Type} (routine? : Nat → Option α) (values : Array Word) :
    IrInstr → Behaviour α Word
  | const w => pure w
  | add a b => pure (valueAt values a + valueAt values b)
  | select c a b => pure (if valueAt values c ≠ 0 then valueAt values a else valueAt values b)
  | call ref args =>
    match routine? ref with
    | some routine => .call routine (args.map (valueAt values)) .answer
    | none => pure 0
  | same a => pure (valueAt values a)

/-- Instructions one after the other, each given the values before it. -/
def inOrder {α ι : Type} (effect : Array Word → ι → Behaviour α Word) :
    List ι → Array Word → Behaviour α (Array Word)
  | [], values => pure values
  | i :: rest, values => do
    let w ← effect values i
    inOrder effect rest (values.push w)

/-- What a function does when it is called with the given words. -/
def IrFunction.behaviour {α : Type} (f : IrFunction) (routine? : Nat → Option α) (words : List Word) :
    Behaviour α Word := do
  let values ← inOrder (IrInstr.behaviour routine?) f.body.toList words.toArray
  return valueAt values f.answer

/-! ## Generating code -/

/-- A generator of code that calls routines of type `α`. -/
structure Backend (α : Type) where
  Module : Type
  /-- A module for the symbols that were registered, in that order. -/
  link : List (String × α) → Except String Module
  declare : Declaration → EStateM String Module FuncId
  define : FuncId → IrFunction → EStateM String Module Unit
  /-- Makes the code of what was defined ready to run. -/
  finalize : EStateM String Module Unit
  /-- Where the code of a function lies. -/
  address : Module → FuncId → Nat
  /-- What the code at an address does when it is entered with the given words. -/
  execute : Module → Nat → List Word → Behaviour α Word

end TieredVm
