import TieredVm.Helper.Backend

/-!
# Code that is kept in functional form

A generator whose code is the meaning of the function it is generated for. A reference to an imported
function is bound to its routine when the function that refers to it is defined.

This is the part of `JITModule` that `JitCompiler` relies on, as its documentation describes it.
-/

namespace TieredVm

variable {α : Type}

/-- A module. -/
structure LinkedModule (α : Type) where
  /-- The registered symbols, the last one in front. -/
  symbols : List (String × α) := []
  /-- The declared functions, with the code of those that are defined. -/
  functions : Array (Declaration × Option (List Word → Behaviour α Word)) := #[]

namespace LinkedModule

/-- The most functions a module has room for. -/
def capacity : Nat := 0xffffffff

/-- The routine that a function stands for, if it is imported. -/
def routine? (M : LinkedModule α) (id : FuncId) : Option α :=
  match M.functions[id]? with
  | some ({ name, linkage := .imported, .. }, _) => M.symbols.lookup name
  | _ => none

/-- Declares a function. A name may be declared again, but not differently. -/
def declare (d : Declaration) : EStateM String (LinkedModule α) FuncId := do
  let M ← get
  match M.functions.findIdx? (·.1.name == d.name) with
  | some id =>
    if M.functions[id]?.map Prod.fst = some d then return id
    else throw s!"Incompatible declaration of identifier: {d.name}"
  | none =>
    if capacity ≤ M.functions.size then throw "Too many functions"
    set { M with functions := M.functions.push (d, none) }
    return M.functions.size

/-- Defines a function that was declared as the module's own. -/
def define (id : FuncId) (f : IrFunction) : EStateM String (LinkedModule α) Unit := do
  let M ← get
  match M.functions[id]? with
  | some (d, none) =>
    if d.linkage = .imported then throw s!"Invalid to define identifier declared as an import: {d.name}"
    let routine? (ref : Nat) : Option α := f.refs[ref]?.bind M.routine?
    set { M with functions := M.functions.set! id (d, some (f.behaviour routine?)) }
  | some (d, some _) => throw s!"Duplicate definition of identifier: {d.name}"
  | none => throw "Undeclared function"

/-- What the code of a function does. -/
def execute (M : LinkedModule α) (code : Nat) (words : List Word) : Behaviour α Word :=
  match M.functions[code]? with
  | some (_, some code) => code words
  | _ => .answer 0

end LinkedModule

/-- The generator. The code of a function lies at its number. -/
def linked (α : Type) : Backend α where
  Module := LinkedModule α
  link := fun symbols => .ok { symbols := symbols.reverse }
  declare := LinkedModule.declare
  define := LinkedModule.define
  finalize := pure ()
  address := fun _ id => id
  execute := LinkedModule.execute

end TieredVm
