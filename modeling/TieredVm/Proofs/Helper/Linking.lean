import Mathlib.Data.List.Forall2
import TieredVm.Helper.Compile
import TieredVm.Helper.Linked
import TieredVm.Proofs.Run

/-!
# What is assumed of generated code

A generator of code is known by what can be observed of its modules (`Backend.View`): which functions are
declared, which of them have code, and which routines are registered. `View.Lawful` says what its
documentation promises of them. The code of a function does what the function says, and nothing that is
declared or defined afterwards makes a difference to it.

* `Behaviour.Calls`: the routines that code calls. Those are called when it runs
  (`Calls.answered`, `Calls.stopped`).
* `View.Keeps`: what was declared and defined stays as it is.
* `linked_lawful`: the generator that keeps code in functional form is one.
-/

namespace TieredVm

variable {α β γ : Type}

/-! ## What code does -/

/-- These routines are called, in this order, whatever they answer. -/
inductive Behaviour.Calls : Behaviour α β → List α → Prop where
  | answer (b : β) : Calls (.answer b) []
  | call (routine : α) (args : List Word) {next : Word → Behaviour α β} {routines : List α}
      (h : ∀ w, Calls (next w) routines) : Calls (.call routine args next) (routine :: routines)

theorem Behaviour.Calls.bind {x : Behaviour α β} {f : β → Behaviour α γ} {first second : List α}
    (hx : x.Calls first) (hf : ∀ b, (f b).Calls second) : (x >>= f).Calls (first ++ second) := by
  induction hx with
  | answer b => exact hf b
  | call routine args _ ih => exact .call routine args ih

/-- Calling these routines one after the other leads from one machine to another. -/
inductive CalledInTurn {R : Type} (call : α → List Word → Run R Word) :
    List α → Machine R → Machine R → Prop where
  | none (m : Machine R) : CalledInTurn call [] m m
  | next {routine : α} {args : List Word} {w : Word} {routines : List α} {m n m' : Machine R}
      (h : call routine args m = .ok w n) (rest : CalledInTurn call routines n m') :
      CalledInTurn call (routine :: routines) m m'

section Performing

variable {R : Type} {call : α → List Word → Run R Word} {x : Behaviour α β} {routines : List α}

/-- Code that answers has called all its routines. -/
theorem Behaviour.Calls.answered (h : x.Calls routines) {m m' : Machine R} {b : β}
    (hrun : x.perform call m = .ok b m') : CalledInTurn call routines m m' := by
  induction h generalizing m with
  | answer b =>
    cases hrun
    exact .none _
  | call routine args _ ih =>
    obtain ⟨w, n, hcall, hrest⟩ := Run.ok_of_bind hrun
    exact .next hcall (ih w hrest)

/-- Code stops only where a routine does that it calls. -/
theorem Behaviour.Calls.stopped (h : x.Calls routines) {m m' : Machine R} {e : Stop}
    (hrun : x.perform call m = .error e m') :
    ∃ before routine after args n, routines = before ++ routine :: after ∧
      CalledInTurn call before m n ∧ call routine args n = .error e m' := by
  induction h generalizing m with
  | answer b => cases hrun
  | @call routine args next routines _ ih =>
    cases hcall : call routine args m with
    | error e' n =>
      have hstop := (Run.bind_of_error hcall _).symm.trans hrun
      cases hstop
      exact ⟨[], routine, routines, args, m, rfl, .none m, hcall⟩
    | ok w n =>
      obtain ⟨before, stopping, after, words, n', hsplit, hturn, hstop⟩ :=
        ih w ((Run.bind_of_ok hcall _).symm.trans hrun)
      exact ⟨routine :: before, stopping, after, words, n', by rw [hsplit, List.cons_append],
        .next hcall hturn, hstop⟩

end Performing

/-- Instructions do the same that do the same one by one. -/
theorem inOrder_congr {ι κ : Type} {effect : Array Word → ι → Behaviour α Word}
    {effect' : Array Word → κ → Behaviour α Word} {is : List ι} {js : List κ}
    (h : List.Forall₂ (fun i j => ∀ values, effect values i = effect' values j) is js) :
    ∀ values, inOrder effect is values = inOrder effect' js values := by
  induction h with
  | nil => exact fun _ => rfl
  | cons hij _ ih =>
    intro values
    rw [inOrder, inOrder, hij]
    exact congrArg _ (funext fun w => ih _)

/-! ## Functions that code can be generated for -/

/-- What an instruction reads. -/
def IrInstr.reads : IrInstr → List Nat
  | add a b => [a, b]
  | select c a b => [c, a, b]
  | call _ args => args
  | same a => [a]
  | const _ => []

/-- Every one of these instructions reads what is filled before it, if this many slots are filled before
the first one. -/
def ReadsFilled {ι : Type} (reads : ι → List Nat) : Nat → List ι → Prop
  | _, [] => True
  | filled, i :: rest => (∀ a ∈ reads i, a < filled) ∧ ReadsFilled reads (filled + 1) rest

instance ReadsFilled.decidable {ι : Type} (reads : ι → List Nat) :
    ∀ filled is, Decidable (ReadsFilled reads filled is)
  | _, [] => .isTrue trivial
  | filled, _ :: rest =>
    @instDecidableAnd _ _ inferInstance (ReadsFilled.decidable reads (filled + 1) rest)

/-- A function whose values are there when they are used, and whose calls go by what is declared. -/
structure IrFunction.WellFormed (f : IrFunction) (declaration? : FuncId → Option Declaration) :
    Prop where
  reads : ReadsFilled IrInstr.reads f.signature.params f.body.toList
  calls : ∀ ref args, IrInstr.call ref args ∈ f.body.toList → ∃ id d, f.refs[ref]? = some id ∧
    declaration? id = some d ∧ d.signature = { params := args.length, returns := 1 }
  answer : f.answer < f.valueCount
  returns : f.signature.returns = 1

/-! ## Generators of code -/

namespace Backend

/-- What can be observed of the modules of a generator. -/
structure View (B : Backend α) where
  /-- How many functions can be declared. -/
  capacity : Nat
  declaration? : B.Module → FuncId → Option Declaration
  /-- The routine that is registered under a name. -/
  routine? : B.Module → String → Option α
  /-- Has a function code that can be run? -/
  Defined : B.Module → FuncId → Prop
  /-- How many more functions can be declared. -/
  room : B.Module → Nat

namespace View

variable {B : Backend α} (V : B.View)

/-- What is there stays as it is. -/
structure Keeps (M M' : B.Module) : Prop where
  routines : ∀ name, V.routine? M' name = V.routine? M name
  declarations : ∀ id d, V.declaration? M id = some d → V.declaration? M' id = some d
  defined : ∀ id, V.Defined M id → V.Defined M' id
  address : ∀ id, V.Defined M id → B.address M' id = B.address M id
  code : ∀ id, V.Defined M id → ∀ words,
    B.execute M' (B.address M id) words = B.execute M (B.address M id) words

/-- The routine that a reference of a function stands for. -/
def resolve (M : B.Module) (f : IrFunction) (ref : Nat) : Option α :=
  match f.refs[ref]?.bind (V.declaration? M) with
  | some { name, linkage := .imported, .. } => V.routine? M name
  | _ => none

/-- What the documentation of a generator promises. -/
structure Lawful : Prop where
  /-- Functions are numbered with 32-bit words. -/
  capacity_le : V.capacity ≤ 0x100000000
  /-- Of the routines registered under one name, the last one is kept. -/
  link : ∀ symbols, ∃ M, B.link symbols = .ok M ∧ V.room M = V.capacity ∧
    (∀ id, V.declaration? M id = none) ∧ ∀ name, V.routine? M name = symbols.reverse.lookup name
  /-- A new name gets a new number. -/
  declare : ∀ M d, 0 < V.room M → (∀ id e, V.declaration? M id = some e → e.name ≠ d.name) →
    ∃ id M', B.declare d M = .ok id M' ∧ V.Keeps M M' ∧ V.room M ≤ V.room M' + 1 ∧
      V.declaration? M id = none ∧ ¬ V.Defined M' id ∧
      ∀ j, V.declaration? M' j = if j = id then some d else V.declaration? M j
  /-- A function that was declared is defined once, and its code does what the function says. Other
  functions that were declared need not be defined. -/
  define : ∀ M id f name, V.declaration? M id = some { name, linkage := .own, signature := f.signature } →
    ¬ V.Defined M id → f.WellFormed (V.declaration? M) →
    (∀ ref < f.refs.size, (V.resolve M f ref).isSome) →
    ∃ M' M'', B.define id f M = .ok () M' ∧ B.finalize M' = .ok () M'' ∧ V.Keeps M M'' ∧
      V.room M'' = V.room M ∧ V.declaration? M'' = V.declaration? M ∧ V.Defined M'' id ∧
      ∀ words, words.length = f.signature.params →
        B.execute M'' (B.address M'' id) words = f.behaviour (V.resolve M f) words

namespace Keeps

variable {V} {M M' M'' : B.Module}

theorem refl (M : B.Module) : V.Keeps M M :=
  ⟨fun _ => rfl, fun _ _ h => h, fun _ h => h, fun _ _ => rfl, fun _ _ _ => rfl⟩

theorem trans (h : V.Keeps M M') (h' : V.Keeps M' M'') : V.Keeps M M'' where
  routines name := (h'.routines name).trans (h.routines name)
  declarations id d hd := h'.declarations id d (h.declarations id d hd)
  defined id hid := h'.defined id (h.defined id hid)
  address id hid := (h'.address id (h.defined id hid)).trans (h.address id hid)
  code id hid words := by
    have hcode := h'.code id (h.defined id hid) words
    rw [h.address id hid] at hcode
    exact hcode.trans (h.code id hid words)

end Keeps

end View

end Backend

/-! ## Code in functional form -/

namespace LinkedModule

/-- What can be observed of a module that keeps code in functional form. -/
def view (α : Type) : (linked α).View where
  capacity := capacity
  declaration? := fun M id => M.functions[id]?.map Prod.fst
  routine? := fun M name => M.symbols.lookup name
  Defined := fun M id => ∃ d code, M.functions[id]? = some (d, some code)
  room := fun M => capacity - M.functions.size

variable {M : LinkedModule α} {d : Declaration} {id : FuncId} {f : IrFunction}

theorem getElem?_of_declaration? (h : (view α).declaration? M id = some d) :
    ∃ code, M.functions[id]? = some (d, code) := by
  obtain ⟨entry, hentry, rfl⟩ := Option.map_eq_some_iff.mp h
  exact ⟨entry.2, hentry⟩

theorem declare_of_new (hroom : M.functions.size < capacity)
    (hnew : ∀ id e, (view α).declaration? M id = some e → e.name ≠ d.name) :
    declare d M =
      .ok M.functions.size { M with functions := M.functions.push (d, none) } := by
  have hfind : M.functions.findIdx? (·.1.name == d.name) = none := by
    refine Array.findIdx?_eq_none_iff.mpr fun entry hentry => ?_
    obtain ⟨id, hid⟩ := Array.getElem?_of_mem hentry
    exact beq_false_of_ne (hnew id entry.1 (by rw [view]; simp [hid]))
  rw [declare, Result.bind_of_ok (Result.get_apply M)]
  simp only [hfind, Nat.not_le.mpr hroom, if_false]
  rfl

theorem define_of_declared (h : M.functions[id]? = some (d, none)) (hd : d.linkage = .own) :
    define id f M = .ok () { M with
      functions := M.functions.set! id (d, some (f.behaviour fun ref => f.refs[ref]?.bind M.routine?)) } := by
  have himported : d.linkage ≠ .imported := by simp [hd]
  rw [define, Result.bind_of_ok (Result.get_apply M)]
  simp only [h, himported, if_false]
  rfl

/-- Functions may be added, and defined that are not yet. -/
theorem keeps_of_functions {M' : LinkedModule α} (hsymbols : M'.symbols = M.symbols)
    (h : ∀ (id : FuncId) d code, M.functions[id]? = some (d, code) →
      ∃ code', M'.functions[id]? = some (d, code') ∧ ∀ c, code = some c → code' = some c) :
    (view α).Keeps M M' where
  routines name := congrArg (·.lookup name) hsymbols
  declarations id d hd := by
    obtain ⟨code, hcode⟩ := getElem?_of_declaration? hd
    obtain ⟨code', hcode', -⟩ := h id d code hcode
    show M'.functions[id]?.map Prod.fst = some d
    rw [hcode']
    rfl
  defined id := by
    rintro ⟨d, c, hc⟩
    obtain ⟨code', hcode', hkept⟩ := h id d _ hc
    exact ⟨d, c, by rw [hcode', hkept c rfl]⟩
  address _ _ := rfl
  code id := by
    rintro ⟨d, c, hc⟩ words
    obtain ⟨code', hcode', hkept⟩ := h id d _ hc
    show execute M' id words = execute M id words
    rw [execute, execute, hcode', hc, hkept c rfl]

theorem keeps_push (M : LinkedModule α) (d : Declaration) :
    (view α).Keeps M { M with functions := M.functions.push (d, none) } := by
  refine keeps_of_functions rfl fun id e code h => ⟨code, ?_, fun _ hc => hc⟩
  have hid : id ≠ M.functions.size := Nat.ne_of_lt (Array.getElem?_eq_some_iff.mp h).1
  rw [Array.getElem?_push, if_neg hid, h]

theorem getElem?_set (h : M.functions[id]? = some (d, none)) (code : List Word → Behaviour α Word) :
    (M.functions.set! id (d, some code))[id]? = some (d, some code) := by
  rw [Array.set!_eq_setIfInBounds,
    Array.getElem?_setIfInBounds_self_of_lt (Array.getElem?_eq_some_iff.mp h).1]

theorem keeps_set (h : M.functions[id]? = some (d, none)) (code : List Word → Behaviour α Word) :
    (view α).Keeps M { M with functions := M.functions.set! id (d, some code) } := by
  refine keeps_of_functions rfl fun j e code' hj => ?_
  by_cases hid : id = j
  case pos =>
    subst hid
    rw [h] at hj
    cases hj
    exact ⟨some code, getElem?_set h code, by rintro _ ⟨⟩⟩
  case neg => exact ⟨code', by simp [Array.getElem?_setIfInBounds_ne hid, hj], fun _ hc => hc⟩

theorem resolve_eq (f : IrFunction) (ref : Nat) :
    (view α).resolve M f ref = f.refs[ref]?.bind M.routine? := by
  unfold Backend.View.resolve
  cases f.refs[ref]? with
  | none => rfl
  | some id =>
    show (match M.functions[id]?.map Prod.fst with
      | some { name, linkage := .imported, .. } => M.symbols.lookup name
      | _ => none) = M.routine? id
    unfold routine?
    cases M.functions[id]? with
    | none => rfl
    | some entry =>
      obtain ⟨⟨name, linkage, signature⟩, code⟩ := entry
      cases linkage <;> rfl

end LinkedModule

open LinkedModule in
/-- **Code in functional form does what a generator promises.** -/
theorem linked_lawful (α : Type) : (LinkedModule.view α).Lawful where
  capacity_le := show capacity ≤ 0x100000000 by decide
  link symbols := by
    refine ⟨{ symbols := symbols.reverse }, rfl, rfl, fun id => ?_, fun _ => rfl⟩
    show (#[] : Array (Declaration × Option (List Word → Behaviour α Word)))[id]?.map Prod.fst = none
    rfl
  declare M d hroom hnew := by
    have hsize : M.functions.size < capacity := Nat.lt_of_sub_pos hroom
    refine ⟨_, _, declare_of_new hsize hnew, keeps_push M d, ?_, ?_, ?_, fun j => ?_⟩
    · show capacity - M.functions.size ≤ capacity - (M.functions.push (d, none)).size + 1
      rw [Array.size_push]
      omega
    · show M.functions[M.functions.size]?.map Prod.fst = none
      simp
    · rintro ⟨e, code, hcode⟩
      simp at hcode
    · show (M.functions.push (d, none))[j]?.map Prod.fst = _
      rw [Array.getElem?_push]
      split <;> rfl
  define M id f name hdeclared hundefined _ _ := by
    obtain ⟨code, hcode⟩ := getElem?_of_declaration? hdeclared
    cases code with
    | some c => exact absurd ⟨_, c, hcode⟩ hundefined
    | none =>
      refine ⟨_, _, define_of_declared hcode rfl, rfl, keeps_set hcode _, ?_, ?_,
        ⟨_, _, getElem?_set hcode _⟩, fun words _ => ?_⟩
      · show capacity - (M.functions.set! id _).size = capacity - M.functions.size
        simp
      · funext j
        show (M.functions.set! id _)[j]?.map Prod.fst = M.functions[j]?.map Prod.fst
        by_cases hj : id = j
        · subst hj
          rw [getElem?_set hcode, hcode]
          rfl
        · simp [Array.getElem?_setIfInBounds_ne hj]
      · have hresolve : (fun ref => f.refs[ref]?.bind M.routine?) = (view α).resolve M f :=
          funext fun ref => (resolve_eq f ref).symm
        show execute { M with functions := M.functions.set! id _ } id words = _
        rw [execute]
        dsimp only
        rw [getElem?_set hcode, hresolve]

end TieredVm
