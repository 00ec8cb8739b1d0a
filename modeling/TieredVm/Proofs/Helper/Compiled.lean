import TieredVm.Proofs.Helper.Importing
import TieredVm.Proofs.Helper.Lowering

/-!
# Compiled functions

A compiler keeps one module for all its functions, and a function that is refused leaves something behind
in it: a declaration without code, and a number that is used up. `Sound` is what every attempt keeps all
the same. The helpers that are set are imported with their routines, what else is declared has a smaller
number than the next function, and the builder is idle. With it, one attempt goes by the body alone
(`Sound.compile`). What is there stays as it is (`View.Keeps`), so it is still true after any number of
others (`Sound.compileAll`).

* `Sound.links`: references of a function under construction stand for the routines of the helpers.
* `Sound.compile`: a function is refused for its first offence, or it is compiled.
* `Embodies.later`: an artifact does what its body means from then on.
* **`compileAll_due`**: what is due to each of the functions that one compiler was given.

How helpers get into the module is in `TieredVm.Proofs.Helper.Importing`, what a body means in
`TieredVm.Proofs.Helper.Lowering`. That the generator of code does what it is told is assumed
(`View.Lawful`).
-/

namespace TieredVm

variable {α : Type}

namespace Backend.View

variable {B : Backend α} {V : B.View} {M : B.Module} {f g : IrFunction}

/-- A reference to an imported helper stands for its routine. -/
theorem resolve_of_imported {k : HelperKind} {ref : Nat} {id : FuncId} (hid : f.refs[ref]? = some id)
    (hd : V.declaration? M id = some k.declaration) : V.resolve M f ref = V.routine? M k.symbol := by
  rw [resolve, hid, Option.bind_some, hd]
  rfl

theorem resolve_congr (h : g.refs = f.refs) : V.resolve M g = V.resolve M f := by
  funext ref
  rw [resolve, resolve, h]

end Backend.View

namespace Compiler

variable {B : Backend α} {V : B.View} {routine? : HelperKind → Option α} {n : Nat} {c : Compiler B}

/-! ## Steps of a compiler -/

theorem inModule_of_ok {β : Type} {act : EStateM String B.Module β} {b : β} {M : B.Module}
    (h : act c.module = .ok b M) : inModule act c = .ok b { c with module := M } := by
  rw [inModule, h]

/-- A symbol is given out once. -/
theorem nextSymbol_of_lt (h : c.nextId < 0xffffffffffffffff) (name : String) :
    nextSymbol name c = .ok (symbolFor name c.nextId) { c with nextId := c.nextId + 1 } := by
  have hmin : min (c.nextId + 1) 0xffffffffffffffff = c.nextId + 1 := Nat.min_eq_left h
  show EStateM.Result.ok (symbolFor name c.nextId) { c with nextId := min (c.nextId + 1) _ } = _
  rw [hmin]

theorem building_of_ok (h : c.builderIdle = true) (f : IrFunction) : building (.ok f) c = .ok f c := by
  obtain ⟨M, imports, next, idle⟩ := c
  subst h
  rfl

theorem building_of_refused (h : c.builderIdle = true) (e : CompileError) :
    building (.error (.refused e)) c = .error (.refused e) c := by
  obtain ⟨M, imports, next, idle⟩ := c
  subst h
  rfl

theorem Sound.imported_later (h : Sound V routine? n c) {M : B.Module} (hkeeps : V.Keeps c.module M)
    (k : HelperKind) (a : α) (hk : routine? k = some a) : ∃ id, c.imports.get? k = some id ∧
      V.declaration? M id = some k.declaration ∧ V.routine? M k.symbol = some a := by
  obtain ⟨id, hid, hd, hroutine⟩ := h.imported k a hk
  exact ⟨id, hid, hkeeps.declarations id _ hd, (hkeeps.routines _).trans hroutine⟩

/-- A function of the module's own is declared under a new number. -/
theorem Sound.declareOwn (hV : V.Lawful) (h : Sound V routine? (n + 1) c) (name : String)
    (signature : Signature) :
    ∃ id c', Compiler.declareOwn name signature c = .ok id c' ∧ Sound V routine? n c' ∧
      V.Keeps c.module c'.module ∧ ¬ V.Defined c'.module id ∧
      V.declaration? c'.module id =
        some { name := symbolFor name c.nextId, linkage := .own, signature } := by
  have hnumbers := h.numbers
  have hroom := h.room
  have hnew : ∀ id d, V.declaration? c.module id = some d → d.name ≠ symbolFor name c.nextId := by
    intro id d hd hname
    obtain ⟨k, hk⟩ | ⟨other, i, hi, hother⟩ := h.names id d hd
    · exact symbolFor_ne_symbol name c.nextId k (hname.symm.trans hk)
    · exact absurd (symbolFor_inj (hother.symm.trans hname)) (Nat.ne_of_lt hi)
  obtain ⟨id, M, hdeclare, hkeeps, hleft, -, hundefined, hdeclared⟩ :=
    hV.declare c.module { name := symbolFor name c.nextId, linkage := .own, signature } (by omega) hnew
  refine ⟨id, { c with module := M, nextId := c.nextId + 1 }, ?_, ?_, hkeeps, hundefined, ?_⟩
  · rw [Compiler.declareOwn, Result.bind_of_ok (nextSymbol_of_lt (by omega) name)]
    exact inModule_of_ok hdeclare
  · refine ⟨h.idle, h.imported_later hkeeps, h.unset, fun j d hd => ?_, ?_, ?_⟩
    · rw [hdeclared] at hd
      split at hd
      · cases hd
        exact .inr ⟨name, c.nextId, Nat.lt_succ_self _, rfl⟩
      · obtain hk | ⟨other, i, hi, hother⟩ := h.names j d hd
        · exact .inl hk
        · exact .inr ⟨other, i, Nat.lt_succ_of_lt hi, hother⟩
    · show n ≤ V.room M
      omega
    · show c.nextId + 1 + n ≤ 0x100000000
      omega
  · show V.declaration? M id = _
    rw [hdeclared, if_pos rfl]

/-- A function that was declared is defined. -/
theorem Sound.defineOwn (hV : V.Lawful) (h : Sound V routine? n c) {id : FuncId} {name : String}
    {f : IrFunction}
    (hdeclared : V.declaration? c.module id = some { name, linkage := .own, signature := f.signature })
    (hundefined : ¬ V.Defined c.module id) (hf : f.WellFormed (V.declaration? c.module))
    (hrefs : ∀ ref < f.refs.size, (V.resolve c.module f ref).isSome) :
    ∃ c', Compiler.defineOwn id f c = .ok () c' ∧ Sound V routine? n c' ∧ V.Keeps c.module c'.module ∧
      V.Defined c'.module id ∧ ∀ words, words.length = f.signature.params →
        B.execute c'.module (B.address c'.module id) words = f.behaviour (V.resolve c.module f) words := by
  obtain ⟨M, M', hdefine, hfinalize, hkeeps, hroom, hsame, hdefined, hcode⟩ :=
    hV.define c.module id f name hdeclared hundefined hf hrefs
  refine ⟨{ c with module := M' }, ?_,
    ⟨h.idle, h.imported_later hkeeps, h.unset, ?_, ?_, h.numbers⟩, hkeeps, hdefined, hcode⟩
  · rw [Compiler.defineOwn, Result.bind_of_ok (inModule_of_ok hdefine)]
    exact inModule_of_ok hfinalize
  · show ∀ j d, V.declaration? M' j = some d → _
    rw [hsame]
    exact h.names
  · show n ≤ V.room M'
    rw [hroom]
    exact h.room

/-! ## Helpers of a compiler -/

section References

variable {f₀ f : IrFunction} {refs : HelperTable Nat}

/-- A helper that is imported has a routine. -/
theorem Sound.of_import (h : Sound V routine? n c) {k : HelperKind} {id : FuncId}
    (hid : c.imports.get? k = some id) : ∃ a, routine? k = some a ∧
      V.declaration? c.module id = some k.declaration ∧ V.routine? c.module k.symbol = some a := by
  cases hk : routine? k with
  | none =>
    rw [h.unset k hk] at hid
    cases hid
  | some a =>
    obtain ⟨j, hj, hd, hroutine⟩ := h.imported k a hk
    rw [hid] at hj
    cases hj
    exact ⟨a, rfl, hd, hroutine⟩

/-- **The references of a function stand for the routines of the helpers.** -/
theorem Sound.links (h : Sound V routine? n c) (hrefs : Refers c.imports f₀ HelperKind.all refs f) :
    refs.Links (V.resolve c.module f) routine? where
  set k a hk := by
    obtain ⟨id, hid, hd, hroutine⟩ := h.imported k a hk
    obtain ⟨r, hr, hfound⟩ := hrefs.found k k.mem_all id hid
    exact ⟨r, hr, by rw [Backend.View.resolve_of_imported hfound hd, hroutine]⟩
  unset k hk := hrefs.unset k (h.unset k hk)

/-- No reference is left without a routine. -/
theorem Sound.resolves (h : Sound V routine? n c) (hrefs : Refers c.imports f₀ HelperKind.all refs f)
    {ref : Nat} (href : ref < f.refs.size) : (V.resolve c.module f ref).isSome := by
  obtain ⟨id, hid⟩ : ∃ id, f.refs[ref]? = some id := ⟨_, Array.getElem?_eq_getElem href⟩
  obtain ⟨k, hk⟩ := hrefs.only ref id hid
  obtain ⟨a, -, hd, hroutine⟩ := h.of_import hk
  rw [Backend.View.resolve_of_imported hid hd, hroutine]
  rfl

end References

/-! ## Compiling -/

/-- An artifact whose code does what a function means. -/
structure Embodies (V : B.View) (routine? : HelperKind → Option α) (M : B.Module) (s : Source)
    (a : Artifact) : Prop where
  params : a.params = s.params
  code : ∃ id, V.Defined M id ∧ B.address M id = a.code ∧ ∀ words, words.length = s.params + 1 →
    B.execute M a.code words = s.behaviour routine? words

/-- Nothing that is declared or defined later changes what an artifact does. -/
theorem Embodies.later {M M' : B.Module} {s : Source} {a : Artifact}
    (h : Embodies V routine? M s a) (hkeeps : V.Keeps M M') : Embodies V routine? M' s a := by
  obtain ⟨id, hdefined, haddress, hcode⟩ := h.code
  refine ⟨h.params, id, hkeeps.defined id hdefined, ?_, fun words hwords => ?_⟩
  · rw [hkeeps.address id hdefined, haddress]
  · rw [← hcode words hwords, ← haddress, hkeeps.code id hdefined]

theorem compile_of_params (c : Compiler B) {s : Source} (h : maxParams < s.params) :
    compile s c = .error (.refused (.arityMismatch "compiled function" maxParams s.params)) c := by
  rw [compile, if_pos h]
  rfl

/-- What is left to do when a function is declared. -/
theorem compile_of_declared {s : Source} (h : ¬ maxParams < s.params) {id : FuncId} {c' : Compiler B}
    (hdeclare : Compiler.declareOwn s.name { params := s.params + 1, returns := 1 } c = .ok id c') :
    compile s c = (do
      let (refs, f) := referAll c'.imports { signature := { params := s.params + 1, returns := 1 } }
      let f ← building (s.build refs f)
      Compiler.defineOwn id f
      return { code := B.address (← get).module id, params := s.params } : Compiling B Artifact) c' := by
  rw [compile, if_neg h]
  exact Result.bind_of_ok hdeclare _

theorem Sound.fewer (h : Sound V routine? (n + 1) c) : Sound V routine? n c :=
  { h with
    room := Nat.le_of_succ_le h.room
    numbers := Nat.le_of_succ_le h.numbers }

/-- What is generated for a function that was declared is defined, and does what the function means. -/
theorem Sound.generated (hV : V.Lawful) (h : Sound V routine? n c) {s : Source} (hs : s.Closed)
    {refs : HelperTable Nat} {f g : IrFunction}
    (hrefs : Refers c.imports { signature := { params := s.params + 1, returns := 1 } } HelperKind.all refs f)
    (hg : s.Generated refs (V.resolve c.module f) routine? f g) {id : FuncId} {name : String}
    (hdeclared : V.declaration? c.module id =
      some { name, linkage := .own, signature := { params := s.params + 1, returns := 1 } })
    (hundefined : ¬ V.Defined c.module id) :
    ∃ c', Compiler.defineOwn id g c = .ok () c' ∧ Sound V routine? n c' ∧
      V.Keeps c.module c'.module ∧
      Embodies V routine? c'.module s { code := B.address c'.module id, params := s.params } := by
  have hsignature : g.signature = { params := s.params + 1, returns := 1 } := by
    rw [hg.signature, hrefs.same]
  have hresolve : V.resolve c.module g = V.resolve c.module f := Backend.View.resolve_congr hg.refs
  have hwf : g.WellFormed (V.declaration? c.module) := by
    refine hg.wellFormed hs (hg.signature ▸ hsignature) fun k ref hk => ?_
    obtain ⟨j, hj, hfound⟩ := hrefs.target hk
    obtain ⟨a, -, hd, -⟩ := h.of_import hj
    exact ⟨j, hfound, hd⟩
  have hcalls : ∀ ref < g.refs.size, (V.resolve c.module g ref).isSome := fun ref href => by
    rw [hresolve]
    exact h.resolves hrefs (hg.refs ▸ href)
  obtain ⟨c', hdefine, h', hkeeps, hdefined, hcode⟩ :=
    h.defineOwn hV (by rw [hdeclared, hsignature]) hundefined hwf hcalls
  refine ⟨c', hdefine, h', hkeeps, rfl, id, hdefined, rfl, fun words hwords => ?_⟩
  rw [hcode words (by rw [hsignature, hwords]), hresolve, hg.same]

/-- **A function is refused for its first offence, or it is compiled. Either way the compiler goes on as
before.** -/
theorem Sound.compile (hV : V.Lawful) (h : Sound V routine? (n + 1) c) {s : Source} (hs : s.Closed) :
    ∃ c', Sound V routine? n c' ∧ V.Keeps c.module c'.module ∧
      ((∃ e, s.offence routine? = some e ∧ Compiler.compile s c = .error (.refused e) c') ∨
        ∃ a, s.offence routine? = none ∧ Compiler.compile s c = .ok a c' ∧
          Embodies V routine? c'.module s a) := by
  by_cases hparams : maxParams < s.params
  case pos => exact ⟨c, h.fewer, .refl _, .inl ⟨_, if_pos hparams, compile_of_params c hparams⟩⟩
  case neg =>
    have hoffence : s.offence routine? = s.body.findSome? (Instr.offence routine?) := if_neg hparams
    obtain ⟨id, c', hdeclare, h', hkeeps, hundefined, hdeclared⟩ :=
      h.declareOwn hV s.name { params := s.params + 1, returns := 1 }
    have hrefs := referAll_refers c'.imports { params := s.params + 1, returns := 1 }
    rw [compile_of_declared hparams hdeclare, hoffence]
    generalize referAll c'.imports { signature := { params := s.params + 1, returns := 1 } } = x at hrefs ⊢
    obtain ⟨refs, f⟩ := x
    dsimp only at hrefs ⊢
    obtain ⟨e, he, hbuild⟩ | ⟨g, hnone, hbuild, hg⟩ :=
      Source.build_spec (f := f) (h'.links hrefs) hs (by rw [hrefs.same]) (by rw [hrefs.same])
    · -- The function stays declared, and nothing refers to it.
      refine ⟨c', h', hkeeps, .inl ⟨e, he, ?_⟩⟩
      rw [hbuild]
      exact Result.bind_of_error (building_of_refused h'.idle e) _
    · obtain ⟨c'', hdefine, h'', hkeeps', hembodies⟩ :=
        h'.generated hV hs hrefs hg hdeclared hundefined
      refine ⟨c'', h'', hkeeps.trans hkeeps', .inr ⟨_, hnone, ?_, hembodies⟩⟩
      rw [hbuild, Result.bind_of_ok (building_of_ok h'.idle g), Result.bind_of_ok hdefine]
      rfl

/-! ## Compiling one function after the other -/

/-- The outcome that compiling a function has in a module. -/
def Outcome (V : B.View) (routine? : HelperKind → Option α) (M : B.Module) (s : Source) :
    Except Halt Artifact → Prop
  | .ok a => s.offence routine? = none ∧ Embodies V routine? M s a
  | .error e => ∃ offence, s.offence routine? = some offence ∧ e = .refused offence

theorem Outcome.later {M M' : B.Module} {s : Source} {r : Except Halt Artifact}
    (h : Outcome V routine? M s r) (hkeeps : V.Keeps M M') : Outcome V routine? M' s r := by
  cases r with
  | ok a => exact ⟨h.1, h.2.later hkeeps⟩
  | error e => exact h

/-- What comes of compiling a function, and the compiler afterwards. -/
def attempt (s : Source) (c : Compiler B) : Except Halt Artifact × Compiler B :=
  match compile s c with
  | .ok a c => (.ok a, c)
  | .error e c => (.error e, c)

/-- Compiles one function after the other, also after a failure. -/
def compileAll : List Source → Compiler B → List (Except Halt Artifact) × Compiler B
  | [], c => ([], c)
  | s :: rest, c =>
    let (r, c) := attempt s c
    let (results, c) := compileAll rest c
    (r :: results, c)

theorem Sound.attempt (hV : V.Lawful) (h : Sound V routine? (n + 1) c) {s : Source} (hs : s.Closed) :
    Sound V routine? n (Compiler.attempt s c).2 ∧
      V.Keeps c.module (Compiler.attempt s c).2.module ∧
      Outcome V routine? (Compiler.attempt s c).2.module s (Compiler.attempt s c).1 := by
  unfold Compiler.attempt
  obtain ⟨c', h', hkeeps, ⟨e, he, hcompile⟩ | ⟨a, hnone, hcompile, hembodies⟩⟩ := h.compile hV hs
  · rw [hcompile]
    exact ⟨h', hkeeps, e, he, rfl⟩
  · rw [hcompile]
    exact ⟨h', hkeeps, hnone, hembodies⟩

theorem Sound.compileAll (hV : V.Lawful) {sources : List Source} (hs : ∀ s ∈ sources, s.Closed)
    (h : Sound V routine? (sources.length + n) c) :
    Sound V routine? n (Compiler.compileAll sources c).2 ∧
      V.Keeps c.module (Compiler.compileAll sources c).2.module ∧
      List.Forall₂ (Outcome V routine? (Compiler.compileAll sources c).2.module) sources
        (Compiler.compileAll sources c).1 := by
  induction sources generalizing c with
  | nil => exact ⟨Nat.zero_add n ▸ h, .refl _, .nil⟩
  | cons s rest ih =>
    rw [List.length_cons, Nat.add_right_comm] at h
    obtain ⟨h', hkeeps, houtcome⟩ := h.attempt hV (hs s List.mem_cons_self)
    obtain ⟨h'', hkeeps', hrest⟩ := ih (fun s' hs' => hs s' (List.mem_cons_of_mem s hs')) h'
    exact ⟨h'', hkeeps.trans hkeeps', .cons (houtcome.later hkeeps') hrest⟩

/-! ## Running what was compiled -/

section Invoking

variable {R : Type} (call : α → List Word → Run R Word) {a : Artifact} (context : Word)
  {args : List Word}

/-- As many words as there are parameters reach the code. -/
theorem invoke_of_length (c : Compiler B) (h : args.length = a.params) (hmax : args.length ≤ maxParams) :
    c.invoke call a context args =
      Except.ok <$> (B.execute c.module a.code (context :: args)).perform call := by
  have hpass : ¬ (args.length ≠ a.params ∨ maxParams < args.length) :=
    not_or.mpr ⟨not_not.mpr h, Nat.not_lt.mpr hmax⟩
  unfold invoke
  rw [if_neg hpass]
  match args, hmax with
  | [], _ | [_], _ | [_, _], _ | [_, _, _], _ | [_, _, _, _], _ => rfl
  | _ :: _ :: _ :: _ :: _ :: rest, hmax => exact absurd hmax (by simp [maxParams])

/-- Any other number of words is answered without running anything. -/
theorem invoke_of_mismatch (c : Compiler B) (h : args.length ≠ a.params) :
    c.invoke call a context args =
      pure (.error (.arityMismatch "compiled function" a.params args.length)) := by
  unfold invoke
  rw [if_pos (.inl h)]

theorem Embodies.invoke {s : Source} (ha : Embodies V routine? c.module s a) (h : s.Right routine?)
    (hargs : args.length = s.params) : c.invoke call a context args =
      Except.ok <$> (s.behaviour routine? (context :: args)).perform call := by
  obtain ⟨id, -, -, hcode⟩ := ha.code
  rw [invoke_of_length call context c (hargs.trans ha.params.symm) (hargs ▸ h.params),
    hcode _ (by rw [List.length_cons, hargs])]

theorem Embodies.invoke_mismatch {s : Source} (ha : Embodies V routine? c.module s a)
    (hargs : args.length ≠ s.params) : c.invoke call a context args =
      pure (.error (.arityMismatch "compiled function" s.params args.length)) := by
  rw [invoke_of_mismatch call context c (ha.params ▸ hargs), ha.params]

end Invoking

/-- What is due to a function, given the routines of the helpers: to what came of compiling it, and to
invoking that with a compiler. -/
structure Due (routine? : HelperKind → Option α) (c : Compiler B) (s : Source)
    (r : Except Halt Artifact) : Prop where
  /-- It is compiled if nothing is wrong with it. -/
  succeeds : (∃ a, r = .ok a) ↔ s.Right routine?
  /-- Otherwise it is refused for the first thing that is wrong. -/
  refused : ∀ e, r = .error e ↔ ∃ offence, s.offence routine? = some offence ∧ e = .refused offence
  /-- With as many words as it has parameters, its body is run. -/
  runs : ∀ a, r = .ok a → ∀ {R : Type} (call : α → List Word → Run R Word) (context : Word)
    (args : List Word) (m : Machine R), args.length = s.params →
      c.invoke call a context args m =
        (Except.ok <$> (s.behaviour routine? (context :: args)).perform call) m
  /-- Otherwise the machine is left as it is. -/
  mismatch : ∀ a, r = .ok a → ∀ {R : Type} (call : α → List Word → Run R Word) (context : Word)
    (args : List Word) (m : Machine R), args.length ≠ s.params →
      c.invoke call a context args m =
        .ok (.error (.arityMismatch "compiled function" s.params args.length)) m
  /-- Running it calls the routines of the body in program order. -/
  answered : ∀ a, r = .ok a → ∀ {R : Type} (call : α → List Word → Run R Word) (context : Word)
    (args : List Word) (m m' : Machine R) (w : Word),
      c.invoke call a context args m = .ok (.ok w) m' → CalledInTurn call (s.routines routine?) m m'
  /-- It stops only in a routine, which is called in its turn. -/
  stopped : ∀ a, r = .ok a → ∀ {R : Type} (call : α → List Word → Run R Word) (context : Word)
    (args : List Word) (m m' : Machine R) (e : Stop),
      c.invoke call a context args m = .error e m' →
      ∃ before routine after words n, s.routines routine? = before ++ routine :: after ∧
        CalledInTurn call before m n ∧ call routine words n = .error e m'

theorem due_of_refused {s : Source} {e : CompileError} (h : s.offence routine? = some e) :
    Due routine? c s (.error (.refused e)) where
  succeeds := by
    have hwrong : ¬ s.Right routine? := fun hright => by
      rw [Source.offence_eq_none.mpr hright] at h
      cases h
    exact ⟨by rintro ⟨_, ⟨⟩⟩, fun hright => absurd hright hwrong⟩
  refused e' := by
    constructor
    · rintro ⟨⟩
      exact ⟨e, h, rfl⟩
    · rintro ⟨other, hother, rfl⟩
      rw [h] at hother
      cases hother
      rfl
  runs := by rintro _ ⟨⟩
  mismatch := by rintro _ ⟨⟩
  answered := by rintro _ ⟨⟩
  stopped := by rintro _ ⟨⟩

theorem due_of_embodies {s : Source} {a : Artifact} (h : s.Right routine?)
    (ha : Embodies V routine? c.module s a) : Due routine? c s (.ok a) where
  succeeds := ⟨fun _ => h, fun _ => ⟨a, rfl⟩⟩
  refused e := by
    constructor
    · rintro ⟨⟩
    · rintro ⟨offence, hoffence, -⟩
      rw [Source.offence_eq_none.mpr h] at hoffence
      cases hoffence
  runs := by
    rintro _ ⟨⟩ R call context args m hargs
    rw [ha.invoke call context h hargs]
  mismatch := by
    rintro _ ⟨⟩ R call context args m hargs
    rw [ha.invoke_mismatch call context hargs]
    rfl
  answered := by
    rintro _ ⟨⟩ R call context args m m' w hinvoke
    by_cases hargs : args.length = s.params
    case pos =>
      rw [ha.invoke call context h hargs] at hinvoke
      obtain ⟨w', hperform, -⟩ := Result.ok_of_map hinvoke
      exact (s.calls routine? _).answered hperform
    case neg =>
      rw [ha.invoke_mismatch call context hargs] at hinvoke
      cases hinvoke
  stopped := by
    rintro _ ⟨⟩ R call context args m m' e hinvoke
    by_cases hargs : args.length = s.params
    case pos =>
      rw [ha.invoke call context h hargs] at hinvoke
      exact (s.calls routine? _).stopped (Result.error_of_map hinvoke)
    case neg =>
      rw [ha.invoke_mismatch call context hargs] at hinvoke
      cases hinvoke

theorem Outcome.due {s : Source} {r : Except Halt Artifact}
    (h : Outcome V routine? c.module s r) : Due routine? c s r := by
  cases r with
  | error e =>
    obtain ⟨offence, hoffence, rfl⟩ := h
    exact due_of_refused hoffence
  | ok a => exact due_of_embodies (Source.offence_eq_none.mp h.1) h.2

/-- **Functions do not get in each other's way.** A compiler is given a table of helpers, whatever was set
in it, and then functions, one after the other. Each of them is compiled or refused by what its own body
says and the table has, whatever came of those before it. It does what its body means, also after others
were compiled or refused. -/
theorem compileAll_due (hV : V.Lawful) (sets : List (HelperKind × α)) (sources later : List Source)
    (hclosed : ∀ s ∈ sources ++ later, s.Closed)
    (hroom : HelperKind.all.length + (sources.length + later.length) ≤ V.capacity) :
    ∃ c, Compiler.new B (.ofSets sets) = .ok c ∧
      List.Forall₂ (Due (lastSet sets) (compileAll later (compileAll sources c).2).2) sources
        (compileAll sources c).1 := by
  obtain ⟨c, hnew, h⟩ := new_sound hV (.ofSets sets) hroom
  have hlast : (HelperTable.ofSets sets).get? = lastSet sets := funext (HelperTable.get?_ofSets sets)
  rw [hlast] at h
  have hsources : ∀ s ∈ sources, s.Closed := fun s hs => hclosed s (List.mem_append_left _ hs)
  have hlater : ∀ s ∈ later, s.Closed := fun s hs => hclosed s (List.mem_append_right _ hs)
  obtain ⟨h', -, houtcomes⟩ := h.compileAll hV hsources
  obtain ⟨-, hkeeps, -⟩ := Sound.compileAll (n := 0) hV hlater h'
  exact ⟨c, hnew, houtcomes.imp fun _ _ houtcome => (houtcome.later hkeeps).due⟩

namespace Mixed

/-- The addition is set twice, and the logical negation never. -/
def sets : List (HelperKind × String) :=
  [(.binary .add, "first"), (.typeOf, "kind"), (.binary .add, "second")]

/-- Some of these fail in between. -/
def sources : List Source :=
  [{ name := "sum", params := 2, body := [.call (.binary .add) [0, 1, 2]] },
    { name := "wide", params := 5, body := [.call .logicalNot []] },
    { name := "short", params := 1, body := [.call .logicalNot [0]] },
    { name := "missing", params := 1, body := [.call .typeOf [0, 1], .call .logicalNot [0, 1]] },
    { name := "sum", params := 1, body := [.call .typeOf [0, 1], .call (.binary .add) [0, 1, 2]] }]

/-- One that fails under a name that was used, and one that does not. -/
def later : List Source :=
  [{ name := "sum", params := 0, body := [.require .logicalNot] },
    { name := "none", params := 4, body := [] }]

theorem closed : ∀ s ∈ sources ++ later, s.Closed := by
  have hreads : ∀ s ∈ sources ++ later, ReadsFilled Instr.reads (s.params + 1) s.body := by decide
  have hanswer : ∀ s ∈ sources ++ later, s.answer = none := by decide
  exact fun s hs => ⟨hreads s hs, fun slot hslot => by rw [hanswer s hs] at hslot; cases hslot⟩

end Mixed

open Mixed in
theorem compileAll_due_mixed : (LinkedModule.view String).Lawful ∧
    (∀ s ∈ sources ++ later, s.Closed) ∧
    HelperKind.all.length + (sources.length + later.length) ≤ (LinkedModule.view String).capacity ∧
    (∃ c, Compiler.new (linked String) (.ofSets sets) = .ok c ∧
      List.Forall₂ (Due (lastSet sets) (compileAll later (compileAll sources c).2).2) sources
        (compileAll sources c).1) ∧
    sources.map (Source.offence (lastSet sets)) =
      [none, some (.arityMismatch "compiled function" 4 5), some (.arityMismatch "heron_rt_lnot" 2 1),
        some (.missingHelper "heron_rt_lnot"), none] ∧
    sources.map (Source.routines (lastSet sets)) =
      [["second"], [], [], ["kind"], ["kind", "second"]] := by
  have hroom : HelperKind.all.length + (sources.length + later.length) ≤
      (LinkedModule.view String).capacity := by decide
  exact ⟨linked_lawful String, closed, hroom,
    compileAll_due (linked_lawful String) sets sources later closed hroom, by decide +kernel,
    by decide +kernel⟩

end Compiler

end TieredVm
