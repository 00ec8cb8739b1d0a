import TieredVm.Proofs.Helper.Linking

/-!
# What a body means, and how it is built

The meaning of a function to compile is read off its body, given the routines of the helpers: why it is
refused (`Source.offence`), what it does when it runs (`Source.behaviour`), and which routines it calls
(`Source.routines`). None of these mentions a module, a reference or a number.

* `Source.offence_eq_none`: nothing is wrong with a function that has few enough parameters, and whose
  calls pass as many words as the helper takes and go to helpers that have a routine.
* `Source.calls`: a function calls its routines in program order.
* `Source.build_spec`: a body is refused for the first offence in it, or it is generated.
* `Source.Generated.same`, `Source.Generated.wellFormed`: what is generated does what the source means,
  and code can be generated for it.
-/

namespace TieredVm

variable {α : Type}

/-! ## What is wrong with a function -/

/-- Why a helper cannot be called. -/
def HelperKind.offence (routine? : HelperKind → Option α) (k : HelperKind) : Option CompileError :=
  match routine? k with
  | some _ => none
  | none => some (.missingHelper k.symbol)

/-- Why an instruction is refused. The number of arguments is looked at first. -/
def Instr.offence (routine? : HelperKind → Option α) : Instr → Option CompileError
  | .call k args =>
    if args.length ≠ k.paramCount then some (.arityMismatch k.symbol k.paramCount args.length)
    else k.offence routine?
  | .require k => k.offence routine?
  | .const _ | .add _ _ | .select _ _ _ | .has _ => none

/-- Why a function is refused. The parameters are looked at before the body. -/
def Source.offence (routine? : HelperKind → Option α) (s : Source) : Option CompileError :=
  if maxParams < s.params then some (.arityMismatch "compiled function" maxParams s.params)
  else s.body.findSome? (Instr.offence routine?)

/-- A function with nothing wrong. -/
structure Source.Right (routine? : HelperKind → Option α) (s : Source) : Prop where
  params : s.params ≤ maxParams
  arity : ∀ k args, Instr.call k args ∈ s.body → args.length = k.paramCount
  called : ∀ k args, Instr.call k args ∈ s.body → (routine? k).isSome
  required : ∀ k, Instr.require k ∈ s.body → (routine? k).isSome

theorem HelperKind.offence_eq_none {routine? : HelperKind → Option α} {k : HelperKind} :
    k.offence routine? = none ↔ (routine? k).isSome := by
  unfold HelperKind.offence
  cases routine? k <;> simp

theorem Instr.offence_call_eq_none {routine? : HelperKind → Option α} {k : HelperKind} {args : List Nat} :
    (Instr.call k args).offence routine? = none ↔ args.length = k.paramCount ∧ (routine? k).isSome := by
  unfold Instr.offence
  by_cases harity : args.length = k.paramCount
  · simp [harity, HelperKind.offence_eq_none]
  · simp [harity]

/-- **Nothing is wrong with a function that has few enough parameters, and whose calls pass as many words
as the helper takes and go to helpers that have a routine.** -/
theorem Source.offence_eq_none {routine? : HelperKind → Option α} {s : Source} :
    s.offence routine? = none ↔ s.Right routine? := by
  unfold Source.offence
  constructor
  · intro h
    split at h
    · cases h
    next hparams =>
      rw [List.findSome?_eq_none_iff] at h
      exact ⟨Nat.not_lt.mp hparams, fun k args hmem => (Instr.offence_call_eq_none.mp (h _ hmem)).1,
        fun k args hmem => (Instr.offence_call_eq_none.mp (h _ hmem)).2,
        fun k hmem => HelperKind.offence_eq_none.mp (h _ hmem)⟩
  · intro h
    rw [if_neg (Nat.not_lt.mpr h.params), List.findSome?_eq_none_iff]
    intro i hi
    cases i with
    | call k args => exact Instr.offence_call_eq_none.mpr ⟨h.arity k args hi, h.called k args hi⟩
    | require k => exact HelperKind.offence_eq_none.mpr (h.required k hi)
    | _ => rfl

/-! ## What a function does -/

/-- What an instruction does. -/
def Instr.behaviour (routine? : HelperKind → Option α) (values : Array Word) : Instr → Behaviour α Word
  | .const w => pure w
  | .add a b => pure (valueAt values a + valueAt values b)
  | .select c a b => pure (if valueAt values c ≠ 0 then valueAt values a else valueAt values b)
  | .call k args =>
    match routine? k with
    | some routine => .call routine (args.map (valueAt values)) .answer
    | none => pure 0
  | .require _ => pure (valueAt values 0)
  | .has k => pure (if (routine? k).isSome then 1 else 0)

/-- What a function does when it is called with the context and its words. -/
def Source.behaviour (routine? : HelperKind → Option α) (s : Source) (words : List Word) :
    Behaviour α Word := do
  let values ← inOrder (Instr.behaviour routine?) s.body words.toArray
  return valueAt values (s.answer.getD (s.params + s.body.length))

/-- The routine that an instruction calls. -/
def Instr.routine (routine? : HelperKind → Option α) : Instr → Option α
  | .call k _ => routine? k
  | .const _ | .add _ _ | .select _ _ _ | .require _ | .has _ => none

/-- The routines that a function calls, in program order. -/
def Source.routines (routine? : HelperKind → Option α) (s : Source) : List α :=
  s.body.filterMap (Instr.routine routine?)

theorem Instr.calls (routine? : HelperKind → Option α) (values : Array Word) (i : Instr) :
    (i.behaviour routine? values).Calls (i.routine routine?).toList := by
  cases i with
  | call k args =>
    simp only [Instr.behaviour, Instr.routine]
    cases routine? k with
    | none => exact .answer 0
    | some routine => exact .call routine _ .answer
  | _ => exact .answer _

theorem inOrder_calls (routine? : HelperKind → Option α) (is : List Instr) (values : Array Word) :
    (inOrder (Instr.behaviour routine?) is values).Calls (is.filterMap (Instr.routine routine?)) := by
  induction is generalizing values with
  | nil => exact .answer values
  | cons i is ih =>
    have hsplit : (i :: is).filterMap (Instr.routine routine?) =
        (i.routine routine?).toList ++ is.filterMap (Instr.routine routine?) := by
      rw [List.filterMap_cons]
      cases i.routine routine? <;> rfl
    rw [inOrder, hsplit]
    exact (i.calls routine? values).bind fun w => ih _

/-- **A function calls its routines in program order.** -/
theorem Source.calls (routine? : HelperKind → Option α) (s : Source) (words : List Word) :
    (s.behaviour routine? words).Calls (s.routines routine?) := by
  have h := (inOrder_calls routine? s.body words.toArray).bind fun values =>
    Behaviour.Calls.answer (α := α) (valueAt values (s.answer.getD (s.params + s.body.length)))
  rwa [List.append_nil] at h

/-! ## How a body is built -/

/-- A function that uses no slot before it is filled. -/
structure Source.Closed (s : Source) : Prop where
  reads : ReadsFilled Instr.reads (s.params + 1) s.body
  answer : ∀ slot, s.answer = some slot → slot ≤ s.params + s.body.length

theorem Source.Closed.answer_le {s : Source} (h : s.Closed) :
    s.answer.getD (s.params + s.body.length) ≤ s.params + s.body.length := by
  cases hslot : s.answer with
  | none => exact Nat.le_refl _
  | some slot => exact h.answer slot hslot

/-- References to helpers that stand for these routines. -/
structure HelperTable.Links (refs : HelperTable Nat) (resolve : Nat → Option α)
    (routine? : HelperKind → Option α) : Prop where
  set : ∀ k a, routine? k = some a → ∃ r, refs.get? k = some r ∧ resolve r = some a
  unset : ∀ k, routine? k = none → refs.get? k = none

/-- A generated instruction that does what the one it is generated for means. -/
structure Instr.Lowered (refs : HelperTable Nat) (resolve : Nat → Option α)
    (routine? : HelperKind → Option α) (i : Instr) (j : IrInstr) : Prop where
  /-- Slot 0 holds the context. -/
  reads : ∀ a ∈ j.reads, a ∈ i.reads ∨ a = 0
  calls : ∀ ref args, j = .call ref args → ∃ k, refs.get? k = some ref ∧ args.length = k.paramCount
  same : ∀ values, i.behaviour routine? values = j.behaviour resolve values

section Building

variable {refs : HelperTable Nat} {resolve : Nat → Option α} {routine? : HelperKind → Option α}

theorem HelperTable.Links.isSome_eq (h : refs.Links resolve routine?) (k : HelperKind) :
    (refs.get? k).isSome = (routine? k).isSome := by
  cases hk : routine? k with
  | none =>
    rw [h.unset k hk]
    rfl
  | some a =>
    obtain ⟨r, hr, -⟩ := h.set k a hk
    rw [hr]
    rfl

/-- A helper that has to be there is found if it has a routine. -/
theorem HelperTable.Links.require (h : refs.Links resolve routine?) (k : HelperKind) :
    (∃ e, k.offence routine? = some e ∧ refs.require k = .error e) ∨
      ∃ a r, k.offence routine? = none ∧ refs.require k = .ok r ∧ routine? k = some a ∧
        refs.get? k = some r ∧ resolve r = some a := by
  unfold HelperTable.require HelperKind.offence
  cases hk : routine? k with
  | none => exact .inl ⟨_, rfl, by rw [h.unset k hk]⟩
  | some a =>
    obtain ⟨r, hr, hresolve⟩ := h.set k a hk
    exact .inr ⟨a, r, rfl, by rw [hr], rfl, hr, hresolve⟩

/-- An instruction is refused for its offence, or it is generated. -/
theorem Instr.lower_spec (h : refs.Links resolve routine?) (i : Instr) :
    (∃ e, i.offence routine? = some e ∧ i.lower refs = .error e) ∨
      ∃ j, i.offence routine? = none ∧ i.lower refs = .ok j ∧ i.Lowered refs resolve routine? j := by
  cases i with
  | call k args =>
    simp only [Instr.lower, HelperTable.call, Instr.offence]
    by_cases harity : args.length = k.paramCount
    case neg => exact .inl ⟨_, if_pos harity, by rw [if_pos harity]; rfl⟩
    case pos =>
      simp only [harity, ne_eq, not_true_eq_false, if_false]
      obtain ⟨e, hoffence, hrequire⟩ | ⟨a, r, hoffence, hrequire, ha, hr, hresolve⟩ := h.require k
      · exact .inl ⟨e, hoffence, by rw [hrequire]; rfl⟩
      · refine .inr ⟨.call r args, hoffence, by rw [hrequire]; rfl, fun _ h => .inl h, ?_,
          fun values => ?_⟩
        · intro ref args' heq
          cases heq
          exact ⟨k, hr, harity⟩
        · simp only [Instr.behaviour, IrInstr.behaviour, ha, hresolve]
  | require k =>
    obtain ⟨e, hoffence, hrequire⟩ | ⟨a, r, hoffence, hrequire, -⟩ := h.require k
    · exact .inl ⟨e, hoffence, by rw [Instr.lower, hrequire]; rfl⟩
    · exact .inr ⟨.same 0, hoffence, by rw [Instr.lower, hrequire]; rfl,
        fun _ hslot => .inr (List.mem_singleton.mp hslot), by rintro _ _ ⟨⟩, fun _ => rfl⟩
  | has k =>
    refine .inr ⟨_, rfl, rfl, fun _ h => absurd h List.not_mem_nil, by rintro _ _ ⟨⟩,
      fun values => ?_⟩
    rw [Instr.behaviour, IrInstr.behaviour, h.isSome_eq]
  | const w => exact .inr ⟨.const w, rfl, rfl, fun _ h => .inl h, by rintro _ _ ⟨⟩, fun _ => rfl⟩
  | add a b => exact .inr ⟨.add a b, rfl, rfl, fun _ h => .inl h, by rintro _ _ ⟨⟩, fun _ => rfl⟩
  | select c a b =>
    exact .inr ⟨.select c a b, rfl, rfl, fun _ h => .inl h, by rintro _ _ ⟨⟩, fun _ => rfl⟩

/-- Adds instructions at the end. -/
def IrFunction.extend (f : IrFunction) (js : List IrInstr) : IrFunction :=
  { f with body := f.body ++ js.toArray }

@[simp] theorem IrFunction.extend_nil (f : IrFunction) : f.extend [] = f := by simp [extend]

@[simp] theorem IrFunction.extend_emit (f : IrFunction) (j : IrInstr) (js : List IrInstr) :
    (f.emit j).extend js = f.extend (j :: js) := by simp [extend, emit]

@[simp] theorem IrFunction.valueCount_emit (f : IrFunction) (j : IrInstr) :
    (f.emit j).valueCount = f.valueCount + 1 := by simp [emit, valueCount, Nat.add_assoc]

@[simp] theorem IrFunction.valueCount_extend (f : IrFunction) (js : List IrInstr) :
    (f.extend js).valueCount = f.valueCount + js.length := by simp [extend, valueCount, Nat.add_assoc]

/-- A body is refused for the first offence in it, or it is generated. -/
theorem foldlM_build (h : refs.Links resolve routine?) : ∀ (is : List Instr) (f : IrFunction),
    ReadsFilled Instr.reads f.valueCount is →
    (∃ e, is.findSome? (Instr.offence routine?) = some e ∧
        is.foldlM (IrFunction.build refs) f = .error (.refused e)) ∨
      ∃ js, is.findSome? (Instr.offence routine?) = none ∧
        is.foldlM (IrFunction.build refs) f = .ok (f.extend js) ∧
        List.Forall₂ (Instr.Lowered refs resolve routine?) is js := by
  intro is
  induction is with
  | nil => exact fun f _ => .inr ⟨[], rfl, by rw [IrFunction.extend_nil]; rfl, .nil⟩
  | cons i is ih =>
    intro f hreads
    have hfilled : i.reads.find? (f.valueCount ≤ ·) = none := by
      refine List.find?_eq_none.mpr fun a ha => ?_
      simpa using hreads.1 a ha
    obtain ⟨e, hoffence, hlower⟩ | ⟨j, hoffence, hlower, hlowered⟩ := Instr.lower_spec h i
    · refine .inl ⟨e, by rw [List.findSome?_cons, hoffence], ?_⟩
      rw [List.foldlM_cons, IrFunction.build, hfilled, hlower]
      rfl
    · have hbuild : IrFunction.build refs f i = .ok (f.emit j) := by
        rw [IrFunction.build, hfilled, hlower]
      rw [List.foldlM_cons, hbuild, List.findSome?_cons, hoffence]
      show (∃ e, _ ∧ is.foldlM (IrFunction.build refs) (f.emit j) = _) ∨
        ∃ js, _ ∧ is.foldlM (IrFunction.build refs) (f.emit j) = _ ∧ _
      obtain ⟨e, he, hrest⟩ | ⟨js, hnone, hrest, hall⟩ := ih (f.emit j) (by simpa using hreads.2)
      · exact .inl ⟨e, he, hrest⟩
      · exact .inr ⟨j :: js, hnone, by rw [hrest, IrFunction.extend_emit], .cons hlowered hall⟩

/-- A function that is generated for a source. -/
structure Source.Generated (refs : HelperTable Nat) (resolve : Nat → Option α)
    (routine? : HelperKind → Option α) (s : Source) (f g : IrFunction) : Prop where
  body : List.Forall₂ (Instr.Lowered refs resolve routine?) s.body g.body.toList
  answer : g.answer = s.answer.getD (s.params + s.body.length)
  refs : g.refs = f.refs
  signature : g.signature = f.signature

/-- **A body is refused for the first offence in it, or it is generated.** -/
theorem Source.build_spec {s : Source} {f : IrFunction} (h : refs.Links resolve routine?)
    (hs : s.Closed) (hparams : f.signature.params = s.params + 1) (hbody : f.body = #[]) :
    (∃ e, s.body.findSome? (Instr.offence routine?) = some e ∧ s.build refs f = .error (.refused e)) ∨
      ∃ g, s.body.findSome? (Instr.offence routine?) = none ∧ s.build refs f = .ok g ∧
        s.Generated refs resolve routine? f g := by
  have hcount : f.valueCount = s.params + 1 := by
    rw [IrFunction.valueCount, hparams, hbody]
    rfl
  obtain ⟨e, hoffence, hfold⟩ | ⟨js, hoffence, hfold, hall⟩ :=
    foldlM_build h s.body f (hcount ▸ hs.reads)
  · exact .inl ⟨e, hoffence, by rw [Source.build, hfold]; rfl⟩
  · have hfilled : (f.extend js).valueCount = s.params + s.body.length + 1 := by
      rw [IrFunction.valueCount_extend, hcount, ← hall.length_eq]
      omega
    have hanswer : ¬ s.params + s.body.length + 1 ≤ s.answer.getD (s.params + s.body.length) :=
      Nat.not_lt.mpr hs.answer_le
    refine .inr ⟨{ f.extend js with answer := s.answer.getD (s.params + s.body.length) }, hoffence, ?_,
      by simpa [IrFunction.extend, hbody] using hall, rfl, rfl, rfl⟩
    rw [Source.build, hfold]
    simp only [bind, Except.bind, hfilled, Nat.add_sub_cancel, hanswer, if_false]
    rfl

/-- What is generated does what the source means. -/
theorem Source.Generated.same {s : Source} {f g : IrFunction}
    (h : s.Generated refs resolve routine? f g) (words : List Word) :
    g.behaviour resolve words = s.behaviour routine? words := by
  have hbody := inOrder_congr (h.body.imp fun i j hij => hij.same) words.toArray
  rw [IrFunction.behaviour, Source.behaviour, hbody, h.answer]

theorem ReadsFilled.lowered {is : List Instr} {js : List IrInstr} {filled : Nat}
    (h : ReadsFilled Instr.reads filled is) (hpos : 0 < filled)
    (hall : List.Forall₂ (Instr.Lowered refs resolve routine?) is js) :
    ReadsFilled IrInstr.reads filled js := by
  induction hall generalizing filled with
  | nil => exact trivial
  | cons hij _ ih =>
    refine ⟨fun a ha => ?_, ih h.2 (Nat.succ_pos _)⟩
    obtain hread | rfl := hij.reads a ha
    · exact h.1 a hread
    · exact hpos

/-- Code can be generated for it, if the helpers that are referred to are declared as such. -/
theorem Source.Generated.wellFormed {s : Source} {f g : IrFunction}
    {declaration? : FuncId → Option Declaration} (h : s.Generated refs resolve routine? f g)
    (hs : s.Closed) (hsignature : f.signature = { params := s.params + 1, returns := 1 })
    (hdeclared : ∀ (k : HelperKind) (ref : Nat), refs.get? k = some ref →
      ∃ id, f.refs[ref]? = some id ∧ declaration? id = some k.declaration) :
    g.WellFormed declaration? where
  reads := by
    rw [h.signature, hsignature]
    exact hs.reads.lowered (Nat.succ_pos _) h.body
  calls ref args hmem := by
    obtain ⟨n, hn, hget⟩ := List.getElem_of_mem hmem
    have hlowered := h.body.get (h.body.length_eq ▸ hn) hn
    obtain ⟨k, hk, hlength⟩ := hlowered.calls ref args hget
    obtain ⟨id, hid, hd⟩ := hdeclared k ref hk
    exact ⟨id, _, h.refs ▸ hid, hd, by rw [HelperKind.declaration, hlength, HelperKind.returnCount]⟩
  answer := by
    have hcount : g.valueCount = s.params + s.body.length + 1 := by
      have hlength : s.body.length = g.body.size := by simpa using h.body.length_eq
      rw [IrFunction.valueCount, h.signature, hsignature, hlength]
      exact Nat.add_right_comm _ _ _
    rw [h.answer, hcount]
    exact Nat.lt_succ_of_le hs.answer_le
  returns := by rw [h.signature, hsignature]

end Building

end TieredVm
