import TieredVm.Proofs.History
import TieredVm.Proofs.Operator.Storage
import TieredVm.Proofs.Reference.Onward
import TieredVm.Proofs.Reference.Termination

/-!
# The texts of categories

The reference interpreter makes the text of a category when it is first asked for, and answers with the
same reference from then on. Cells are only ever added to its heap, so that reference stays good, and the
cell behind it is one that no other request has added.

* `State.Later`: what every request does to the heap and to the texts that are kept. The order of two
  states says which cells a text can lie in that was made between them.
* `TypeOfEnds`: the ways in which asking for a category ends.
* `later_request`: one request.
* `categories_interned`: whole runs, whatever else is allocated on the way and whichever operators panic.
-/

namespace TieredVm.Reference

variable {s s' s'' : State} {i j : Nat} {t : String} {v w x : Value} {k l : Category}

/-! ## Cells -/

/-- The value is a reference to a cell. -/
def RefersTo (i : Nat) (v : Value) : Prop :=
  ∃ tag p, p.addr = cellAddress i ∧ v = .ofPointer tag p

/-- The value is a text, and the cell behind it holds these characters. -/
def State.TextAt (s : State) (i : Nat) (t : String) (v : Value) : Prop :=
  s.cells[i]? = some (.text t) ∧ ∃ p, p.addr = cellAddress i ∧ v = .ofPointer .string p

/-- Cells were added at the end. -/
def State.Extends (s s' : State) : Prop := ∃ more, s'.cells = s.cells ++ more

theorem RefersTo.index_eq (hi : RefersTo i v) (hj : RefersTo j v) : i = j := by
  obtain ⟨t, p, hp, rfl⟩ := hi
  obtain ⟨u, q, hq, heq⟩ := hj
  have hpayload := congrArg Value.payload heq
  unfold Value.ofPointer at hpayload
  rw [Value.payload_boxed (Value.box_lt t) p.fits, Value.payload_boxed (Value.box_lt u) q.fits, hp, hq]
    at hpayload
  unfold cellAddress at hpayload
  omega

theorem State.cellAt?_of_addr {p : Pointer} (h : p.addr = cellAddress i) :
    s.cellAt? p = s.cells[i]? := by
  have hback : (heapBase + 16 * i - heapBase) / 16 = i := by omega
  unfold cellAt?
  rw [h, cellAddress, if_pos (by omega), hback]

namespace State.TextAt

theorem refersTo (h : s.TextAt i t v) : RefersTo i v :=
  h.2.elim fun p hp => ⟨.string, p, hp⟩

theorem lt_size (h : s.TextAt i t v) : i < s.cells.size :=
  (Array.getElem?_eq_some_iff.mp h.1).1

theorem tag (h : s.TextAt i t v) : v.tag = .heap .string := by
  obtain ⟨-, p, -, rfl⟩ := h
  exact Value.tag_ofPointer _ _

theorem textOf? (h : s.TextAt i t v) : s.textOf? v = .ok (some t) := by
  obtain ⟨hcell, p, hp, rfl⟩ := h
  have hcellAt : s.cellAt? p = some (.text t) := (cellAt?_of_addr hp).trans hcell
  unfold State.textOf?
  have hpointer : Kind.pointer? (.heap .string) (.heap .string p) = some p := rfl
  simp only [Value.asPointer?_of_kind (Value.kind_ofPointer _ _), hpointer, bind, Except.bind, hcellAt]
  rfl

/-- Cells do not change. -/
theorem mono (h : s.TextAt i t v) (hs : s.Extends s') : s'.TextAt i t v := by
  obtain ⟨more, hcells⟩ := hs
  refine ⟨?_, h.2⟩
  rw [hcells, Array.getElem?_append_left h.lt_size]
  exact h.1

end State.TextAt

/-- The text of a new cell. -/
theorem textAt_push {p : Pointer} (h : Pointer.ofAddr? (cellAddress s.cells.size) = some p)
    (hcells : s'.cells = s.cells.push (.text t)) : s'.TextAt s.cells.size t (.ofPointer .string p) := by
  refine ⟨by simp [hcells], p, ?_, rfl⟩
  unfold Pointer.ofAddr? at h
  split at h
  · rw [← Option.some.inj h]
  · cases h

namespace State.Extends

theorem trans (h : s.Extends s') (h' : s'.Extends s'') : s.Extends s'' := by
  obtain ⟨more, hm⟩ := h
  obtain ⟨more', hm'⟩ := h'
  exact ⟨more ++ more', by rw [hm', hm, Array.append_assoc]⟩

theorem size_le (h : s.Extends s') : s.cells.size ≤ s'.cells.size := by
  obtain ⟨more, hm⟩ := h
  rw [hm, Array.size_append]
  exact Nat.le_add_right _ _

theorem cellAt? (h : s.Extends s') {p : Pointer} (hp : (s.cellAt? p).isSome) :
    s'.cellAt? p = s.cellAt? p := by
  obtain ⟨more, hm⟩ := h
  unfold State.cellAt? at hp ⊢
  split
  · rename_i haddr
    rw [if_pos haddr] at hp
    rw [hm, Array.getElem?_append_left (Array.getElem?_eq_some_iff.mp (Option.get_mem hp)).1]
  · rfl

end State.Extends

/-! ## Categories -/

/-- What object a value refers to, if any, there is. -/
def State.Has (s : State) (x : Value) : Prop :=
  ∀ p, x.kind = .ok (.heap .object p) → (s.cellAt? p).isSome

/-- The category of a value, by its tag, and for an object by whether it is a function. -/
def categoryOf (function : Bool) : Tag → Category
  | .int | .float64 => .number
  | .bool => .boolean
  | .undefined => .undefined
  | .heap .string => .string
  | .heap .symbol => .symbol
  | .heap .bigInt => .bigint
  | .heap .object => if function then .function else .object
  | _ => .object

theorem code?_of_object {p : Pointer} (h : x.kind = .ok (.heap .object p)) :
    s.code? x = s.bytecode? p := by
  simp only [State.code?, Value.asPointer?_of_kind h, Kind.pointer?, if_true]

/-- **A category depends on the tag only, and for an object on whether it is a function.** -/
theorem toCategory_eq (hx : x.dangling = false) (s : State) :
    s.toCategory x = .ok (categoryOf (s.code? x).isSome x.tag) := by
  obtain ⟨k, hk⟩ := Value.exists_kind_of_shown hx
  rw [Value.tag_of_kind hk]
  cases k with
  | heap t p =>
    cases t with
    | object =>
      have hfunction : (s.code? x).isSome = s.isFunction p := congrArg Option.isSome (code?_of_object hk)
      simp only [State.toCategory, hk, hfunction, Kind.tag, categoryOf, bind, Except.bind, pure,
        Except.pure]
    | _ => simp only [State.toCategory, hk, bind, Except.bind, pure, Except.pure, Kind.tag, categoryOf]
  | _ => simp only [State.toCategory, hk, bind, Except.bind, pure, Except.pure, Kind.tag, categoryOf]

theorem dangling_of_toCategory {e : Violation} (h : s.toCategory x = .error e) : x.dangling = true := by
  by_contra hd
  rw [toCategory_eq (Bool.eq_false_iff.mpr hd)] at h
  cases h

theorem shown_of_toCategory (h : s.toCategory x = .ok k) : x.dangling = false := by
  cases hk : x.kind with
  | ok a => rw [Value.dangling, hk]
  | error e =>
    rw [State.toCategory, hk] at h
    cases h

/-- A cell keeps being a function, or not being one. -/
theorem State.Extends.toCategory (h : s.Extends s') (hx : s.Has x) (hd : x.dangling = false) :
    s'.toCategory x = s.toCategory x := by
  obtain ⟨k, hk⟩ := Value.exists_kind_of_shown hd
  rw [toCategory_eq hd, toCategory_eq hd, Value.tag_of_kind hk]
  cases k with
  | heap t p =>
    cases t with
    | object =>
      have hcell := h.cellAt? (hx p hk)
      rw [code?_of_object hk, code?_of_object hk, State.bytecode?, State.bytecode?, hcell]
    | _ => simp only [Kind.tag, categoryOf]
  | _ => simp only [Kind.tag, categoryOf]

theorem label_injective : ∀ k l : Category, k.label = l.label → k = l := by
  intro k l h
  cases k <;> cases l <;> first | rfl | exact absurd h (by decide)

/-! ## What requests do to the heap -/

/-- Cells were added, and no further text was kept for a category. -/
structure State.Added (s s' : State) : Prop where
  cells : s.Extends s'
  texts : s'.categoryTexts = s.categoryTexts

/-- Cells were added. Texts that were kept for categories still are, and those kept since then lie in
cells that were added. -/
structure State.Later (s s' : State) : Prop where
  cells : s.Extends s'
  kept : ∀ k v, s.categoryTexts k = some v → s'.categoryTexts k = some v
  fresh : ∀ k v, s.categoryTexts k = none → s'.categoryTexts k = some v →
    ∃ i, s.cells.size ≤ i ∧ s'.TextAt i k.label v

theorem State.Added.later (h : s.Added s') : s.Later s' where
  cells := h.cells
  kept k v hv := by rw [h.texts, hv]
  fresh k v hnone hv := by
    rw [h.texts, hnone] at hv
    cases hv

/-- Nothing of the heap changed. -/
theorem State.Added.of_same (hcells : s'.cells = s.cells)
    (htexts : s'.categoryTexts = s.categoryTexts) : s.Added s' :=
  ⟨⟨#[], by rw [hcells, Array.append_empty]⟩, htexts⟩

namespace State.Later

theorem refl (s : State) : s.Later s := (State.Added.of_same rfl rfl).later

theorem trans (h : s.Later s') (h' : s'.Later s'') : s.Later s'' where
  cells := h.cells.trans h'.cells
  kept k v hv := h'.kept k v (h.kept k v hv)
  fresh k v hnone hv := by
    cases hk : s'.categoryTexts k with
    | none =>
      obtain ⟨i, hi, htext⟩ := h'.fresh k v hk hv
      exact ⟨i, Nat.le_trans h.cells.size_le hi, htext⟩
    | some w =>
      obtain rfl := Option.some.inj ((h'.kept k w hk).symm.trans hv)
      obtain ⟨i, hi, htext⟩ := h.fresh k w hnone hk
      exact ⟨i, hi, htext.mono h'.cells⟩

/-- Where no text was kept before, different categories have different texts. -/
theorem text_eq_iff (h : s.Later s') (hs : ∀ k, s.categoryTexts k = none)
    (hv : s'.categoryTexts k = some v) (hw : s'.categoryTexts l = some w) : v = w ↔ k = l := by
  constructor
  · rintro rfl
    obtain ⟨i, -, htext⟩ := h.fresh k v (hs k) hv
    obtain ⟨j, -, htext'⟩ := h.fresh l v (hs l) hw
    obtain rfl := htext.refersTo.index_eq htext'.refersTo
    have hlabel := Cell.text.inj (Option.some.inj (htext.1.symm.trans htext'.1))
    exact label_injective k l hlabel
  · rintro rfl
    exact Option.some.inj (hv.symm.trans hw)

end State.Later

/-- The steps of entries only add cells. -/
theorem onward_added : Onward State.Added where
  refl s := .of_same rfl rfl
  trans h h' := ⟨h.cells.trans h'.cells, h'.texts.trans h.texts⟩
  step {_ _ act} hsteady _ hlabels s := by
    have hfin := hsteady s s (.refl s)
    have hgrown : s.Grown (Result.state (act s)) := by
      cases hr : act s with
      | ok a s' => rw [hr] at hfin; exact hfin.1
      | error e s' => rw [hr] at hfin; exact hfin.1
    exact ⟨hgrown.cells.elim fun texts h => ⟨_, h⟩, hlabels s⟩

/-! ## Asking for a category -/

/-- The ways in which asking for the category of a value ends. -/
inductive TypeOfEnds (m : Machine State) (x : Value) :
    EStateM.Result Stop (Machine State) Response → Prop where
  /-- The value refers to nothing. -/
  | panicked {p : Panic} {m' : Machine State} (dangling : x.dangling = true)
      (cells : m'.runtime.cells = m.runtime.cells)
      (texts : m'.runtime.categoryTexts = m.runtime.categoryTexts) :
      TypeOfEnds m x (.error (.panic p) m')
  /-- There is no room for the text. -/
  | full {m' : Machine State}
      (room : Pointer.ofAddr? (cellAddress m.runtime.cells.size) = none)
      (cells : m'.runtime.cells = m.runtime.cells)
      (texts : m'.runtime.categoryTexts = m.runtime.categoryTexts) :
      TypeOfEnds m x (.error (.abort .outOfMemory) m')
  /-- The text was kept. -/
  | kept {m' : Machine State} {k : Category} {v : Value}
      (category : m.runtime.toCategory x = .ok k) (kept : m.runtime.categoryTexts k = some v)
      (cells : m'.runtime.cells = m.runtime.cells)
      (texts : m'.runtime.categoryTexts = m.runtime.categoryTexts) :
      TypeOfEnds m x (.ok (.value v) m')
  /-- The text is made, and kept. -/
  | made {m' : Machine State} {k : Category} {p : Pointer}
      (category : m.runtime.toCategory x = .ok k) (unkept : m.runtime.categoryTexts k = none)
      (room : Pointer.ofAddr? (cellAddress m.runtime.cells.size) = some p)
      (cells : m'.runtime.cells = m.runtime.cells.push (.text k.label))
      (texts : m'.runtime.categoryTexts = fun l =>
        if l = k then some (.ofPointer .string p) else m.runtime.categoryTexts l) :
      TypeOfEnds m x (.ok (.value (.ofPointer .string p)) m')

namespace TypeOfEnds

variable {m m' : Machine State} {r : EStateM.Result Stop (Machine State) Response}

theorem later (h : TypeOfEnds m x r) : m.runtime.Later (Result.state r).runtime := by
  cases h with
  | panicked _ cells texts => exact (State.Added.of_same cells texts).later
  | full _ cells texts => exact (State.Added.of_same cells texts).later
  | kept _ _ cells texts => exact (State.Added.of_same cells texts).later
  | @made m' k p category unkept room cells texts =>
    refine ⟨⟨#[.text k.label], by rw [Result.state, cells, Array.push_eq_append]⟩, fun l v hv => ?_,
      fun l v hnone hv => ?_⟩
    · rw [Result.state, texts]
      dsimp only
      rw [if_neg (fun hl => by rw [hl, unkept] at hv; cases hv), hv]
    · rw [Result.state, texts] at hv
      dsimp only at hv
      split at hv
      · rename_i hl
        obtain rfl := Option.some.inj hv
        exact ⟨m.runtime.cells.size, Nat.le_refl _, hl ▸ textAt_push room cells⟩
      · rw [hnone] at hv
        cases hv

/-- What is answered is the text that is kept from then on. -/
theorem answered (h : TypeOfEnds m x (.ok (.value v) m')) (hk : m.runtime.toCategory x = .ok k) :
    m'.runtime.categoryTexts k = some v := by
  cases h with
  | kept category kept cells texts =>
    rw [hk] at category
    cases category
    rw [texts, kept]
  | made category unkept room cells texts =>
    rw [hk] at category
    cases category
    rw [texts]
    exact if_pos rfl

/-- At most the text is added. -/
theorem allocates (h : TypeOfEnds m x r) :
    (Result.state r).runtime.cells = m.runtime.cells ∨ ∃ k, m.runtime.toCategory x = .ok k ∧
      (Result.state r).runtime.cells = m.runtime.cells.push (.text k.label) := by
  cases h with
  | panicked _ cells _ | full _ cells _ | kept _ _ cells _ => exact .inl cells
  | made category _ _ cells _ => exact .inr ⟨_, category, cells⟩

end TypeOfEnds

variable (power : Double → Double → Double) {m : Machine State}

theorem typeOf_of_error {e : Violation} (h : m.runtime.toCategory x = .error e) :
    ∃ m', (interpreterWith power).typeOf x m = .error (Stop.violation e) m' ∧
      m'.runtime.cells = m.runtime.cells ∧ m'.runtime.categoryTexts = m.runtime.categoryTexts := by
  have hcategory : category x m.runtime = .error (Stop.violation e)
      { m.runtime with calls := m.runtime.calls ++ ["typeof_kind"] } := by
    rw [category, Result.bind_of_ok (noteCall_apply _ _)]
    exact observeLocal_of_error h
  have hrun : (interpreterWith power).typeOf x m = Run.violate e
      { m with runtime := { m.runtime with calls := m.runtime.calls ++ ["typeof_kind"] } } := by
    show Run.onRuntime (do
      let c ← category x
      release x
      categoryText c) m = _
    rw [Run.onRuntime, Result.bind_of_error hcategory]
    rfl
  exact ⟨_, hrun, rfl, rfl⟩

/-- **Asking for a category ends in one of these ways.** -/
theorem typeOf_ends (m : Machine State) (x : Value) :
    TypeOfEnds m x ((Request.typeOf x).perform (interpreterWith power) m) := by
  show TypeOfEnds m x (((interpreterWith power).typeOf x >>= fun v => pure (Response.value v)) m)
  cases hk : m.runtime.toCategory x with
  | error e =>
    obtain ⟨m', hrun, hcells, htexts⟩ := typeOf_of_error power hk
    rw [Run.bind_of_error hrun]
    exact .panicked (dangling_of_toCategory hk) hcells htexts
  | ok k =>
    rw [Run.bind_apply, typeOf_of_toCategory power m hk, Run.onRuntime, categoryText_apply]
    cases hkept : m.runtime.categoryTexts k with
    | some v => exact .kept hk hkept rfl rfl
    | none =>
      cases hroom : Pointer.ofAddr? (cellAddress m.runtime.cells.size) with
      | none => exact .full hroom rfl rfl
      | some p => exact .made hk hkept hroom rfl rfl

/-! ## Requests -/

/-- What the program around the machine does to the interpreter's state is to add cells. -/
def OnlyAdds (r : Request State) : Prop :=
  ∀ act, r = .host act → ∀ s : State, s.Added (Result.state (act s))

/-- Allocations add a cell, if there is room for it. -/
theorem added_allocation (a : Allocation) (s : State) : s.Added (Result.state (a.perform s)) := by
  rw [a.perform_eq]
  cases hr : allocate a.tag a.cell s with
  | ok v s' =>
    obtain ⟨p, -, -, rfl⟩ := allocate_of_ok hr
    exact ⟨⟨#[a.cell], Array.push_eq_append⟩, rfl⟩
  | error e s' =>
    unfold allocate at hr
    rw [Result.bind_of_ok (Result.get_apply s)] at hr
    cases hp : Pointer.ofAddr? (cellAddress s.cells.size) with
    | none =>
      rw [hp] at hr
      cases hr
      exact .of_same rfl rfl
    | some p =>
      rw [hp] at hr
      cases hr

/-- The program around the machine allocates. -/
def allocation (a : Allocation) : Request State := .host (Response.value <$> a.perform)

theorem onlyAdds_allocation (a : Allocation) : OnlyAdds (allocation a) := fun act h s => by
  cases h
  have hadded := added_allocation a s
  show s.Added (Result.state (EStateM.map Response.value a.perform s))
  unfold EStateM.map
  cases hr : a.perform s with
  | ok v s' => rw [hr] at hadded; exact hadded
  | error e s' => rw [hr] at hadded; exact hadded

theorem added_truth (x : Value) (s : State) : s.Added (Result.state (truth x s)) := by
  rw [truth, Result.bind_of_ok (noteCall_apply _ _)]
  cases ht : State.toTruth { s with calls := s.calls ++ ["to_bool_free"] } x with
  | ok b =>
    rw [Result.bind_of_ok (observeLocal_of_ok ht)]
    exact .of_same rfl rfl
  | error e =>
    rw [Result.bind_of_error (observeLocal_of_error ht)]
    exact .of_same rfl rfl

/-- A request that asks for no category keeps no text for one. -/
theorem added_request {r : Request State} (hr : OnlyAdds r) (hne : ∀ x, r ≠ .typeOf x) :
    (r.perform (interpreterWith power)).Advances State.Added := by
  have hbool : ∀ x, ((interpreterWith power).toBool x).Advances State.Added := fun x => by
    unfold Interpreter.toBool
    cases x.small? with
    | some payload => exact onward_added.of_same fun _ => rfl
    | none => exact onward_added.onRuntime (added_truth x)
  cases r with
  | typeOf x => exact absurd rfl (hne x)
  | host act => exact onward_added.onRuntime (hr act rfl)
  | toBool x => exact onward_added.bind (hbool x) fun _ => onward_added.of_same fun _ => rfl
  | logicalNot x =>
    refine onward_added.bind ?_ fun _ => onward_added.of_same fun _ => rfl
    unfold Interpreter.logicalNot
    cases x.asBool? with
    | some b => exact onward_added.of_same fun _ => rfl
    | none => exact onward_added.bind (hbool x) fun _ => onward_added.of_same fun _ => rfl
  | captured function index =>
    refine onward_added.bind ?_ fun _ => onward_added.of_same fun _ => rfl
    refine onward_added.advances_of_keeps (p := fun _ _ => True) fun s =>
      Regime.keeps_capturedOf objectModel (Onward.since_knows s _) (fun v _ s' hs => ?_) function index
    exact ⟨onward_added.trans hs (.of_same rfl rfl), fun _ _ _ => trivial⟩
  | _ => exact onward_added.request power id

/-- **What one request does** to the heap and to the texts that are kept. -/
theorem later_request {r : Request State} (hr : OnlyAdds r) (m : Machine State) :
    m.runtime.Later (Result.state (r.perform (interpreterWith power) m)).runtime := by
  by_cases hne : ∀ x, r ≠ .typeOf x
  case pos => exact (added_request power hr hne m).later
  case neg =>
    obtain ⟨x, rfl⟩ : ∃ x, r = .typeOf x := by simpa using hne
    exact (typeOf_ends power m x).later

/-! ## Runs -/

/-- A machine that is asked for the category of a value answers with the text of this one. -/
structure Told (I : Interpreter State) (n : Machine State) (x : Value) (k : Category) (v : Value) :
    Prop where
  category : n.runtime.toCategory x = .ok k
  answer : ∃ n', (Request.typeOf x).perform I n = .ok (.value v) n'

/-- The cells that a request adds. -/
def AddsCell (I : Interpreter State) (asked : Machine State × Request State) (i : Nat) : Prop :=
  asked.1.runtime.cells.size ≤ i ∧
    i < (Result.state (asked.2.perform I asked.1)).runtime.cells.size

/-- How many cells are added for the text of a category, when a value is asked for its own. -/
def cellsFor (I : Interpreter State) (k : Category) (asked : Machine State × Request State) : Nat :=
  match asked.2 with
  | .typeOf x =>
    match asked.1.runtime.toCategory x with
    | .ok l =>
      if l = k then
        (Result.state (asked.2.perform I asked.1)).runtime.cells.size - asked.1.runtime.cells.size
      else 0
    | .error _ => 0
  | _ => 0

/-- Along a run, the text of a category is one and the same. -/
structure CategoriesInterned (I : Interpreter State) (c : Caller State) (m : Machine State) : Prop where
  /-- The text of a category is answered, unless the value refers to nothing or there is no room. -/
  answered : ∀ n x, (n, .typeOf x) ∈ c.history I m → (∃ k v, Told I n x k v) ∨
    (x.dangling = true ∧ ∃ p n', (Request.typeOf x).perform I n = .error (.panic p) n') ∨
    (Pointer.ofAddr? (cellAddress n.runtime.cells.size) = none ∧
      ∃ n', (Request.typeOf x).perform I n = .error (.abort .outOfMemory) n')
  /-- Two answers are the same value when the categories are the same. -/
  same : ∀ n x k v n' x' k' v', (n, .typeOf x) ∈ c.history I m → (n', .typeOf x') ∈ c.history I m →
    Told I n x k v → Told I n' x' k' v' → (v = v' ↔ k = k')
  /-- An answer is a text, which is the category's name from then on. -/
  text : ∀ before n x after k v, c.history I m = before ++ (n, .typeOf x) :: after → Told I n x k v →
    v.tag = .heap .string ∧
    (Result.state ((Request.typeOf x).perform I n)).runtime.textOf? v = .ok (some k.label) ∧
    (∀ asked ∈ after, asked.1.runtime.textOf? v = .ok (some k.label)) ∧
    (Result.state (c.run I m)).runtime.textOf? v = .ok (some k.label)
  /-- It is no reference to a cell that there was before, or that any other request adds. -/
  apart : ∀ n x k v, (n, .typeOf x) ∈ c.history I m → Told I n x k v → ∀ i w, RefersTo i w →
    (i < m.runtime.cells.size ∨
      ∃ asked ∈ c.history I m, (∀ y, asked.2 ≠ .typeOf y) ∧ AddsCell I asked i) → v ≠ w
  /-- The category depends on the tag only, and for an object on whether it is a function. -/
  category : ∀ n x k v, (n, .typeOf x) ∈ c.history I m → Told I n x k v →
    k = categoryOf (n.runtime.code? x).isSome x.tag
  /-- So it stays, from when there is the object that is asked about. -/
  stable : ∀ before n r after x, c.history I m = before ++ (n, r) :: after → x.dangling = false →
    n.runtime.Has x → (∀ asked ∈ after, asked.1.runtime.toCategory x = n.runtime.toCategory x) ∧
      (Result.state (c.run I m)).runtime.toCategory x = n.runtime.toCategory x
  /-- Whoever asks for a category adds its text to the heap or nothing, -/
  allocates : ∀ n x, (n, .typeOf x) ∈ c.history I m →
    (Result.state ((Request.typeOf x).perform I n)).runtime.cells = n.runtime.cells ∨
    ∃ k, n.runtime.toCategory x = .ok k ∧
      (Result.state ((Request.typeOf x).perform I n)).runtime.cells =
        n.runtime.cells.push (.text k.label)
  /-- and adds the text of each category once at most. -/
  once : ∀ k, ((c.history I m).map (cellsFor I k)).sum ≤ 1

/-- What is kept of a category, counted. -/
def keptCount (k : Category) (s : State) : Nat := if (s.categoryTexts k).isSome then 1 else 0

theorem State.Later.keptCount_le (h : s.Later s') (k : Category) : keptCount k s ≤ keptCount k s' := by
  unfold keptCount
  cases hk : s.categoryTexts k with
  | none => exact Nat.zero_le _
  | some v => rw [h.kept k v hk]

section

variable {n : Machine State} {final : State}

variable {power} in
theorem Told.kept (h : Told (interpreterWith power) n x k v) :
    (Result.state ((Request.typeOf x).perform (interpreterWith power) n)).runtime.categoryTexts k =
      some v := by
  obtain ⟨hcategory, n', hanswer⟩ := h
  have hends := typeOf_ends power n x
  rw [hanswer] at hends ⊢
  exact hends.answered hcategory

/-- Only a reference to nothing has no category, and only a full heap no room for its text. -/
theorem told_or_stopped (n : Machine State) (x : Value) : (∃ k v, Told (interpreterWith power) n x k v) ∨
    (x.dangling = true ∧
      ∃ p n', (Request.typeOf x).perform (interpreterWith power) n = .error (.panic p) n') ∨
    (Pointer.ofAddr? (cellAddress n.runtime.cells.size) = none ∧
      ∃ n', (Request.typeOf x).perform (interpreterWith power) n = .error (.abort .outOfMemory) n') := by
  generalize hres : (Request.typeOf x).perform (interpreterWith power) n = res
  have hends : TypeOfEnds n x res := hres ▸ typeOf_ends power n x
  cases hends with
  | panicked dangling _ _ => exact .inr (.inl ⟨dangling, _, _, rfl⟩)
  | full room _ _ => exact .inr (.inr ⟨room, _, rfl⟩)
  | kept category _ _ _ => exact .inl ⟨_, _, category, _, hres⟩
  | made category _ _ _ _ => exact .inl ⟨_, _, category, _, hres⟩

variable {power} in
/-- An answer lies in a cell that was added since no text was kept. -/
theorem Told.textAt (h : Told (interpreterWith power) n x k v) (hn : s.Later n.runtime)
    (hs : ∀ k, s.categoryTexts k = none) : ∃ i, s.cells.size ≤ i ∧
      (Result.state ((Request.typeOf x).perform (interpreterWith power) n)).runtime.TextAt i k.label v :=
  (hn.trans (typeOf_ends power n x).later).fresh k v (hs k) h.kept

/-- What is added apart from the texts of categories is no text of a category, then or ever after. -/
theorem State.Added.apart (h : s'.Added s'') (hbefore : s.Later s') (hafter : s''.Later final)
    (hs : ∀ k, s.categoryTexts k = none) (hv : final.categoryTexts k = some v)
    (hi : s'.cells.size ≤ i) (hi' : i < s''.cells.size) : ¬ RefersTo i v := by
  intro hrefers
  cases hk : s'.categoryTexts k with
  | some w =>
    -- It was kept before, and lies in an older cell.
    obtain rfl := Option.some.inj ((hafter.kept k w (h.later.kept k w hk)).symm.trans hv)
    obtain ⟨j, -, htext⟩ := hbefore.fresh k w (hs k) hk
    obtain rfl := hrefers.index_eq htext.refersTo
    exact absurd htext.lt_size (Nat.not_lt.mpr hi)
  | none =>
    -- It is made afterwards, in a newer cell.
    obtain ⟨j, hj, htext⟩ := hafter.fresh k v (by rw [h.texts, hk]) hv
    obtain rfl := hrefers.index_eq htext.refersTo
    exact absurd hi' (Nat.not_lt.mpr hj)

/-- Whoever adds the text of a category did not find one, and keeps it. -/
theorem cellsFor_add_keptCount_le {r : Request State} (hr : OnlyAdds r) (k : Category) :
    cellsFor (interpreterWith power) k (n, r) + keptCount k n.runtime ≤
      keptCount k (Result.state (r.perform (interpreterWith power) n)).runtime := by
  have hmono := (later_request power hr n).keptCount_le k
  by_cases hzero : cellsFor (interpreterWith power) k (n, r) = 0
  case pos => rwa [hzero, Nat.zero_add]
  case neg =>
    obtain ⟨x, rfl⟩ : ∃ x, r = .typeOf x := by
      cases r with
      | typeOf x => exact ⟨x, rfl⟩
      | _ => exact absurd rfl hzero
    unfold cellsFor at hzero ⊢
    dsimp only at hzero ⊢
    generalize hres : (Request.typeOf x).perform (interpreterWith power) n = res at *
    have hends : TypeOfEnds n x res := hres ▸ typeOf_ends power n x
    cases hends with
    | made category unkept room cells texts =>
      rw [category] at hzero ⊢
      dsimp only at hzero ⊢
      split at hzero
      case isFalse => exact absurd rfl hzero
      case isTrue hk =>
        subst hk
        simp [keptCount, unkept, Result.state, cells, texts]
    | panicked _ cells _ | full _ cells _ | kept _ _ cells _ =>
      refine absurd ?_ hzero
      rw [Result.state, cells, Nat.sub_self]
      split <;> simp

end

/-- **The texts of categories are interned**, along every run of the reference interpreter in which the
program around it only allocates, from a heap on that has none of them. -/
theorem categories_interned (power : Double → Double → Double) (c : Caller State) (m : Machine State)
    (hunkept : ∀ k, m.runtime.categoryTexts k = none)
    (hadds : c.Along (interpreterWith power) (fun _ r => OnlyAdds r) (fun _ _ => True) m) :
    CategoriesInterned (interpreterWith power) c m := by
  obtain ⟨hfollows, hlast⟩ := Caller.follows_left Machine.runtime (I := interpreterWith power)
    (fun h => h.1) c m
  have hadvances : Advances State.Later Machine.runtime _ _ _ :=
    hfollows.advances State.Later.refl State.Later.trans fun asked hmem =>
      later_request power (hadds.of_mem_history hmem) asked.1
  have hkept : ∀ {n x k v}, (n, .typeOf x) ∈ c.history (interpreterWith power) m →
      Told (interpreterWith power) n x k v →
      (Result.state (c.run (interpreterWith power) m)).runtime.categoryTexts k = some v :=
    fun hmem htold => by
      rw [hlast]
      exact (hadvances.ends _ hmem).kept _ _ htold.kept
  have hwhole : m.runtime.Later (Result.state (c.run (interpreterWith power) m)).runtime := by
    rw [hlast]
    exact hadvances.whole
  constructor
  case answered =>
    intro n x _
    exact told_or_stopped power n x
  case same =>
    intro n x k v n' x' k' v' hmem hmem' htold htold'
    exact hwhole.text_eq_iff hunkept (hkept hmem htold) (hkept hmem' htold')
  case text =>
    intro before n x after k v hsplit htold
    have hmem : (n, .typeOf x) ∈ c.history (interpreterWith power) m := by simp [hsplit]
    obtain ⟨i, -, htext⟩ := htold.textAt (hadvances.started _ hmem) hunkept
    refine ⟨htext.tag, htext.textOf?, fun asked hasked => ?_, ?_⟩
    · exact (htext.mono (hadvances.after hsplit asked hasked).cells).textOf?
    · rw [hlast]
      exact (htext.mono (hadvances.ends _ hmem).cells).textOf?
  case apart =>
    rintro n x k v hmem htold i w hw hi rfl
    rcases hi with hi | ⟨asked, hasked, hne, hi, hi'⟩
    · obtain ⟨j, hj, htext⟩ := hwhole.fresh k v (hunkept k) (hkept hmem htold)
      obtain rfl := hw.index_eq htext.refersTo
      exact absurd hi (Nat.not_lt.mpr hj)
    · have hadded := added_request power (hadds.of_mem_history hasked) hne asked.1
      have hafter := hadvances.ends asked hasked
      rw [← hlast] at hafter
      exact hadded.apart (hadvances.started asked hasked) hafter hunkept (hkept hmem htold) hi hi' hw
  case category =>
    intro n x k v hmem htold
    have hk := htold.category
    rw [toCategory_eq (shown_of_toCategory hk)] at hk
    exact (Except.ok.inj hk).symm
  case stable =>
    intro before n r after x hsplit hx hhas
    have hmem : (n, r) ∈ c.history (interpreterWith power) m := by simp [hsplit]
    have hstep := later_request power (hadds.of_mem_history hmem) n
    refine ⟨fun asked hasked => ?_, ?_⟩
    · exact (hstep.trans (hadvances.after hsplit asked hasked)).cells.toCategory hhas hx
    · rw [hlast]
      exact (hstep.trans (hadvances.ends _ hmem)).cells.toCategory hhas hx
  case allocates =>
    intro n x _
    exact (typeOf_ends power n x).allocates
  case once =>
    intro k
    have hsum := hfollows.sum_le (f := cellsFor (interpreterWith power) k) (g := keptCount k)
      fun asked hasked => cellsFor_add_keptCount_le power (hadds.of_mem_history hasked) k
    have hone : ∀ s, keptCount k s ≤ 1 := fun s => by
      unfold keptCount
      split <;> decide
    have hend := hone ((c.history (interpreterWith power) m).foldl
      (Caller.left Machine.runtime (interpreterWith power)) m.runtime)
    omega

/-! ### A text of the same characters -/

namespace Naming

def one : Value := .ofInt 1

def start : Machine State := { runtime := {} }

/-- The value that was answered. -/
def answered : Except Panic Response → Value
  | .ok (.value v) => v
  | _ => .undefined

/-- Asks for the category of a number before and after a text of the same characters is made, and then
for that of the text. A sum of the two is made, a reference to nothing is asked about, and a function. -/
def caller : Caller State :=
  .ask (.typeOf one) fun _ =>
  .ask (allocation (.text "number")) fun made =>
  .ask (.typeOf (.ofDouble Double.nan)) fun _ =>
  .ask (.typeOf (answered made)) fun _ =>
  .ask (.binary .add (answered made) one) fun _ =>
  .ask (.typeOf (.boxed HeapTag.object.box 0)) fun _ =>
  .ask (allocation (.function { codeLength := 4 } [])) fun function =>
  .ask (.typeOf (answered function)) fun _ => .done .done

end Naming

open Naming in
theorem categories_interned_naming : (∀ k, start.runtime.categoryTexts k = none) ∧
    caller.Along (interpreterWith Double.power) (fun _ r => OnlyAdds r) (fun _ _ => True) start ∧
    CategoriesInterned (interpreterWith Double.power) caller start ∧
    (Result.state (caller.run (interpreterWith Double.power) start)).runtime.cells =
      #[.text "number", .text "number", .text "string", .text "number1", .function { codeLength := 4 } [],
        .text "function"] := by
  have hadds : caller.Along (interpreterWith Double.power) (fun _ r => OnlyAdds r) (fun _ _ => True)
      start := by
    refine ⟨nofun, fun _ _ _ => ⟨onlyAdds_allocation _, fun _ _ _ => ⟨nofun, fun _ _ _ => ?_⟩⟩⟩
    refine ⟨nofun, fun _ _ _ => ⟨nofun, fun _ _ _ => ⟨nofun, fun _ _ _ => ?_⟩⟩⟩
    exact ⟨onlyAdds_allocation _, fun _ _ _ => ⟨nofun, fun _ _ _ => trivial⟩⟩
  have hunkept : ∀ k, start.runtime.categoryTexts k = none := fun _ => rfl
  exact ⟨hunkept, hadds, categories_interned Double.power caller start hunkept hadds, by decide +kernel⟩

end TieredVm.Reference
