import TieredVm.Proofs.Frame.Lifecycle
import TieredVm.Proofs.Reference.CallTree
import TieredVm.Proofs.Reference.Steps

/-!
# What operators do to the reference heap

An operator of the reference interpreter adds texts to the heap and nothing else (`State.Grown`), and
a reference that it answers is to a cell that there is (`State.Refers`). `Matches` says so of two
operations at once, which moreover do the same: it is closed under sequencing, so it is proved of an
operator by following its definition. An operation that matches itself is `Steady`.

* `Matches.bind`, `steady_violate`, `steady_onRuntime`: sequencing and the primitives.
* `steady_enter`, `steady_setPc`, `steady_exit`: the frame of a call.
* `matches_handOff`: an operator whose entries match.
* `steady_request_of_ne`: every operator but the addition.
-/

namespace TieredVm.Reference

open Attempt (lift)

variable {s₀ s s' : State} {m : Machine State} {α β : Type}

/-! ## References to cells -/

/-- If the value is a reference, then to one of the first `n` cells. -/
def RefersBelow (n : Nat) (v : Value) : Prop :=
  v.isHeap = true → ∃ i < n, v.payload = cellAddress i

theorem RefersBelow.mono {n k : Nat} (hnk : n ≤ k) {v : Value} (h : RefersBelow n v) :
    RefersBelow k v := fun hv => by
  obtain ⟨i, hi, hp⟩ := h hv
  exact ⟨i, Nat.lt_of_lt_of_le hi hnk, hp⟩

/-- What is no reference refers to nothing. -/
theorem refersBelow_of_not_heap {n : Nat} {v : Value} (h : v.isHeap = false) : RefersBelow n v :=
  fun hv => by rw [h] at hv; cases hv

/-- If the value is a reference, then to a cell of the heap. -/
abbrev State.Refers (s : State) (v : Value) : Prop := RefersBelow s.cells.size v

/-! ## Growth -/

/-- Texts were added to the heap, and the texts of further categories may have been kept. -/
structure State.Grown (s s' : State) : Prop where
  cells : ∃ texts : List String, s'.cells = s.cells ++ (texts.map Cell.text).toArray
  labels : ∀ c v, s'.categoryTexts c = some v → s.categoryTexts c = some v ∨ s'.Refers v

namespace State.Grown

theorem refl (s : State) : s.Grown s := ⟨⟨[], by simp⟩, fun _ _ h => .inl h⟩

theorem size_le (h : s.Grown s') : s.cells.size ≤ s'.cells.size := by
  obtain ⟨texts, ht⟩ := h.cells
  rw [ht, Array.size_append]
  exact Nat.le_add_right _ _

theorem refers (h : s.Grown s') {v : Value} (hv : s.Refers v) : s'.Refers v := hv.mono h.size_le

theorem trans {s'' : State} (h : s.Grown s') (h' : s'.Grown s'') : s.Grown s'' := by
  obtain ⟨texts, ht⟩ := h.cells
  obtain ⟨texts', ht'⟩ := h'.cells
  refine ⟨⟨texts ++ texts', by simp [ht', ht]⟩, fun c v hv => ?_⟩
  rcases h'.labels c v hv with hl | hr
  · exact (h.labels c v hl).imp_right h'.refers
  · exact .inr hr

/-- Nothing of the heap changed. -/
theorem of_same (hcells : s'.cells = s.cells) (hlabels : s'.categoryTexts = s.categoryTexts) :
    s.Grown s' := ⟨⟨[], by simp [hcells]⟩, fun c v h => .inl (hlabels ▸ h)⟩

theorem push (s : State) (t : String) : s.Grown { s with cells := s.cells.push (.text t) } :=
  ⟨⟨[t], by simp⟩, fun _ _ h => .inl h⟩

/-- Texts are no functions. -/
theorem bytecode? (h : s.Grown s') : s'.bytecode? = s.bytecode? := by
  obtain ⟨texts, ht⟩ := h.cells
  have hafter : s'.bytecode? = (s.after [] { texts }).bytecode? := by
    funext p
    simp only [State.bytecode?, State.cellAt?, ht, State.after, State.withTexts]
  rw [hafter, State.bytecode?_after]

theorem code? (h : s.Grown s') : s'.code? = s.code? := by
  funext v
  unfold State.code?
  rw [h.bytecode?]

theorem leadsTo (h : s.Grown s') : s'.LeadsTo = s.LeadsTo := by
  unfold State.LeadsTo
  rw [h.code?]

theorem functionCount (h : s.Grown s') : s'.functionCount = s.functionCount := by
  obtain ⟨texts, ht⟩ := h.cells
  unfold State.functionCount
  rw [ht, Array.toList_append, List.countP_append, List.countP_map]
  simp

end State.Grown

/-! ## Operations on the interpreter's state -/

/-- An operation on the interpreter's state ended with a grown heap, and not for lack of depth. -/
def LocalFinishes (s₀ : State) (p : State → α → Prop) : EStateM.Result Stop State α → Prop
  | .ok a s => s₀.Grown s ∧ p s a
  | .error stop s => s₀.Grown s ∧ stop ≠ .abort .tooDeep

/-- On every heap grown from `s₀`, an operation ends with a grown heap. -/
def LocalSteady (s₀ : State) (p : State → α → Prop) (act : Local State α) : Prop :=
  ∀ s, s₀.Grown s → LocalFinishes s₀ p (act s)

/-- Nothing is said about the answer. -/
abbrev anything (_ : State) (_ : α) : Prop := True

theorem LocalSteady.bind {p : State → α → Prop} {q : State → β → Prop} {act : Local State α}
    {f : α → Local State β} (hact : LocalSteady s₀ p act)
    (hf : ∀ a s, s₀.Grown s → p s a → LocalFinishes s₀ q (f a s)) : LocalSteady s₀ q (act >>= f) := by
  intro s hs
  have hfin := hact s hs
  show LocalFinishes s₀ q (EStateM.bind act f s)
  unfold EStateM.bind
  cases hr : act s with
  | ok a s' =>
    rw [hr] at hfin
    exact hf a s' hfin.1 hfin.2
  | error stop s' =>
    rw [hr] at hfin
    exact hfin

/-- What is only taken note of leaves the heap alone. -/
theorem localSteady_note {f : State → State} (hcells : ∀ s, (f s).cells = s.cells)
    (hlabels : ∀ s, (f s).categoryTexts = s.categoryTexts) :
    LocalSteady s₀ anything (modify f : Local State PUnit) := fun s hs =>
  ⟨hs.trans (.of_same (hcells s) (hlabels s)), trivial⟩

/-- A reference to a new cell is a reference to a cell. -/
theorem refers_push (s : State) (c : Cell) (tag : HeapTag) {p : Pointer}
    (h : Pointer.ofAddr? (cellAddress s.cells.size) = some p) :
    ({ s with cells := s.cells.push c } : State).Refers (.ofPointer tag p) := fun _ => by
  have haddr : p.addr = cellAddress s.cells.size := by
    unfold Pointer.ofAddr? at h
    split at h
    · rw [← Option.some.inj h]
    · exact absurd h (by simp)
  exact ⟨s.cells.size, by simp, (Value.payload_boxed (Value.box_lt tag) p.fits).trans haddr⟩

theorem localSteady_newText (t : String) : LocalSteady s₀ State.Refers (newText t) := fun s hs => by
  cases hp : Pointer.ofAddr? (cellAddress s.cells.size) with
  | none =>
    rw [newText_of_full hp]
    exact ⟨hs, nofun⟩
  | some p =>
    rw [newText_of_room hp]
    exact ⟨hs.trans (.push s t), refers_push s _ _ hp⟩

theorem localSteady_observe (f : State → Except Violation α) :
    LocalSteady s₀ anything (observeLocal f) := fun s hs => by
  unfold observeLocal
  rw [Result.bind_of_ok (Result.get_apply s)]
  cases f s with
  | ok a => exact ⟨hs, trivial⟩
  | error v => exact ⟨hs, nofun⟩

/-! ## Operations that match -/

/-- An operation ended on a grown heap, and did not run out of depth. -/
def Finishes (s₀ : State) (p : State → α → Prop) : EStateM.Result Stop (Machine State) α → Prop
  | .ok a m => s₀.Grown m.runtime ∧ p m.runtime a
  | .error stop m => s₀.Grown m.runtime ∧ stop ≠ .abort .tooDeep

/-- On every heap grown from `s₀`, two operations do the same. They end on a grown heap, and do not
run out of depth. -/
def Matches (s₀ : State) (p : State → α → Prop) (x y : Run State α) : Prop :=
  ∀ m, s₀.Grown m.runtime → y m = x m ∧ Finishes s₀ p (x m)

/-- An operation that matches itself. -/
abbrev Steady (s₀ : State) (p : State → α → Prop) (x : Run State α) : Prop := Matches s₀ p x x

theorem Finishes.mono {p q : State → α → Prop} (hpq : ∀ s a, s₀.Grown s → p s a → q s a)
    {r : EStateM.Result Stop (Machine State) α} (h : Finishes s₀ p r) : Finishes s₀ q r := by
  cases r with
  | ok a m => exact ⟨h.1, hpq _ _ h.1 h.2⟩
  | error stop m => exact h

theorem Finishes.grown {p : State → α → Prop} {r : EStateM.Result Stop (Machine State) α}
    (h : Finishes s₀ p r) : s₀.Grown (Result.state r).runtime := by
  cases r with
  | ok a m => exact h.1
  | error stop m => exact h.1

section

variable {p q : State → α → Prop}

theorem Matches.mono {x y : Run State α} (h : Matches s₀ p x y)
    (hpq : ∀ s a, s₀.Grown s → p s a → q s a) : Matches s₀ q x y := fun m hm =>
  ⟨(h m hm).1, (h m hm).2.mono hpq⟩

theorem Matches.bind {r : State → β → Prop} {x y : Run State α} {f g : α → Run State β}
    (hx : Matches s₀ p x y) (hf : ∀ s a, s₀.Grown s → p s a → Matches s₀ r (f a) (g a)) :
    Matches s₀ r (x >>= f) (y >>= g) := by
  intro m hm
  obtain ⟨hxy, hfin⟩ := hx m hm
  rw [Run.bind_apply, Run.bind_apply, hxy]
  cases hr : x m with
  | error stop m' =>
    rw [hr] at hfin
    exact ⟨rfl, hfin⟩
  | ok a m' =>
    rw [hr] at hfin
    exact hf _ a hfin.1 hfin.2 m' hfin.1

/-- What an operation answers is only passed on. -/
theorem Matches.respond {r : State → β → Prop} {x y : Run State α} (f : α → β)
    (hx : Matches s₀ p x y) (hf : ∀ s a, p s a → r s (f a)) :
    Matches s₀ r (x >>= fun a => pure (f a)) (y >>= fun a => pure (f a)) := by
  intro m hm
  obtain ⟨hxy, hfin⟩ := hx m hm
  rw [Run.bind_apply, Run.bind_apply, hxy]
  cases hr : x m with
  | error stop m' =>
    rw [hr] at hfin
    exact ⟨rfl, hfin⟩
  | ok a m' =>
    rw [hr] at hfin
    exact ⟨rfl, hfin.1, hf _ a hfin.2⟩

/-- What is done with a machine that was read. -/
theorem Matches.get_bind {f g : Machine State → Run State α}
    (hf : ∀ m, s₀.Grown m.runtime → Matches s₀ p (f m) (g m)) :
    Matches s₀ p (get >>= f) (get >>= g) := fun m hm => by
  rw [Run.bind_of_ok (Run.get_apply m), Run.bind_of_ok (Run.get_apply m)]
  exact hf m hm m hm

theorem steady_pure {a : α} (h : ∀ s, s₀.Grown s → p s a) : Steady s₀ p (pure a) :=
  fun _ hm => ⟨rfl, hm, h _ hm⟩

theorem steady_violate (v : Violation) : Steady s₀ p (Run.violate v : Run State α) :=
  fun _ hm => ⟨rfl, hm, nofun⟩

theorem steady_expect {r : Except Violation α} (h : ∀ a, r = .ok a → ∀ s, s₀.Grown s → p s a) :
    Steady s₀ p (Run.expect r) := by
  cases r with
  | ok a => exact steady_pure (h a rfl)
  | error v => exact steady_violate v

/-- A change that leaves the interpreter alone. -/
theorem steady_modify {f : Machine State → Machine State} (hf : ∀ m, (f m).runtime = m.runtime) :
    Steady s₀ anything (modify f : Run State PUnit) := fun m hm =>
  ⟨rfl, show s₀.Grown (f m).runtime by rw [hf]; exact hm, trivial⟩

theorem steady_emit (e : Event) : Steady s₀ anything (Run.emit e) := by
  refine Matches.get_bind fun m _ => ?_
  split
  · exact (steady_expect (p := anything) fun _ _ _ _ => trivial).bind fun _ line _ _ =>
      steady_modify fun _ => rfl
  · exact steady_pure fun _ _ => trivial

/-- An operation on the interpreter's own state. -/
theorem steady_onRuntime {act : Local State α} (h : LocalSteady s₀ p act) :
    Steady s₀ p (Run.onRuntime act) := by
  refine fun m hm => ⟨rfl, ?_⟩
  have h := h m.runtime hm
  unfold Run.onRuntime
  cases hr : act m.runtime with
  | ok a s' => rw [hr] at h; exact h
  | error stop s' =>
    rw [hr] at h
    cases stop with
    | abort a => exact h
    | panic q =>
      cases q with
      | violation v => exact ⟨h.1, nofun⟩
      | outOfBounds n i => exact h
      | message t => exact h

/-- A refused operation leaves the heap as it was. -/
theorem finishes_of_refused {x : EStateM.Result Stop (Machine State) α} (h : Refused m x)
    (hm : s₀.Grown m.runtime) : Finishes s₀ p x := by
  obtain ⟨v, rfl⟩ := h
  exact ⟨hm, nofun⟩

end

/-! ## The frame of a call -/

theorem steady_newFrame : Steady s₀ anything (Machine.newFrame : Run State FrameId) :=
  fun _ hm => ⟨rfl, hm, trivial⟩

theorem steady_takePending :
    Steady s₀ anything (Machine.takePending : Run State (Option Exception)) :=
  fun _ hm => ⟨rfl, hm, trivial⟩

theorem steady_raise (e : Exception) : Steady s₀ State.Refers (Machine.raise e) :=
  (steady_emit _).bind fun _ _ _ _ => (steady_modify (f := fun m => { m with pending := some e })
    fun _ => rfl).bind fun _ _ _ _ => steady_pure fun _ _ => refersBelow_of_not_heap rfl

theorem steady_enter (frame : Option FrameId) (function : Value) (args : Address) (argCount : Nat) :
    Steady s₀ anything (objectModel.enter frame function args argCount) := by
  refine fun m hm => ⟨rfl, ?_⟩
  rcases objectModel.enter_cases (m := m) frame function args argCount with he | hr
  · rw [he]
    by_cases hidle : ∃ id, frame = some id ∧ (m.frames.get id).state ≠ .active
    · obtain ⟨id, rfl, hs⟩ := hidle
      rw [Chain.enter_idle hs]
      exact ((steady_emit _) (m.entered id function args argCount) hm).2
    · exact finishes_of_refused (Chain.enter_refused hidle ..) hm
  · exact finishes_of_refused hr hm

theorem steady_setPc (frame : Option FrameId) (pc : Nat) :
    Steady s₀ anything (objectModel.setPc frame pc) := by
  refine fun m hm => ⟨rfl, ?_⟩
  rcases objectModel.setPc_cases (m := m) frame pc with ⟨code, he⟩ | hr
  · rw [he]
    by_cases hl : m.Linked frame ∧ code.containsPc pc = true
    · obtain ⟨⟨id, rfl, hs⟩, hpc⟩ := hl
      rw [Chain.setPc_inside hs hpc]
      exact ⟨hm, trivial⟩
    · exact finishes_of_refused (Chain.setPc_refused hl) hm
  · exact finishes_of_refused hr hm

theorem steady_exit (frame : Option FrameId) :
    Steady s₀ anything (Chain.exit frame : Run State Unit) := by
  refine fun m hm => ⟨rfl, ?_⟩
  by_cases hl : m.Linked frame ∧ m.chain.current = frame
  · obtain ⟨⟨id, rfl, hs⟩, hc⟩ := hl
    rw [Chain.exit_innermost hs hc]
    exact ⟨show s₀.Grown (m.left id).runtime by rw [m.runtime_left]; exact hm, trivial⟩
  · exact finishes_of_refused (Chain.exit_refused hl) hm

/-- A function leads to the first two constants that are read from it. -/
theorem steady_constantOf (function : Value) {index : Nat} (hindex : index = 0 ∨ index = 1) :
    Steady s₀ (fun _ v => s₀.LeadsTo function v) (objectModel.constantOf function index) := by
  refine fun m hm => ⟨rfl, ?_⟩
  unfold ObjectModel.constantOf
  rcases objectModel.codeOf_cases (m := m) function with ⟨code, hc⟩ | ⟨v, hv⟩
  · obtain ⟨p, hp, hcode, -⟩ := objectModel.codeOf_of_ok hc
    rw [Run.bind_of_ok hc]
    unfold Bytecode.constant
    cases hk : code.constant? index with
    | none => exact ⟨hm, nofun⟩
    | some c =>
      refine ⟨hm, ?_⟩
      rw [← hm.leadsTo]
      refine ⟨code, by rw [State.code?, hp]; exact hcode, ?_⟩
      rcases hindex with rfl | rfl
      · exact .inl hk
      · exact .inr hk
  · rw [Run.bind_of_error (hv.trans (Run.violate_apply v m))]
    exact ⟨hm, nofun⟩

theorem steady_trace : Steady s₀ anything objectModel.trace :=
  Matches.get_bind fun _ _ => steady_expect fun _ _ _ _ => trivial

/-! ## Attempts -/

/-- Two attempts do the same, and what they answer has a property. -/
def Attempts (s₀ : State) (p : State → α → Prop) (x y : Attempt State α) : Prop :=
  Matches s₀ (fun s r => ∀ a, r = .ok a → p s a) x.run y.run

/-- An attempt that matches itself. -/
abbrev SteadyAttempt (s₀ : State) (p : State → α → Prop) (x : Attempt State α) : Prop :=
  Attempts s₀ p x x

section

variable {p : State → α → Prop}

theorem Attempts.bind {r : State → β → Prop} {x y : Attempt State α} {f g : α → Attempt State β}
    (hx : Attempts s₀ p x y) (hf : ∀ s a, s₀.Grown s → p s a → Attempts s₀ r (f a) (g a)) :
    Attempts s₀ r (x >>= f) (y >>= g) := by
  unfold Attempts
  rw [ExceptT.run_bind, ExceptT.run_bind]
  refine Matches.bind hx fun s res hs hres => ?_
  cases res with
  | ok a => exact hf s a hs (hres a rfl)
  | error e => exact steady_pure fun _ _ _ h => by cases h

theorem Attempts.get_bind {f g : Machine State → Attempt State α}
    (hf : ∀ m, s₀.Grown m.runtime → Attempts s₀ p (f m) (g m)) :
    Attempts s₀ p (get >>= f) (get >>= g) := fun m hm => hf m hm m hm

theorem attempts_lift {x y : Run State α} (h : Matches s₀ p x y) :
    Attempts s₀ p (lift x) (lift y) := by
  intro m hm
  obtain ⟨hxy, hfin⟩ := h m hm
  show EStateM.map _ y m = EStateM.map _ x m ∧ Finishes s₀ _ (EStateM.map _ x m)
  unfold EStateM.map
  rw [hxy]
  cases hr : x m with
  | ok a m' =>
    rw [hr] at hfin
    exact ⟨rfl, hfin.1, fun b hb => by cases hb; exact hfin.2⟩
  | error stop m' =>
    rw [hr] at hfin
    exact ⟨rfl, hfin⟩

theorem steady_attempt_pure {a : α} (h : ∀ s, s₀.Grown s → p s a) :
    SteadyAttempt s₀ p (pure a) :=
  steady_pure fun s hs b hb => by cases hb; exact h s hs

/-- What an attempt answers is only passed on. -/
theorem Attempts.respond {r : State → β → Prop} {x y : Attempt State α} (f : α → β)
    (hx : Attempts s₀ p x y) (hf : ∀ s a, p s a → r s (f a)) :
    Attempts s₀ r (x >>= fun a => pure (f a)) (y >>= fun a => pure (f a)) := by
  have hrun : ∀ z : Attempt State α, (z >>= fun a => pure (f a) : Attempt State β).run =
      z.run >>= fun res => pure (res.map f) := fun z => by
    rw [ExceptT.run_bind]
    congr 1
    funext res
    cases res <;> rfl
  unfold Attempts
  rw [hrun x, hrun y]
  refine Matches.respond (Except.map f) hx fun s res hres b hb => ?_
  cases res with
  | error e => cases hb
  | ok a => cases hb; exact hf s a (hres a rfl)

theorem steady_attempt_throw (e : Exception) :
    SteadyAttempt s₀ p (throw e : Attempt State α) :=
  steady_pure fun _ _ _ h => by cases h

end

/-! ## Steps of an entry -/

theorem steady_entered (point : EntryPoint) : SteadyAttempt s₀ anything (entered point) := by
  have hnote : Steady s₀ anything (Run.onRuntime (do
      noteCall point.name
      let s ← get
      set { s with failNext := none }
      return s.failNext) : Run State (Option Exception)) :=
    steady_onRuntime fun s hs => ⟨hs.trans (.of_same rfl rfl), trivial⟩
  refine (attempts_lift hnote).bind fun _ prepared _ _ => ?_
  cases prepared with
  | none => exact steady_attempt_pure fun _ _ => trivial
  | some e => exact steady_attempt_throw e

theorem steady_observe (f : State → Except Violation α) : Steady s₀ anything (observe f) :=
  Matches.get_bind fun _ _ => steady_expect fun _ _ _ _ => trivial

theorem steady_attempt_observe (f : State → Except Violation α) :
    SteadyAttempt s₀ anything (lift (observe f)) := attempts_lift (steady_observe f)

theorem steady_convert (f : State → Converted α) : SteadyAttempt s₀ anything (convert f) := by
  refine (steady_attempt_observe _).bind fun _ r _ _ => ?_
  cases r with
  | ok a => exact steady_attempt_pure fun _ _ => trivial
  | error e => exact steady_attempt_throw e

theorem steady_pointer (v : Value) :
    SteadyAttempt s₀ anything (lift (Run.expect (v.asPointer? (.heap .object)))) :=
  attempts_lift (steady_expect fun _ _ _ _ => trivial)

/-- What operands have come to hold as a result is no reference, or one to a cell. -/
abbrev Answered {n : Nat} (s : State) (answered : Operands (n + 1)) : Prop :=
  s.Refers answered.result

/-- A value that is computed last is the result. -/
theorem Attempts.answer {n : Nat} {x y : Attempt State Value} (h : Attempts s₀ State.Refers x y)
    (operands : Operands (n + 1)) :
    Attempts s₀ Answered (x >>= fun v => Reference.answer operands v)
      (y >>= fun v => Reference.answer operands v) :=
  h.respond operands.withResult fun s v hv => by
    rw [Answered, Operands.result_withResult]
    exact hv

theorem steady_answer {n : Nat} (operands : Operands (n + 1)) {v : Value} (hv : v.isHeap = false) :
    SteadyAttempt s₀ Answered (answer operands v) :=
  Attempts.answer (steady_attempt_pure fun _ _ => refersBelow_of_not_heap hv) operands

theorem isHeap_number (d : Double) : (Value.number d).isHeap = false := by
  rcases Value.tag_number d with h | h <;> rw [Value.isHeap, h] <;> rfl

theorem steady_boolean {n : Nat} (operands : Operands (n + 1)) (b : Bool) :
    SteadyAttempt s₀ Answered (answer operands (.ofBool b)) :=
  steady_answer operands (by cases b <;> rfl)

theorem steady_joinOrAdd (a b : Value) : SteadyAttempt s₀ State.Refers (joinOrAdd a b) := by
  unfold joinOrAdd
  split
  · exact (steady_attempt_observe _).bind fun _ _ _ _ => (steady_attempt_observe _).bind
      fun _ _ _ _ => attempts_lift (steady_onRuntime (localSteady_newText _))
  · exact (steady_convert _).bind fun _ _ _ _ => (steady_convert _).bind fun _ _ _ _ =>
      steady_attempt_pure fun _ _ => refersBelow_of_not_heap (isHeap_number _)

/-! ## Entries that call nothing -/

theorem steady_orderOf (x y : Value) : SteadyAttempt s₀ anything (orderOf x y) := by
  refine (steady_attempt_observe _).bind fun _ left _ _ =>
    (steady_attempt_observe _).bind fun _ right _ _ => ?_
  have hnumbers : SteadyAttempt s₀ anything (do
      let a ← convert (·.toNumber x)
      let b ← convert (·.toNumber y)
      return a.compare? b : Attempt State (Option Ordering)) :=
    (steady_convert _).bind fun _ _ _ _ => (steady_convert _).bind fun _ _ _ _ =>
      steady_attempt_pure fun _ _ => trivial
  cases left with
  | none => exact hnumbers
  | some a =>
    cases right with
    | none => exact hnumbers
    | some b => exact steady_attempt_pure fun _ _ => trivial

theorem isHeap_ofInt (n : Int32) : (Value.ofInt n).isHeap = false := by
  rw [Value.isHeap, Value.tag_ofInt]
  rfl

theorem steady_unary (op : UnaryOp) (operands : Operands 1) :
    SteadyAttempt s₀ Answered (unary op operands) := by
  have hnumber : ∀ f : Double → Double, SteadyAttempt s₀ State.Refers (do
      return .number (f (← convert (·.toNumber operands.operand))) : Attempt State Value) := fun f =>
    (steady_convert _).bind fun _ _ _ _ =>
      steady_attempt_pure fun _ _ => refersBelow_of_not_heap (isHeap_number _)
  have hvalue : SteadyAttempt s₀ State.Refers (unaryValue operands.operand op) := by
    cases op with
    | bitNot =>
      exact (steady_convert _).bind fun _ _ _ _ =>
        steady_attempt_pure fun _ _ => refersBelow_of_not_heap (isHeap_ofInt _)
    | neg => exact hnumber Double.neg
    | plus => exact hnumber id
    | inc => exact hnumber (·.add (Double.ofInt 1))
    | dec => exact hnumber (·.sub (Double.ofInt 1))
  exact (steady_entered _).bind fun _ _ _ _ => hvalue.answer operands

theorem steady_instanceOf (operands : Operands 2) :
    SteadyAttempt s₀ Answered (instanceOf operands) := by
  refine (steady_entered _).bind fun _ _ _ _ => (steady_pointer _).bind fun _ maker _ _ =>
    Attempts.get_bind fun m _ => ?_
  have hmade : ∀ test : Option Pointer → Machine State → Bool, SteadyAttempt s₀ Answered (do
      let made ← lift <| Run.expect (operands.lhs.asPointer? (.heap .object))
      let m ← get
      answer operands (.ofBool (test made m)) : Attempt State (Operands 2)) := fun test =>
    (steady_pointer _).bind fun _ made _ _ => Attempts.get_bind fun _ _ => steady_boolean _ _
  dsimp only
  split
  · exact (steady_attempt_throw (p := anything) _).bind fun _ _ _ _ => hmade _
  · exact hmade _

theorem steady_contains (operands : Operands 2) :
    SteadyAttempt s₀ Answered (contains operands) := by
  refine (steady_entered _).bind fun _ _ _ _ => (steady_attempt_observe _).bind fun _ key _ _ =>
    (steady_pointer _).bind fun _ holder _ _ => Attempts.get_bind fun m _ => ?_
  split
  · exact steady_boolean _ _
  · exact steady_boolean _ _
  · exact steady_attempt_throw _

/-- Every binary entry but the addition. -/
theorem steady_entry_of_ne (power : Double → Double → Double) {op : BinaryOp} (hop : op ≠ .add)
    (operands : Operands 2) :
    SteadyAttempt s₀ Answered (op.entry (interpreterWith power) operands) := by
  cases op with
  | add => exact absurd rfl hop
  | arith op | shr =>
    exact (steady_entered _).bind fun _ _ _ _ => (steady_convert _).bind fun _ _ _ _ =>
      (steady_convert _).bind fun _ _ _ _ => steady_answer operands (isHeap_number _)
  | logic op =>
    exact (steady_entered _).bind fun _ _ _ _ => (steady_convert _).bind fun _ _ _ _ =>
      (steady_convert _).bind fun _ _ _ _ => steady_answer operands (isHeap_ofInt _)
  | relational op =>
    exact (steady_entered _).bind fun _ _ _ _ => (steady_orderOf _ _).bind fun _ _ _ _ =>
      steady_boolean operands _
  | equal n =>
    exact (steady_entered _).bind fun _ _ _ _ => (steady_convert _).bind fun _ _ _ _ =>
      steady_boolean operands _
  | strictEqual n =>
    exact (steady_entered _).bind fun _ _ _ _ => (steady_attempt_observe _).bind fun _ _ _ _ =>
      steady_boolean operands _
  | instanceOf => exact steady_instanceOf operands
  | contains => exact steady_contains operands

/-! ## Operators -/

/-- Operators match when the entries they hand their operands to do. -/
theorem matches_handOff {n : Nat} (label : String) {entry entry' : Entry State (n + 1)}
    {operands : Operands (n + 1)}
    (h : Attempts s₀ Answered (entry operands) (entry' operands)) :
    Matches s₀ State.Refers (handOff label entry operands) (handOff label entry' operands) := by
  refine (steady_emit _).bind fun _ _ _ _ => ?_
  intro m hm
  obtain ⟨hxy, hfin⟩ := h m hm
  rw [Run.bind_apply, Run.bind_apply, hxy]
  cases hr : (entry operands).run m with
  | error stop m' =>
    rw [hr] at hfin
    exact ⟨rfl, hfin⟩
  | ok res m' =>
    rw [hr] at hfin
    cases res with
    | ok answered => exact ⟨rfl, hfin.1, hfin.2 answered rfl⟩
    | error e => exact steady_raise e m' hfin.1

/-! ## Truth and categories -/

theorem steady_truth (x : Value) : Steady s₀ anything (Run.onRuntime (truth x)) := by
  refine steady_onRuntime ((localSteady_note (f := fun s =>
    { s with calls := s.calls ++ ["to_bool_free"] }) (fun _ => rfl) fun _ => rfl).bind ?_)
  intro _ s hs _
  refine (localSteady_observe _).bind (fun r s hs _ => ?_) s hs
  exact ⟨hs.trans (.of_same rfl rfl), trivial⟩

/-- The text of a category is kept from before, or it is new. -/
theorem localSteady_categoryText (c : Category) :
    LocalSteady s₀ (fun s v => (∃ d, s₀.categoryTexts d = some v) ∨ s.Refers v) (categoryText c) := by
  intro s hs
  unfold categoryText
  rw [Result.bind_of_ok (Result.get_apply s)]
  cases hc : s.categoryTexts c with
  | some v => exact ⟨hs, (hs.labels c v hc).imp_left fun hold => ⟨c, hold⟩⟩
  | none =>
    refine (localSteady_newText c.label).bind (fun v s' hs' hv => ?_) s hs
    show s₀.Grown { s' with categoryTexts := fun d => if d = c then some v else s'.categoryTexts d } ∧
      ((∃ d, s₀.categoryTexts d = some v) ∨ s'.Refers v)
    refine ⟨hs'.trans ⟨⟨[], by simp⟩, fun d w hd => ?_⟩, .inr hv⟩
    change (if d = c then some v else s'.categoryTexts d) = some w at hd
    split at hd
    · cases hd
      exact .inr hv
    · exact .inl hd

theorem steady_typeOf (power : Double → Double → Double) (x : Value) :
    Steady s₀ (fun s v => (∃ c, s₀.categoryTexts c = some v) ∨ s.Refers v)
      ((interpreterWith power).typeOf x) := by
  have hcategory : LocalSteady s₀ anything (category x) :=
    (localSteady_note (f := fun s => { s with calls := s.calls ++ ["typeof_kind"] })
      (fun _ => rfl) fun _ => rfl).bind fun _ s hs _ => localSteady_observe _ s hs
  refine steady_onRuntime (hcategory.bind fun c s hs _ => ?_)
  exact (localSteady_note (f := fun s => { s with released := s.released ++ [x] })
    (fun _ => rfl) fun _ => rfl).bind (fun _ s hs _ => localSteady_categoryText c s hs) s hs

end TieredVm.Reference
