import TieredVm.Proofs.Caller
import TieredVm.Proofs.Reference.Inherited

/-!
# Where requests take the interpreter's state

Frames and exceptions leave the state of the reference interpreter alone, and the entries of its operators
make texts and take notes. A relation between states that these steps advance (`Onward`) is advanced by
every operator, however deep the calls nest that it makes (`Onward.entry`), and by every request that does
not ask an entry which works on the state alone (`Onward.request`).
-/

namespace TieredVm

open Reference Regime

/-- Is an entry asked that sees only the interpreter's own state? -/
def Request.AsksLocally {R : Type} : Request R → Prop
  | toBool _ | logicalNot _ | typeOf _ | captured _ _ | host _ => True
  | _ => False

variable {α β : Type}

/-- However the operation ends, the interpreter's state is later than it was. -/
def Run.Advances (later : State → State → Prop) (x : Run State α) : Prop :=
  ∀ m, later m.runtime (Result.state (x m)).runtime

/-- A relation between states that the steps of entries advance. -/
structure Onward (later : State → State → Prop) : Prop where
  refl : ∀ s, later s s
  trans : ∀ {s s' s''}, later s s' → later s' s'' → later s s''
  step : ∀ {α : Type} {p : State → State → α → Prop} {act : Local State α},
    (∀ s₀, LocalSteady s₀ (p s₀) act) → LocalKeepsLedger act → LocalKeepsLabels act →
      ∀ s, later s (Result.state (act s))

namespace Onward

variable {later : State → State → Prop}

/-- Nothing is asked but that the interpreter's state is later than it was. -/
abbrev since (later : State → State → Prop) (s : State) : Regime State :=
  Regime.any (later s) (fun _ => True) False False

theorem since_admits (s : State) : (since later s).Admits :=
  ⟨fun _ _ => trivial, fun _ _ => trivial, fun _ _ => False.elim, trivial⟩

theorem since_knows (s : State) (O : ObjectModel State) : (since later s).Knows O :=
  fun _ _ _ _ _ _ _ => ⟨trivial, False.elim⟩

variable (h : Onward later)

include h

theorem advances_of_keeps {x : Run State α} {p : State → α → Prop}
    (hx : ∀ s, (since later s).Keeps x (p s)) : x.Advances later :=
  fun m => (hx _ m (any_holds (h.refl m.runtime) trivial)).holds.good

theorem bind {x : Run State α} {f : α → Run State β} (hx : x.Advances later)
    (hf : ∀ a, (f a).Advances later) : (x >>= f).Advances later := by
  intro m
  have hm := hx m
  rw [Run.bind_apply]
  cases hr : x m with
  | ok a n =>
    rw [hr] at hm
    exact h.trans hm (hf a n)
  | error s n =>
    rw [hr] at hm
    exact hm

/-- An operation that leaves the interpreter's state alone. -/
theorem of_same {x : Run State α} (hx : ∀ m, (Result.state (x m)).runtime = m.runtime) :
    x.Advances later := fun m => by
  rw [hx m]
  exact h.refl _

theorem onRuntime {act : Local State α} (hact : ∀ s, later s (Result.state (act s))) :
    (Run.onRuntime act).Advances later :=
  h.advances_of_keeps (p := fun _ _ => True) fun _ => keeps_onRuntime fun s hs =>
    ⟨h.trans hs (hact s), fun _ _ _ => trivial⟩

/-! ## Operators -/

theorem inherited : Inherited (Run.Advances later) where
  pure _ := h.of_same fun _ => rfl
  bind := h.bind
  get_bind _ hf m := hf m m
  expect _ := h.advances_of_keeps fun _ => keeps_expect (p := fun _ => True) fun _ _ => trivial
  onRuntime hsteady hledger hlabels := h.onRuntime (h.step hsteady hledger hlabels)
  emit _ := h.advances_of_keeps fun _ => keeps_emit False.elim
  raise _ := h.advances_of_keeps fun s => keeps_raise (since_admits s) False.elim
  tooDeep := h.of_same fun _ => rfl

/-- A call makes no other steps. -/
theorem call {plus : Value → Value → Run State Value} (hplus : ∀ x y, (plus x y).Advances later)
    (function : Value) : Run.Advances later (Reference.call plus function).run := by
  have htake : Run.Advances later (Machine.takePending : Run State (Option Exception)) :=
    h.of_same fun _ => rfl
  have hconstant : ∀ index, Run.Advances later (objectModel.constantOf function index) :=
    fun index => h.advances_of_keeps fun s =>
      keeps_constantOf objectModel (since_knows s _) function index
  have hnote : ∀ lines : List String, Run.Advances later
      (Run.onRuntime (modify fun s => { s with traces := s.traces ++ [lines] }) : Run State PUnit) :=
    fun lines => h.onRuntime <| h.step (p := fun _ => anything)
      (fun _ => localSteady_note (fun _ => rfl) fun _ => rfl) (fun _ => rfl) fun _ => rfl
  refine h.inherited.call htake <| h.bind (h.of_same fun _ => rfl) fun frame => ?_
  refine h.bind
    (h.advances_of_keeps fun _ => keeps_enterHeld objectModel _ trivial 0 0) fun _ => ?_
  refine h.bind
    (h.advances_of_keeps fun s => keeps_setPcHeld objectModel (since_knows s _) _ 0) fun _ => ?_
  refine h.bind (hconstant 0) fun a => h.bind (hconstant 1) fun b => h.bind (hplus a b) fun sum => ?_
  refine h.bind (h.advances_of_keeps fun _ => keeps_trace objectModel) fun entries => ?_
  refine h.bind (hnote _) fun _ => ?_
  exact h.bind (h.advances_of_keeps fun _ => keeps_exit _) fun _ => h.of_same fun _ => rfl

/-- **Every entry that an operator hands its operands to advances the state.** -/
theorem entry (power : Double → Double → Double) (op : BinaryOp) (operands : Operands 2) :
    Run.Advances later (op.entry (interpreterWith power) operands).run :=
  h.inherited.entry (fun _ => h.call) power op operands

theorem binary (power : Double → Double → Double) (op : BinaryOp) (x y : Value) :
    ((interpreterWith power).binary op x y).Advances later := by
  unfold Interpreter.binary
  cases op.inline? x y with
  | some v => exact h.of_same fun _ => rfl
  | none => exact h.inherited.handOff _ (h.entry power op _)

theorem unaryOp (power : Double → Double → Double) (op : UnaryOp) (x : Value) :
    ((interpreterWith power).unaryOp op x).Advances later := by
  unfold Interpreter.unaryOp
  cases op.inline? x with
  | some v => exact h.of_same fun _ => rfl
  | none => exact h.inherited.handOff _ (h.inherited.unary op _)

/-! ## Requests -/

/-- **Every request advances the state** that does not ask an entry which works on the state alone. -/
theorem request (power : Double → Double → Double) {r : Request State} (hr : ¬ r.AsksLocally) :
    (r.perform (interpreterWith power)).Advances later := by
  cases r with
  | binary op x y => exact h.bind (h.binary power op x y) fun _ => h.of_same fun _ => rfl
  | unary op x => exact h.bind (h.unaryOp power op x) fun _ => h.of_same fun _ => rfl
  | raise e => exact h.bind (h.inherited.raise e) fun _ => h.of_same fun _ => rfl
  | takePending => exact h.of_same fun _ => rfl
  | logicalNot x => exact absurd trivial hr
  | toBool x => exact absurd trivial hr
  | typeOf x => exact absurd trivial hr
  | captured function index => exact absurd trivial hr
  | host act => exact absurd trivial hr
  | _ =>
    exact h.advances_of_keeps (p := fun s => (since later s).FitsResponse) fun s =>
      keeps_request_of_not_asks (since_knows s _) id id (fun _ _ => trivial) fun _ _ => False.elim

end Onward

end TieredVm
