import TieredVm.Proofs.Reference.Growth

/-!
# What entries inherit from their steps

The entries of the reference interpreter are made of few steps: they read the interpreter's state, make
texts, fail with exceptions, and an addition calls functions. None of these steps releases or duplicates
a value (`LocalKeepsLedger`), and none keeps a text for a category (`LocalKeepsLabels`). A property of
operations that all of them have, and that sequencing keeps, is one of every entry (`Inherited`).

* `Inherited.call`: calls, if what they do under their frame has the property.
* `Inherited.plusWithin`: nested additions, by induction on how deep they may nest.
* `Inherited.entry`, `Inherited.unary`: every entry, if calls have the property wherever the addition they
  make has it.
-/

namespace TieredVm.Reference

open Attempt (lift)

/-! ## The ledger -/

/-- The values that changed hands, in order. -/
structure Ledger where
  released : List Value
  duplicated : List Value

/-- What was released and duplicated so far. -/
def State.ledger (s : State) : Ledger := ⟨s.released, s.duplicated⟩

/-- However it ends, an operation on the interpreter's state releases and duplicates nothing. -/
def LocalKeepsLedger {α : Type} (act : Local State α) : Prop :=
  ∀ s, (Result.state (act s)).ledger = s.ledger

theorem keepsLedger_newText (t : String) : LocalKeepsLedger (newText t) := fun s => by
  cases hp : Pointer.ofAddr? (cellAddress s.cells.size) with
  | none => rw [newText_of_full hp]; rfl
  | some p => rw [newText_of_room hp]; rfl

/-- However it ends, an operation on the interpreter's state keeps no further text for a category. -/
def LocalKeepsLabels {α : Type} (act : Local State α) : Prop :=
  ∀ s, (Result.state (act s)).categoryTexts = s.categoryTexts

theorem keepsLabels_newText (t : String) : LocalKeepsLabels (newText t) := fun s => by
  cases hp : Pointer.ofAddr? (cellAddress s.cells.size) with
  | none => rw [newText_of_full hp]; rfl
  | some p => rw [newText_of_room hp]; rfl

/-! ## Properties of entries -/

/-- A property of operations that the steps of entries have and that sequencing keeps. -/
structure Inherited (Q : {α : Type} → Run State α → Prop) : Prop where
  pure : ∀ {α : Type} (a : α), Q (pure a : Run State α)
  bind : ∀ {α β : Type} {x : Run State α} {f : α → Run State β}, Q x → (∀ a, Q (f a)) → Q (x >>= f)
  /-- Of the machine, only the interpreter's state is read. -/
  get_bind : ∀ {α : Type} {f : Machine State → Run State α},
    (∀ m m', m.runtime = m'.runtime → f m = f m') → (∀ m, Q (f m)) → Q (get >>= f)
  expect : ∀ {α : Type} (r : Except Violation α), Q (Run.expect r)
  /-- On that state, entries make texts and take notes. They release and duplicate nothing, and keep no
  text for a category. -/
  onRuntime : ∀ {α : Type} {p : State → State → α → Prop} {act : Local State α},
    (∀ s₀, LocalSteady s₀ (p s₀) act) → LocalKeepsLedger act → LocalKeepsLabels act →
      Q (Run.onRuntime act)
  emit : ∀ e, Q (Run.emit e)
  raise : ∀ e, Q (Machine.raise e)
  tooDeep : Q (throw (.abort .tooDeep) : Run State Value)

namespace Inherited

variable {Q : {α : Type} → Run State α → Prop} (hQ : Inherited Q) {α β : Type}

include hQ

theorem observe (f : State → Except Violation α) : Q (observe f) :=
  hQ.get_bind (fun m m' h => by rw [h]) fun _ => hQ.expect _

/-! ## Attempts -/

theorem succeed (a : α) : Q (Pure.pure a : Attempt State α).run := hQ.pure _

theorem fail (e : Exception) : Q (throw e : Attempt State α).run := hQ.pure _

theorem next {x : Attempt State α} {f : α → Attempt State β} (hx : Q x.run)
    (hf : ∀ a, Q (f a).run) : Q (x >>= f).run := by
  rw [ExceptT.run_bind]
  refine hQ.bind hx fun r => ?_
  cases r with
  | ok a => exact hf a
  | error e => exact hQ.pure _

theorem lift {x : Run State α} (hx : Q x) : Q (lift x).run := by
  show Q (Except.ok <$> x)
  rw [← bind_pure_comp]
  exact hQ.bind hx fun a => hQ.pure _

theorem read {f : Machine State → Attempt State α}
    (hf : ∀ m m', m.runtime = m'.runtime → f m = f m') (h : ∀ m, Q (f m).run) :
    Q (get >>= f : Attempt State α).run :=
  hQ.get_bind (f := fun m => (f m).run) (fun m m' hm => by rw [hf m m' hm]) h

/-! ## Steps of an entry -/

theorem entered (point : EntryPoint) : Q (entered point).run := by
  have hnote : Q (Run.onRuntime (do
      noteCall point.name
      let s ← get
      set { s with failNext := none }
      return s.failNext) : Run State (Option Exception)) :=
    hQ.onRuntime (p := fun _ => anything) (fun s₀ s hs => ⟨hs.trans (.of_same rfl rfl), trivial⟩)
      (fun _ => rfl) fun _ => rfl
  refine hQ.next (hQ.lift hnote) fun prepared => ?_
  cases prepared with
  | none => exact hQ.succeed ()
  | some e => exact hQ.fail e

theorem convert (f : State → Converted α) : Q (convert f).run := by
  refine hQ.next (hQ.lift (hQ.observe _)) fun r => ?_
  cases r with
  | ok a => exact hQ.succeed a
  | error e => exact hQ.fail e

theorem pointer (v : Value) :
    Q (Attempt.lift (Run.expect (v.asPointer? (.heap .object))) : Attempt State (Option Pointer)).run :=
  hQ.lift (hQ.expect _)

theorem answer {n : Nat} (operands : Operands (n + 1)) (v : Value) : Q (answer operands v).run :=
  hQ.succeed _

/-! ## Entries that call nothing -/

theorem joinOrAdd (a b : Value) : Q (joinOrAdd a b).run := by
  unfold Reference.joinOrAdd
  split
  · exact hQ.next (hQ.lift (hQ.observe _)) fun _ => hQ.next (hQ.lift (hQ.observe _)) fun _ =>
      hQ.lift (hQ.onRuntime (fun _ => localSteady_newText _) (keepsLedger_newText _)
        (keepsLabels_newText _))
  · exact hQ.next (hQ.convert _) fun _ => hQ.next (hQ.convert _) fun _ => hQ.succeed _

theorem orderOf (x y : Value) : Q (orderOf x y).run := by
  refine hQ.next (hQ.lift (hQ.observe _)) fun left =>
    hQ.next (hQ.lift (hQ.observe _)) fun right => ?_
  have hnumbers : Q (do
      let a ← Reference.convert (·.toNumber x)
      let b ← Reference.convert (·.toNumber y)
      return a.compare? b : Attempt State (Option Ordering)).run :=
    hQ.next (hQ.convert _) fun _ => hQ.next (hQ.convert _) fun _ => hQ.succeed _
  cases left with
  | none => exact hnumbers
  | some a =>
    cases right with
    | none => exact hnumbers
    | some b => exact hQ.succeed _

theorem unary (op : UnaryOp) (operands : Operands 1) : Q (unary op operands).run := by
  have hvalue : Q (unaryValue operands.operand op).run := by
    cases op <;> exact hQ.next (hQ.convert _) fun _ => hQ.succeed _
  exact hQ.next (hQ.entered _) fun _ => hQ.next hvalue fun _ => hQ.answer _ _

theorem instanceOf (operands : Operands 2) : Q (instanceOf operands).run := by
  refine hQ.next (hQ.entered _) fun _ => hQ.next (hQ.pointer _) fun maker =>
    hQ.read (fun m m' h => by rw [h]) fun m => ?_
  have hmade : ∀ test : Option Pointer → Machine State → Bool,
      (∀ made m m', m.runtime = m'.runtime → test made m = test made m') → Q (do
        let made ← Attempt.lift <| Run.expect (operands.lhs.asPointer? (.heap .object))
        let m ← get
        Reference.answer operands (.ofBool (test made m)) : Attempt State (Operands 2)).run :=
    fun test htest => hQ.next (hQ.pointer _) fun made =>
      hQ.read (fun m m' h => by rw [htest made m m' h]) fun _ => hQ.answer _ _
  dsimp only
  split
  · exact hQ.next (hQ.fail _) fun _ => hmade _ fun _ _ _ h => by rw [h]
  · exact hmade _ fun _ _ _ h => by rw [h]

theorem contains (operands : Operands 2) : Q (contains operands).run := by
  refine hQ.next (hQ.entered _) fun _ => hQ.next (hQ.lift (hQ.observe _)) fun key =>
    hQ.next (hQ.pointer _) fun holder => hQ.read (fun m m' h => by rw [h]) fun m => ?_
  split
  · exact hQ.answer _ _
  · exact hQ.answer _ _
  · exact hQ.fail _

theorem handOff {n : Nat} (label : String) {entry : Entry State (n + 1)} {operands : Operands (n + 1)}
    (h : Q (entry operands).run) : Q (handOff label entry operands) := by
  refine hQ.bind (hQ.emit _) fun _ => hQ.bind h fun r => ?_
  cases r with
  | ok answered => exact hQ.pure _
  | error e => exact hQ.raise e

/-! ## Addition -/

section

variable {plus : Value → Value → Run State Value} (hcall : ∀ f, Q (Reference.call plus f).run)

include hcall

theorem operandValue (v : Value) : Q (operandValue plus v).run := by
  refine hQ.next (hQ.pointer v) fun p => hQ.read (fun m m' h => by rw [h]) fun m => ?_
  split
  · exact hcall v
  · exact hQ.succeed v

theorem addEntry (operands : Operands 2) : Q (addEntry plus operands).run :=
  hQ.next (hQ.entered _) fun _ => hQ.next (hQ.operandValue hcall _) fun _ =>
    hQ.next (hQ.operandValue hcall _) fun _ => hQ.next (hQ.joinOrAdd _ _) fun _ => hQ.answer _ _

end

/-- A call inherits the property from what it does under its frame. -/
theorem call {plus : Value → Value → Run State Value} {function : Value}
    (htake : Q (Machine.takePending : Run State (Option Exception)))
    (hframe : Q (do
      let frame ← Machine.newFrame
      objectModel.enter (some frame) function 0 0
      objectModel.setPc (some frame) 0
      let a ← objectModel.constantOf function 0
      let b ← objectModel.constantOf function 1
      let sum ← plus a b
      let lines := (← objectModel.trace).map TraceEntry.report
      Run.onRuntime (modify fun s => { s with traces := s.traces ++ [lines] })
      Chain.exit (some frame)
      return sum : Run State Value)) : Q (call plus function).run := by
  refine hQ.next (hQ.lift hframe) fun sum => ?_
  dsimp only
  split
  · refine hQ.next (hQ.lift htake) fun pending => ?_
    cases pending with
    | none => exact hQ.next (hQ.fail _) fun _ => hQ.succeed sum
    | some e => exact hQ.next (hQ.fail e) fun _ => hQ.succeed sum
  · exact hQ.succeed sum

section

variable (hcall : ∀ plus, (∀ x y, Q (plus x y)) → ∀ f, Q (Reference.call plus f).run)

include hcall

theorem plusWithin : ∀ (depth : Nat) (x y : Value), Q (plusWithin depth x y)
  | 0, x, y => by
    unfold Reference.plusWithin
    cases BinaryOp.add.inline? x y with
    | some v => exact hQ.pure v
    | none => exact hQ.tooDeep
  | depth + 1, x, y => by
    unfold Reference.plusWithin
    cases BinaryOp.add.inline? x y with
    | some v => exact hQ.pure v
    | none => exact hQ.handOff _ (hQ.addEntry (hcall _ (plusWithin depth)) _)

/-- **Every binary entry inherits the property.** -/
theorem entry (power : Double → Double → Double) (op : BinaryOp) (operands : Operands 2) :
    Q (op.entry (interpreterWith power) operands).run := by
  cases op with
  | add =>
    exact hQ.read (fun m m' h => by rw [h]) fun _ =>
      hQ.addEntry (hcall _ (hQ.plusWithin hcall _)) operands
  | arith op | logic op | shr =>
    exact hQ.next (hQ.entered _) fun _ => hQ.next (hQ.convert _) fun _ =>
      hQ.next (hQ.convert _) fun _ => hQ.answer _ _
  | relational op =>
    exact hQ.next (hQ.entered _) fun _ => hQ.next (hQ.orderOf _ _) fun _ => hQ.answer _ _
  | equal n =>
    exact hQ.next (hQ.entered _) fun _ => hQ.next (hQ.convert _) fun _ => hQ.answer _ _
  | strictEqual n =>
    exact hQ.next (hQ.entered _) fun _ => hQ.next (hQ.lift (hQ.observe _)) fun _ => hQ.answer _ _
  | instanceOf => exact hQ.instanceOf operands
  | contains => exact hQ.contains operands

end

end Inherited

end TieredVm.Reference
