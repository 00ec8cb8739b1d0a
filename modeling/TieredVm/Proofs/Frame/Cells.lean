import TieredVm.Proofs.Frame.CallStack

/-!
# One cell for every variable

The specification that captured variables are held against. Every argument and every local of every
activation has a cell of its own, and keeps it for good; there is nothing to open or close. What a
program reads of a variable, through a handle, through the frame or in the buffer, is its cell.

* `Cells` adds the cells to the stack of activations. A slot of a buffer that is lent to a variable
  has no content of its own (`Cells.view`); a slot that is lent to none is loose.
* Entering a frame lends its arguments' slots, attaching locals lends theirs, and the cells start
  with what the slots held (`Cells.lend`). Leaving a frame gives the slots back (`Cells.reclaim`) and
  changes no cell.
* A handle is a number, and `handles` is the variable that each denotes.
* `orderly` tells whether the program has kept to the rules so far: every activation attached its
  locals at most once, and no slot was lent to two variables at a time.
-/

namespace TieredVm

theorem Machine.slotAddress_inj {base : Address} {i j : Nat}
    (h : slotAddress base i = slotAddress base j) : i = j := by
  have h : base + 8 * i = base + 8 * j := h
  exact Nat.eq_of_mul_eq_mul_left (by decide) (Nat.add_left_cancel h)

/-- A variable: a slot of an activation, or one that never lay in a frame. -/
inductive Variable where
  | slot (serial : Nat) (kind : SlotKind) (index : Nat)
  | own (n : Nat)
deriving DecidableEq

/-- Is this a slot of the activation with the given number? -/
def Variable.isOf (serial : Nat) : Variable → Bool
  | slot n _ _ => n == serial
  | own _ => false

/-- The stack of activations with a cell for every variable. -/
structure Cells where
  stack : CallStack
  cell : Variable → Value
  /-- The variable that a slot of a buffer is lent to. -/
  lent : Address → Option Variable := fun _ => none
  /-- The content of a slot that is not lent. -/
  loose : Address → Value
  /-- The variable that each handle denotes. -/
  handles : List Variable
  /-- Did the program keep to the rules? -/
  orderly : Bool := true

namespace Cells

/-! ## Slots and cells -/

/-- What a slot of a buffer holds. -/
def view (t : Cells) (slot : Address) : Value :=
  match t.lent slot with
  | some x => t.cell x
  | none => t.loose slot

/-- Writes a variable. -/
def setCell (t : Cells) (x : Variable) (v : Value) : Cells :=
  { t with cell := fun y => if y = x then v else t.cell y }

/-- Writes a slot that is not lent. -/
def spill (t : Cells) (slot : Address) (v : Value) : Cells :=
  { t with loose := fun a => if a = slot then v else t.loose a }

/-- The place of a slot in a buffer. -/
def slotIndex? (base : Address) (count : Nat) (slot : Address) : Option Nat :=
  (List.range count).find? fun i => Machine.slotAddress base i == slot

theorem slotIndex?_eq_some {base : Address} {count : Nat} {slot : Address} {i : Nat} :
    slotIndex? base count slot = some i ↔ i < count ∧ slot = Machine.slotAddress base i := by
  unfold slotIndex?
  constructor
  · intro h
    have hp := List.find?_some h
    exact ⟨List.mem_range.mp (List.mem_of_find?_eq_some h), (by simpa using hp : _ = slot).symm⟩
  · rintro ⟨hi, rfl⟩
    cases hf : (List.range count).find? fun j =>
        Machine.slotAddress base j == Machine.slotAddress base i with
    | none =>
      rw [List.find?_eq_none] at hf
      exact absurd (hf i (List.mem_range.mpr hi)) (by simp)
    | some j =>
      have hj : Machine.slotAddress base j = Machine.slotAddress base i := by
        simpa using List.find?_some hf
      rw [Machine.slotAddress_inj hj]

theorem slotIndex?_eq_none {base : Address} {count : Nat} {slot : Address} :
    slotIndex? base count slot = none ↔ ∀ i < count, slot ≠ Machine.slotAddress base i := by
  constructor
  · intro h i hi hs
    exact absurd (slotIndex?_eq_some.mpr ⟨hi, hs⟩) (by simp [h])
  · intro h
    cases hf : slotIndex? base count slot with
    | none => rfl
    | some i =>
      obtain ⟨hi, hs⟩ := slotIndex?_eq_some.mp hf
      exact absurd hs (h i hi)

/-- Lends a buffer to the slots of an activation, whose cells start with its content. -/
def lend (t : Cells) (serial : Nat) (kind : SlotKind) (base : Address) (count : Nat) : Cells :=
  { t with
    cell := fun x => match x with
      | .slot n k i =>
        if n = serial ∧ k = kind ∧ i < count then t.view (Machine.slotAddress base i) else t.cell x
      | .own _ => t.cell x
    lent := fun slot => match slotIndex? base count slot with
      | some i => some (.slot serial kind i)
      | none => t.lent slot
    orderly := t.orderly &&
      (List.range count).all fun i => (t.lent (Machine.slotAddress base i)).isNone }

/-- Gives back the slots that were lent to an activation, with the content of their cells. -/
def reclaim (t : Cells) (serial : Nat) : Cells :=
  { t with
    lent := fun slot => (t.lent slot).filter fun x => !x.isOf serial
    loose := t.view }

/-! ## Transitions -/

/-- Pushes an activation and lends it its arguments. -/
def enter (t : Cells) (frame : Option FrameId) (function : Value) (args : Address)
    (argCount : Nat) : Option Cells :=
  (t.stack.enter frame function args argCount).map fun s =>
    { t with stack := s }.lend t.stack.begun .argument args argCount

/-- Lends an activation its locals. -/
def attachLocals (t : Cells) (frame : Option FrameId) (locals : Address) (count : Nat) :
    Option Cells := do
  let a ← frame.bind t.stack.find?
  let s ← t.stack.attachLocals frame locals count
  return { t with stack := s, orderly := t.orderly && !a.attached }.lend a.serial .localVar
    locals count

/-- Records the offset of an activation. -/
def setPc (t : Cells) (frame : Option FrameId) (code : Bytecode) (pc : Nat) : Option Cells :=
  (t.stack.setPc frame code pc).map fun s => { t with stack := s }

/-- Captures a slot. A slot that was captured before has its handle. -/
def capture (t : Cells) (frame : Option FrameId) (index : Nat) (kind : SlotKind) :
    Option Cells := do
  let a ← frame.bind t.stack.find?
  let s ← t.stack.capture frame index kind
  return { t with
    stack := s
    handles := if (index, kind) ∈ a.captured then t.handles
      else t.handles ++ [.slot a.serial kind index] }

/-- Pops the innermost activation and takes its slots back. -/
def exit (t : Cells) (frame : Option FrameId) : Option Cells := do
  let a ← t.stack.linked.head?
  let s ← t.stack.exit frame
  return { t with stack := s }.reclaim a.serial

/-- Writes a local of the innermost activation. -/
def setCurrentLocal (t : Cells) (index : Nat) (v : Value) : Option Cells :=
  (t.stack.localOfTop index).map fun a => t.setCell (.slot a.serial .localVar index) v

/-- Writes the variable that a handle denotes. -/
def setHandle (t : Cells) (c : Capture) (v : Value) : Cells :=
  match t.handles[c.id]? with
  | some x => t.setCell x v
  | none => t

/-- A variable outside of frames. -/
def newVariable (t : Cells) (v : Value) : Cells :=
  let x := Variable.own t.handles.length
  { t with handles := t.handles ++ [x] }.setCell x v

/-- Writes a slot of a buffer. -/
def poke (t : Cells) (slot : Address) (v : Value) : Cells :=
  match t.lent slot with
  | some x => t.setCell x v
  | none => t.spill slot v

/-- What the innermost activation has in a slot. -/
def ofTop (t : Cells) (kind : SlotKind) (index : Nat) : Option Value := do
  let a ← t.stack.linked.head?
  if index < a.count kind then return t.cell (.slot a.serial kind index) else none

/-! ## What the transitions do -/

section

variable {t : Cells} {s : CallStack} {frame : Option FrameId} {id : FrameId} {a : Activation}

theorem orderly_lend {serial : Nat} {kind : SlotKind} {base : Address} {count : Nat}
    (h : (t.lend serial kind base count).orderly = true) :
    t.orderly = true ∧ ∀ i < count, t.lent (Machine.slotAddress base i) = none := by
  simp only [lend, Bool.and_eq_true, List.all_eq_true, Option.isNone_iff_eq_none] at h
  exact ⟨h.1, fun i hi => h.2 i (List.mem_range.mpr hi)⟩

theorem enter_none {function : Value} {args : Address} {argCount : Nat}
    (h : t.stack.enter frame function args argCount = none) :
    t.enter frame function args argCount = none := by
  rw [enter, h, Option.map_none]

theorem enter_some {function : Value} {args : Address} {argCount : Nat}
    (h : t.stack.enter frame function args argCount = some s) :
    t.enter frame function args argCount =
      some ({ t with stack := s }.lend t.stack.begun .argument args argCount) := by
  rw [enter, h, Option.map_some]

theorem attachLocals_of_none (h : frame.bind t.stack.find? = none) (locals : Address)
    (count : Nat) : t.attachLocals frame locals count = none := by
  simp [attachLocals, h]

theorem attachLocals_of_find? (h : t.stack.find? id = some a) (locals : Address) (count : Nat) :
    t.attachLocals (some id) locals count = some ({ t with
      stack := t.stack.update id fun a => { a with locals, localCount := count, attached := true }
      orderly := t.orderly && !a.attached }.lend a.serial .localVar locals count) := by
  simp [attachLocals, h, CallStack.attachLocals_of_find? h]

theorem capture_of_none (h : frame.bind t.stack.find? = none) (index : Nat) (kind : SlotKind) :
    t.capture frame index kind = none := by
  simp [capture, h]

theorem capture_of_find? (h : t.stack.find? id = some a) (index : Nat) (kind : SlotKind) :
    t.capture (some id) index kind =
      if (index, kind) ∈ a.captured then some t
      else if index < a.count kind then some { t with
        stack := t.stack.update id fun a => { a with captured := a.captured ++ [(index, kind)] }
        handles := t.handles ++ [.slot a.serial kind index] }
      else none := by
  have hs := CallStack.capture_of_find? h index kind
  simp only [capture, Option.bind_eq_bind, Option.bind_some, h, hs]
  split
  · rfl
  · split <;> rfl

theorem exit_of_top {rest : List Activation} (h : t.stack.linked = a :: rest) :
    t.exit (some a.frame) =
      some ({ t with stack := { t.stack with linked := rest } }.reclaim a.serial) := by
  simp [exit, h, CallStack.exit_of_top h]

theorem stack_setHandle (t : Cells) (c : Capture) (v : Value) :
    (t.setHandle c v).stack = t.stack := by
  unfold setHandle
  split <;> rfl

theorem orderly_setHandle (t : Cells) (c : Capture) (v : Value) :
    (t.setHandle c v).orderly = t.orderly := by
  unfold setHandle
  split <;> rfl

theorem stack_poke (t : Cells) (slot : Address) (v : Value) : (t.poke slot v).stack = t.stack := by
  unfold poke
  split <;> rfl

theorem orderly_poke (t : Cells) (slot : Address) (v : Value) :
    (t.poke slot v).orderly = t.orderly := by
  unfold poke
  split <;> rfl

theorem exit_none (h : t.stack.exit frame = none) : t.exit frame = none := by
  cases hl : t.stack.linked.head? <;> simp [exit, h, hl]

end

/-! ## Programs -/

/-- Opens a scope: new storage, entered, with its locals. -/
def opening (recording : Bool) (c : ScopeCall) : Spec Cells FrameId := do
  let id := (← get).stack.freshFrame
  Spec.move fun t => some { t with stack := t.stack.newFrame }
  Spec.entering recording c.function fun t => t.enter (some id) c.function c.args c.argCount
  Spec.move fun t => t.attachLocals (some id) c.locals c.localCount
  return id

/-- Closes a scope: its activation must be the innermost one. -/
def close (id : FrameId) : Spec Cells Unit := fun t =>
  match t.exit (some id) with
  | some t => .ok () t
  | none => .error .abort t

/-- The cells of a machine at rest. Its handles denote variables that lie in no frame. -/
def ofMachine {R : Type} (m : Machine R) : Cells where
  stack := { freshFrame := m.freshFrame }
  cell x := match x with
    | .own n => m.captureValue ⟨n⟩
    | .slot _ _ _ => .undefined
  loose := m.memory.get
  handles := (List.range m.freshCapture).map Variable.own

end Cells

/-- A call on the cells. -/
def FrameCall.onCells (recording : Bool) : FrameCall → Spec Cells Unit
  | newFrame => Spec.move fun t => some { t with stack := t.stack.newFrame }
  | enter frame function args argCount =>
    Spec.entering recording function fun t => t.enter (frame.findOn t.stack) function args argCount
  | attachLocals frame locals count =>
    Spec.move fun t => t.attachLocals (frame.findOn t.stack) locals count
  | setPc frame code pc => Spec.move fun t => t.setPc (frame.findOn t.stack) code pc
  | capture frame index kind => Spec.move fun t => t.capture (frame.findOn t.stack) index kind
  | exit frame => Spec.move fun t => t.exit (frame.findOn t.stack)
  | captureCurrent index kind => Spec.move fun t => t.capture t.stack.top index kind
  | setCurrentLocal index v => Spec.move fun t => t.setCurrentLocal index v
  | setVariable c v => Spec.move fun t => some (t.setHandle c v)
  | newVariable v => Spec.move fun t => some (t.newVariable v)
  | poke slot v => Spec.move fun t => some (t.poke slot v)

/-- A program on the cells. -/
def Program.onCells (recording : Bool) (p : Program FrameCall) : Spec Cells Unit :=
  p.spec (FrameCall.onCells recording) (Cells.opening recording) Cells.close

/-! ## Handles are kept -/

namespace Cells

variable {recording : Bool} {t t' : Cells} {frame : Option FrameId}

/-- The handles begin with the given ones. -/
def Extends (hs : List Variable) (t : Cells) : Prop := hs <+: t.handles

theorem Extends.of_eq {hs : List Variable} (h : t.Extends hs) (he : t'.handles = t.handles) :
    t'.Extends hs := by
  rwa [Extends, he]

theorem Extends.trans {hs : List Variable} (h : t.Extends hs) (he : t.handles <+: t'.handles) :
    t'.Extends hs := List.IsPrefix.trans h he

theorem handles_of_enter {function : Value} {args : Address} {argCount : Nat}
    (h : t.enter frame function args argCount = some t') : t'.handles = t.handles := by
  obtain ⟨s, -, rfl⟩ := Option.map_eq_some_iff.mp h
  rfl

theorem handles_of_attachLocals {locals : Address} {count : Nat}
    (h : t.attachLocals frame locals count = some t') : t'.handles = t.handles := by
  obtain ⟨a, -, h⟩ := Option.bind_eq_some_iff.mp h
  obtain ⟨s, -, h⟩ := Option.bind_eq_some_iff.mp h
  obtain rfl := Option.some.inj h
  rfl

theorem handles_of_setPc {code : Bytecode} {pc : Nat} (h : t.setPc frame code pc = some t') :
    t'.handles = t.handles := by
  obtain ⟨s, -, rfl⟩ := Option.map_eq_some_iff.mp h
  rfl

theorem handles_of_capture {index : Nat} {kind : SlotKind}
    (h : t.capture frame index kind = some t') : t.handles <+: t'.handles := by
  obtain ⟨a, -, h⟩ := Option.bind_eq_some_iff.mp h
  obtain ⟨s, -, h⟩ := Option.bind_eq_some_iff.mp h
  obtain rfl := Option.some.inj h
  by_cases hc : (index, kind) ∈ a.captured
  · simp only [if_pos hc]
    exact List.prefix_refl _
  · simp only [if_neg hc]
    exact List.prefix_append ..

theorem handles_of_exit (h : t.exit frame = some t') : t'.handles = t.handles := by
  obtain ⟨a, -, h⟩ := Option.bind_eq_some_iff.mp h
  obtain ⟨s, -, h⟩ := Option.bind_eq_some_iff.mp h
  obtain rfl := Option.some.inj h
  rfl

theorem handles_of_setCurrentLocal {index : Nat} {v : Value}
    (h : t.setCurrentLocal index v = some t') : t'.handles = t.handles := by
  obtain ⟨a, -, rfl⟩ := Option.map_eq_some_iff.mp h
  rfl

theorem handles_setHandle (t : Cells) (c : Capture) (v : Value) :
    (t.setHandle c v).handles = t.handles := by
  unfold setHandle
  split <;> rfl

theorem handles_poke (t : Cells) (slot : Address) (v : Value) :
    (t.poke slot v).handles = t.handles := by
  unfold poke
  split <;> rfl

end Cells

theorem FrameCall.onCells_extends {recording : Bool} {hs : List Variable} (c : FrameCall)
    (t : Cells) (h : t.Extends hs) : (Result.state (c.onCells recording t)).Extends hs := by
  cases c with
  | newFrame => exact h
  | enter =>
    refine Spec.entering_keeps h fun _ ht => ?_
    exact h.of_eq (Cells.handles_of_enter ht)
  | attachLocals =>
    rw [onCells]
    refine Spec.move_keeps h fun _ ht => ?_
    exact h.of_eq (Cells.handles_of_attachLocals ht)
  | setPc =>
    rw [onCells]
    refine Spec.move_keeps h fun _ ht => ?_
    exact h.of_eq (Cells.handles_of_setPc ht)
  | capture | captureCurrent =>
    rw [onCells]
    refine Spec.move_keeps h fun _ ht => ?_
    exact h.trans (Cells.handles_of_capture ht)
  | exit =>
    rw [onCells]
    refine Spec.move_keeps h fun _ ht => ?_
    exact h.of_eq (Cells.handles_of_exit ht)
  | setCurrentLocal =>
    rw [onCells]
    refine Spec.move_keeps h fun _ ht => ?_
    exact h.of_eq (Cells.handles_of_setCurrentLocal ht)
  | setVariable c v => exact h.of_eq (t.handles_setHandle c v)
  | newVariable v => exact h.trans (List.prefix_append ..)
  | poke slot v => exact h.of_eq (t.handles_poke slot v)

theorem Cells.opening_extends {recording : Bool} {hs : List Variable} (c : ScopeCall) (t : Cells)
    (h : t.Extends hs) : (Result.state (Cells.opening recording c t)).Extends hs := by
  refine Spec.bind_keeps (x := get) h fun _ t₁ h₁ => ?_
  refine Spec.bind_keeps (Spec.move_keeps h₁ ?_) fun _ t₂ h₂ => ?_
  · rintro _ ⟨⟩
    exact h₁
  refine Spec.bind_keeps (Spec.entering_keeps h₂ fun _ ht => ?_) fun _ t₃ h₃ => ?_
  · exact h₂.of_eq (Cells.handles_of_enter ht)
  refine Spec.bind_keeps (Spec.move_keeps h₃ fun _ ht => ?_) fun _ _ h₄ => h₄
  exact h₃.of_eq (Cells.handles_of_attachLocals ht)

theorem Cells.close_extends {hs : List Variable} (id : FrameId) (t : Cells) (h : t.Extends hs) :
    (Result.state (Cells.close id t)).Extends hs := by
  unfold close
  split
  · exact h.of_eq (Cells.handles_of_exit ‹_›)
  · exact h

/-- **A handle denotes the same variable for good**, whatever program runs. -/
theorem Program.handles_onCells (recording : Bool) (p : Program FrameCall) (t : Cells) :
    t.handles <+: (Result.state (p.onCells recording t)).handles :=
  p.spec_keeps FrameCall.onCells_extends Cells.opening_extends Cells.close_extends t
    (List.prefix_refl _ : t.Extends t.handles)

end TieredVm
