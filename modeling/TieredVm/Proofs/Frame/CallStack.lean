import TieredVm.Frame.Trace
import TieredVm.Proofs.Frame.Program

/-!
# The stack of activations

The specification that the frame chain is held against: a list of activations, innermost first. A
call that links a frame pushes an activation, a call that unlinks one pops it, and calls on a linked
frame update its activation where it lies. There are no addresses of frames to follow, no counter
and no states: what is active is what is in the list.

* `CallStack` and its transitions (`enter`, `attachLocals`, `setPc`, `capture`, `exit`), each `none`
  when the call is rejected.
* `Spec`, runs of a specification, which end like runs of a machine (`Ending`). `Program.spec` runs a
  program on a specification: a scope opens and closes, and closing happens on every way out of its
  body but an abort.
* `FrameCall.onStack` and `Program.onStack`: the calls and programs of `Program.lean` on the stack.
-/

namespace TieredVm

/-! ## Specifications -/

/-- How a run of a specification stops. -/
inductive Ending where
  | panic
  | abort
deriving DecidableEq

/-- A run of a specification with states in `S`. -/
abbrev Spec (S α : Type) := EStateM Ending S α

namespace Spec

variable {S α : Type}

/-- A transition that is rejected where it has no result. -/
def move (next : S → Option S) : Spec S Unit := fun s =>
  match next s with
  | some s => .ok () s
  | none => .error .panic s

/-- A transition that enters a frame for a function. While events are recorded, a reference to
nothing cannot be shown as the function entered: the call panics, although the frame is linked by
then. -/
def entering (recording : Bool) (function : Value) (next : S → Option S) : Spec S Unit := do
  move next
  if recording && function.dangling then throw .panic

theorem move_none {next : S → Option S} {s : S} (h : next s = none) :
    move next s = .error .panic s := by
  simp [move, h]

theorem move_some {next : S → Option S} {s s' : S} (h : next s = some s') :
    move next s = .ok () s' := by
  simp [move, h]

theorem entering_none {recording : Bool} {function : Value} {next : S → Option S} {s : S}
    (h : next s = none) : entering recording function next s = .error .panic s := by
  show EStateM.bind _ _ s = _
  rw [EStateM.bind, move_none h]

theorem entering_some {recording : Bool} {function : Value} {next : S → Option S} {s s' : S}
    (h : next s = some s') : entering recording function next s =
      if recording && function.dangling then .error .panic s' else .ok () s' := by
  show EStateM.bind _ _ s = _
  rw [EStateM.bind, move_some h]
  show (if _ then _ else _ : Spec S Unit) s' = _
  split <;> rfl

/-- Catches a panic. -/
def catchPanic (act : Spec S Unit) : Spec S Unit := fun s =>
  match act s with
  | .error .panic s => .ok () s
  | r => r

/-- Runs a body and closes its scope on the way out. A panic while another one unwinds aborts. -/
def closing (close : Spec S Unit) (body : Spec S Unit) : Spec S Unit := fun s =>
  match body s with
  | .ok _ s => close s
  | .error .panic s =>
    match close s with
    | .ok _ s => .error .panic s
    | .error _ s => .error .abort s
  | .error .abort s => .error .abort s

theorem bind_keeps {α β : Type} {x : Spec S α} {f : α → Spec S β} {P : S → Prop} {s : S}
    (hx : P (Result.state (x s))) (hf : ∀ a s, P s → P (Result.state (f a s))) :
    P (Result.state ((x >>= f) s)) := by
  show P (Result.state (EStateM.bind x f s))
  unfold EStateM.bind
  cases hr : x s with
  | ok a t => rw [hr] at hx; exact hf a t hx
  | error e t => rw [hr] at hx; exact hx

theorem closing_keeps {close body : Spec S Unit} {P : S → Prop} {s : S}
    (hclose : ∀ s, P s → P (Result.state (close s))) (h : P (Result.state (body s))) :
    P (Result.state (closing close body s)) := by
  unfold closing
  cases hb : body s with
  | ok _ t => rw [hb] at h; exact hclose t h
  | error e t =>
    rw [hb] at h
    cases e with
    | abort => exact h
    | panic =>
      have hc := hclose t h
      simp only
      cases hr : close t <;> rw [hr] at hc <;> exact hc

theorem move_keeps {next : S → Option S} {P : S → Prop} {s : S} (h : P s)
    (hn : ∀ s', next s = some s' → P s') : P (Result.state (move next s)) := by
  cases hs : next s with
  | none => rw [move_none hs]; exact h
  | some s' => rw [move_some hs]; exact hn s' hs

theorem entering_keeps {recording : Bool} {function : Value} {next : S → Option S} {P : S → Prop}
    {s : S} (h : P s) (hn : ∀ s', next s = some s' → P s') :
    P (Result.state (entering recording function next s)) := by
  cases hs : next s with
  | none => rw [entering_none hs]; exact h
  | some s' =>
    rw [entering_some hs]
    split <;> exact hn s' hs

end Spec

/-- The ending that a stop of a machine comes to. -/
def Stop.ending : Stop → Ending
  | .panic _ => .panic
  | .abort _ => .abort

/-- Runs a program on a specification, given its calls and how a scope opens and closes. -/
def Program.spec {S Op : Type} (perform : Op → Spec S Unit) (opening : ScopeCall → Spec S FrameId)
    (close : FrameId → Spec S Unit) : Program Op → Spec S Unit
  | done => pure ()
  | call op => perform op
  | stop e => throw e.ending
  | seq first second => do
    spec perform opening close first
    spec perform opening close second
  | caught inner => Spec.catchPanic (spec perform opening close inner)
  | scope c body => do
    let id ← opening c
    Spec.closing (close id) (spec perform opening close body)

/-- **What every step keeps, every program keeps.** -/
theorem Program.spec_keeps {S Op : Type} {perform : Op → Spec S Unit}
    {opening : ScopeCall → Spec S FrameId} {close : FrameId → Spec S Unit} {P : S → Prop}
    (hop : ∀ op s, P s → P (Result.state (perform op s)))
    (hopen : ∀ c s, P s → P (Result.state (opening c s)))
    (hclose : ∀ id s, P s → P (Result.state (close id s))) (p : Program Op) :
    ∀ s, P s → P (Result.state (p.spec perform opening close s)) := by
  induction p with
  | done => exact fun _ h => h
  | stop _ => exact fun _ h => h
  | call op => exact hop op
  | seq first second ih₁ ih₂ => exact fun s h => Spec.bind_keeps (ih₁ s h) fun _ => ih₂
  | caught inner ih =>
    intro s h
    have h₁ := ih s h
    unfold spec Spec.catchPanic
    split <;> rename_i hr
    · rw [hr] at h₁
      exact h₁
    · exact h₁
  | scope c body ih =>
    exact fun s h => Spec.bind_keeps (hopen c s h) fun id _ h₁ =>
      Spec.closing_keeps (hclose id) (ih _ h₁)

/-! ## Activations -/

/-- One activation of a function. -/
structure Activation where
  /-- How many activations were begun before this one. -/
  serial : Nat
  /-- The storage it is kept in. -/
  frame : FrameId
  function : Value
  args : Address
  argCount : Nat
  locals : Address := 0
  localCount : Nat := 0
  /-- The offset recorded last. -/
  pc : Option Nat := none
  /-- Were locals attached? -/
  attached : Bool := false
  /-- The slots that variables were captured from, in order. -/
  captured : List (Nat × SlotKind) := []
deriving DecidableEq

namespace Activation

/-- Where a run of slots starts. -/
def base (a : Activation) : SlotKind → Address
  | .argument => a.args
  | .localVar => a.locals

/-- How many slots of a kind the activation has. -/
def count (a : Activation) : SlotKind → Nat
  | .argument => a.argCount
  | .localVar => a.localCount

instance decidableCaptured (a : Activation) (index : Nat) (kind : SlotKind) :
    Decidable ((index, kind) ∈ a.captured) := inferInstance

/-- What a walk shows of an activation. -/
def info (a : Activation) : FrameInfo :=
  { function := a.function, pc := a.pc, argCount := a.argCount, localCount := a.localCount,
    openCaptures := a.captured.length }

end Activation

/-- The activations that were begun and not left yet, innermost first. -/
structure CallStack where
  linked : List Activation := []
  /-- How many activations were begun so far. -/
  begun : Nat := 0
  /-- The next storage to set aside. -/
  freshFrame : FrameId
deriving DecidableEq

namespace CallStack

/-- The storage of the linked activations, innermost first. -/
def frames (s : CallStack) : List FrameId := s.linked.map Activation.frame

/-- The innermost storage. -/
def top (s : CallStack) : Option FrameId := s.frames.head?

/-- The activation kept in some storage. -/
def find? (s : CallStack) (id : FrameId) : Option Activation :=
  s.linked.find? fun a => a.frame == id

/-- Changes the activation kept in some storage. -/
def update (s : CallStack) (id : FrameId) (f : Activation → Activation) : CallStack :=
  { s with linked := s.linked.map fun a => if a.frame = id then f a else a }

/-! ### Transitions -/

/-- Sets storage aside. -/
def newFrame (s : CallStack) : CallStack := { s with freshFrame := s.freshFrame + 1 }

/-- The stack with an activation pushed. -/
def pushed (s : CallStack) (id : FrameId) (function : Value) (args : Address) (argCount : Nat) :
    CallStack :=
  { s with
    linked := { serial := s.begun, frame := id, function, args, argCount } :: s.linked
    begun := s.begun + 1 }

/-- Pushes an activation, unless its storage is missing or in use. -/
def enter (s : CallStack) (frame : Option FrameId) (function : Value) (args : Address)
    (argCount : Nat) : Option CallStack := do
  let id ← frame
  if id ∈ s.frames then none else return s.pushed id function args argCount

/-- Records the locals of a linked activation. -/
def attachLocals (s : CallStack) (frame : Option FrameId) (locals : Address) (count : Nat) :
    Option CallStack := do
  let id ← frame
  let _ ← s.find? id
  return s.update id fun a => { a with locals, localCount := count, attached := true }

/-- Records the offset of a linked activation, which must lie in the code. -/
def setPc (s : CallStack) (frame : Option FrameId) (code : Bytecode) (pc : Nat) :
    Option CallStack := do
  let id ← frame
  let _ ← s.find? id
  if code.containsPc pc then return s.update id fun a => { a with pc := some pc } else none

/-- Captures a slot of a linked activation. A slot that was captured before is not looked up
again. -/
def capture (s : CallStack) (frame : Option FrameId) (index : Nat) (kind : SlotKind) :
    Option CallStack := do
  let id ← frame
  let a ← s.find? id
  if (index, kind) ∈ a.captured then return s
  else if index < a.count kind then
    return s.update id fun a => { a with captured := a.captured ++ [(index, kind)] }
  else none

/-- Pops the innermost activation. No other can be left. -/
def exit (s : CallStack) (frame : Option FrameId) : Option CallStack :=
  match s.linked with
  | [] => none
  | a :: rest => if frame = some a.frame then some { s with linked := rest } else none

/-- The innermost activation, if it has the local. -/
def localOfTop (s : CallStack) (index : Nat) : Option Activation := do
  let a ← s.linked.head?
  if index < a.localCount then return a else none

/-! ### What the transitions do -/

variable {s : CallStack}

theorem mem_frames {id : FrameId} :
    id ∈ s.frames ↔ ∃ a ∈ s.linked, a.frame = id := List.mem_map

theorem find?_eq_none {id : FrameId} : s.find? id = none ↔ id ∉ s.frames := by
  unfold find?
  rw [List.find?_eq_none, mem_frames]
  simp

theorem find?_some {id : FrameId} {a : Activation} (h : s.find? id = some a) :
    a ∈ s.linked ∧ a.frame = id :=
  ⟨List.mem_of_find?_eq_some h, by simpa using List.find?_some h⟩

theorem exists_find? {id : FrameId} (h : id ∈ s.frames) :
    ∃ a, s.find? id = some a := by
  cases hf : s.find? id with
  | none => exact absurd h (find?_eq_none.mp hf)
  | some a => exact ⟨a, rfl⟩

theorem frames_update (s : CallStack) (id : FrameId) {f : Activation → Activation}
    (hf : ∀ a, (f a).frame = a.frame) : (s.update id f).frames = s.frames := by
  unfold update frames
  rw [List.map_map]
  refine List.map_congr_left fun a _ => ?_
  by_cases h : a.frame = id <;> simp [h, hf]

theorem mem_update {id : FrameId} {f : Activation → Activation} {b : Activation} :
    b ∈ (s.update id f).linked ↔ ∃ a ∈ s.linked, (if a.frame = id then f a else a) = b :=
  List.mem_map

theorem length_update (s : CallStack) (id : FrameId) (f : Activation → Activation) :
    (s.update id f).linked.length = s.linked.length := List.length_map _

theorem enter_of_mem {id : FrameId} (h : id ∈ s.frames) (function : Value) (args : Address)
    (argCount : Nat) : s.enter (some id) function args argCount = none := by
  simp [enter, h]

theorem enter_of_not_mem {id : FrameId} (h : id ∉ s.frames) (function : Value) (args : Address)
    (argCount : Nat) :
    s.enter (some id) function args argCount = some (s.pushed id function args argCount) := by
  simp [enter, h]

section

variable {id : FrameId} {a : Activation}

theorem attachLocals_of_none {frame : Option FrameId} (h : frame.bind s.find? = none)
    (locals : Address) (count : Nat) : s.attachLocals frame locals count = none := by
  cases frame <;> simp_all [attachLocals]

theorem attachLocals_of_find? (h : s.find? id = some a) (locals : Address) (count : Nat) :
    s.attachLocals (some id) locals count =
      some (s.update id fun a => { a with locals, localCount := count, attached := true }) := by
  simp [attachLocals, h]

theorem setPc_of_none {frame : Option FrameId} (h : frame.bind s.find? = none) (code : Bytecode)
    (pc : Nat) : s.setPc frame code pc = none := by
  cases frame <;> simp_all [setPc]

theorem setPc_of_find? (h : s.find? id = some a) (code : Bytecode) (pc : Nat) :
    s.setPc (some id) code pc = if code.containsPc pc then
      some (s.update id fun a => { a with pc := some pc }) else none := by
  simp [setPc, h]

theorem capture_of_none {frame : Option FrameId} (h : frame.bind s.find? = none) (index : Nat)
    (kind : SlotKind) : s.capture frame index kind = none := by
  cases frame <;> simp_all [capture]

theorem capture_of_find? (h : s.find? id = some a) (index : Nat) (kind : SlotKind) :
    s.capture (some id) index kind =
      if (index, kind) ∈ a.captured then some s
      else if index < a.count kind then
        some (s.update id fun a => { a with captured := a.captured ++ [(index, kind)] })
      else none := by
  simp [capture, h]

end

theorem exit_of_top {a : Activation} {rest : List Activation} (h : s.linked = a :: rest) :
    s.exit (some a.frame) = some { s with linked := rest } := by
  simp [exit, h]

theorem exit_of_ne_top {frame : Option FrameId} (h : ¬ (frame.isSome ∧ frame = s.top)) :
    s.exit frame = none := by
  unfold exit
  cases hl : s.linked with
  | nil => rfl
  | cons a rest =>
    refine if_neg ?_
    rintro rfl
    exact h ⟨rfl, by simp [top, frames, hl]⟩

theorem top_eq_some {id : FrameId} (h : s.top = some id) :
    ∃ a rest, s.linked = a :: rest ∧ a.frame = id := by
  unfold top frames at h
  cases hl : s.linked with
  | nil => rw [hl] at h; exact absurd h (by simp)
  | cons a rest => rw [hl] at h; exact ⟨a, rest, rfl, by simpa using h⟩

theorem find?_of_top {a : Activation} {rest : List Activation} (h : s.linked = a :: rest) :
    s.find? a.frame = some a := by
  simp [find?, h]

end CallStack

/-! ## Programs on the stack -/

/-- The storage a reference leads to. -/
def FrameRef.findOn (s : CallStack) : FrameRef → Option FrameId
  | .null => none
  | .owned id => if id < s.freshFrame then some id else none
  | .current => s.top

/-- A call on the stack. -/
def FrameCall.onStack (recording : Bool) : FrameCall → Spec CallStack Unit
  | newFrame => Spec.move fun s => some s.newFrame
  | enter frame function args argCount =>
    Spec.entering recording function fun s => s.enter (frame.findOn s) function args argCount
  | attachLocals frame locals count =>
    Spec.move fun s => s.attachLocals (frame.findOn s) locals count
  | setPc frame code pc => Spec.move fun s => s.setPc (frame.findOn s) code pc
  | capture frame index kind => Spec.move fun s => s.capture (frame.findOn s) index kind
  | exit frame => Spec.move fun s => s.exit (frame.findOn s)
  | captureCurrent index kind => Spec.move fun s => s.capture s.top index kind
  | setCurrentLocal index _ => Spec.move fun s => (s.localOfTop index).map fun _ => s
  | setVariable _ _ | newVariable _ | poke _ _ => pure ()

/-- Opens a scope: new storage, entered, with its locals. -/
def CallStack.opening (recording : Bool) (c : ScopeCall) : Spec CallStack FrameId := do
  let id := (← get).freshFrame
  Spec.move fun s => some s.newFrame
  Spec.entering recording c.function fun s => s.enter (some id) c.function c.args c.argCount
  Spec.move fun s => s.attachLocals (some id) c.locals c.localCount
  return id

/-- Closes a scope: its activation must be the innermost one. -/
def CallStack.close (id : FrameId) : Spec CallStack Unit := fun s =>
  match s.exit (some id) with
  | some s => .ok () s
  | none => .error .abort s

/-- A program on the stack. -/
def Program.onStack (recording : Bool) (p : Program FrameCall) : Spec CallStack Unit :=
  p.spec (FrameCall.onStack recording) (CallStack.opening recording) CallStack.close

end TieredVm
