import TieredVm.Frame.Scope
import TieredVm.Proofs.Run

/-!
# What each frame operation does

One lemma for each operation of the chain, for the case in which it goes through, and one that says
it is refused in every other case. A refused operation is a violation (`Refused`): it adds a line to
the journal and changes nothing else. Nothing later unfolds an operation again.

* `entered`, `left`, `putFrame`, `addedCapture` are the machines that the operations leave.
* `enter_idle` / `enter_refused`, `exit_innermost` / `exit_refused`, and so on.
* `captureValue_left`: leaving a frame changes the value of no captured variable, and
  `captures_left` says which of them own their value afterwards.
-/

namespace TieredVm

variable {R α : Type}

/-! ## Machines that operations leave -/

namespace Machine

/-- The machine with a frame stored back at its address. -/
def putFrame (m : Machine R) (id : FrameId) (f : Frame) : Machine R :=
  { m with frames := m.frames.set id f }

/-- The machine with a frame linked above the innermost one. -/
def entered (m : Machine R) (id : FrameId) (function : Value) (args : Address) (argCount : Nat) :
    Machine R :=
  { m with
    frames := m.frames.set id
      { below := m.chain.current, function, args, argCount, state := .active }
    chain := { current := some id, depth := m.chain.depth + 1 } }

/-- The machine with a frame unlinked and the variables captured from it detached. -/
def left (m : Machine R) (id : FrameId) : Machine R :=
  let f := m.frames.get id
  let closed := f.captured.foldl closeCapture m
  { closed with
    frames := closed.frames.set id { f with below := none, captured := [], state := .exited }
    chain := { current := f.below, depth := m.chain.depth - 1 } }

/-- The machine with a further captured variable. -/
def addedCapture (m : Machine R) (cell : CaptureCell) : Machine R :=
  { m with captures := m.captures.set m.freshCapture cell, freshCapture := m.freshCapture + 1 }

/-- The machine with a slot overwritten. -/
def written (m : Machine R) (slot : Address) (v : Value) : Machine R :=
  { m with memory := m.memory.set slot v }

theorem newFrame_apply (m : Machine R) :
    newFrame m = .ok m.freshFrame { m with freshFrame := m.freshFrame + 1 } := rfl

/-! ### Detaching captured variables -/

theorem captureValue_closeCapture (m : Machine R) (c d : Capture) :
    (m.closeCapture c).captureValue d = m.captureValue d := by
  unfold closeCapture captureValue
  by_cases h : d.id = c.id
  · simp [h]
  · simp [h]

theorem captureValue_foldl_close (cs : List Capture) :
    ∀ (m : Machine R) (d : Capture), (cs.foldl closeCapture m).captureValue d = m.captureValue d := by
  induction cs with
  | nil => intro m d; rfl
  | cons c cs ih =>
    intro m d
    rw [List.foldl_cons, ih, captureValue_closeCapture]

/-- Detaching variables changes their cells and nothing else. -/
theorem foldl_close_eq (cs : List Capture) : ∀ m : Machine R,
    cs.foldl closeCapture m = { m with captures := (cs.foldl closeCapture m).captures } := by
  induction cs with
  | nil => intro m; rfl
  | cons c cs ih => intro m; rw [List.foldl_cons, ih]; rfl

/-- Every detached variable owns the value it had, and every other is as it was. -/
theorem captures_foldl_close (cs : List Capture) (n : Nat) : ∀ m : Machine R,
    (cs.foldl closeCapture m).captures.get n =
      if (⟨n⟩ : Capture) ∈ cs then .owned (m.captureValue ⟨n⟩) else m.captures.get n := by
  induction cs with
  | nil => intro m; simp
  | cons c cs ih =>
    intro m
    rw [List.foldl_cons, ih, captureValue_closeCapture]
    by_cases hn : (⟨n⟩ : Capture) ∈ cs
    · simp [hn]
    · by_cases hc : (⟨n⟩ : Capture) = c
      · subst hc
        simp [hn, closeCapture]
      · have : n ≠ c.id := fun h => hc (by cases c; simp_all)
        simp [hn, hc, closeCapture, this]

theorem frames_left (m : Machine R) (id : FrameId) :
    (m.left id).frames = m.frames.set id
      { m.frames.get id with below := none, captured := [], state := .exited } := by
  unfold left
  simp only
  rw [foldl_close_eq]

theorem chain_left (m : Machine R) (id : FrameId) :
    (m.left id).chain = { current := (m.frames.get id).below, depth := m.chain.depth - 1 } := rfl

theorem memory_left (m : Machine R) (id : FrameId) : (m.left id).memory = m.memory := by
  unfold left
  simp only
  rw [foldl_close_eq]

theorem freshFrame_left (m : Machine R) (id : FrameId) : (m.left id).freshFrame = m.freshFrame := by
  unfold left
  simp only
  rw [foldl_close_eq]

theorem freshCapture_left (m : Machine R) (id : FrameId) :
    (m.left id).freshCapture = m.freshCapture := by
  unfold left
  simp only
  rw [foldl_close_eq]

theorem journal_left (m : Machine R) (id : FrameId) : (m.left id).journal = m.journal := by
  unfold left
  simp only
  rw [foldl_close_eq]

theorem runtime_left (m : Machine R) (id : FrameId) : (m.left id).runtime = m.runtime := by
  unfold left
  simp only
  rw [foldl_close_eq]

/-- The variables captured from a frame own the values they had when it was left. -/
theorem captures_left (m : Machine R) (id : FrameId) (n : Nat) :
    (m.left id).captures.get n =
      if (⟨n⟩ : Capture) ∈ (m.frames.get id).captured then .owned (m.captureValue ⟨n⟩)
      else m.captures.get n :=
  captures_foldl_close _ n m

/-- Leaving a frame changes the value of no captured variable. -/
theorem captureValue_left (m : Machine R) (id : FrameId) (c : Capture) :
    (m.left id).captureValue c = m.captureValue c :=
  captureValue_foldl_close _ m c

end Machine

/-! ## Refusal -/

/-- A violation ended the operation, and but for a line in the journal nothing changed. -/
def Refused (m : Machine R) (r : EStateM.Result Stop (Machine R) α) : Prop :=
  ∃ v, r = Run.violate v m

theorem Refused.discard {x : Run R α} {m : Machine R} (h : Refused m (x m)) :
    Refused m ((Functor.discard x : Run R PUnit) m) := by
  obtain ⟨v, hv⟩ := h
  exact ⟨v, Run.discard_of_error hv⟩

/-- The slot a frame address leads to is that of a linked frame. -/
def Machine.Linked (m : Machine R) (frame : Option FrameId) : Prop :=
  ∃ id, frame = some id ∧ (m.frames.get id).state = .active

namespace Frame

/-- Where a run of slots starts. -/
def base (f : Frame) : SlotKind → Address
  | .argument => f.args
  | .localVar => f.locals

/-- How many slots of a kind the frame has. -/
def count (f : Frame) : SlotKind → Nat
  | .argument => f.argCount
  | .localVar => f.localCount

theorem slot_of_lt {f : Frame} (kind : SlotKind) {i : Nat} (h : i < f.count kind) :
    f.slot kind i = .ok (Machine.slotAddress (f.base kind) i) := by
  cases kind <;> simp_all [slot, count, base]

theorem slot_of_le {f : Frame} (kind : SlotKind) {i : Nat} (h : ¬ i < f.count kind) :
    f.slot kind i = .error (.slotOutOfRange kind i (f.count kind)) := by
  cases kind <;> simp_all [slot, count]

end Frame

namespace Chain

open Machine

theorem active_of_linked (use : FrameUse) {m : Machine R} {id : FrameId}
    (h : (m.frames.get id).state = .active) :
    active use (some id) m = .ok (id, m.frames.get id) m := by
  simp [active, Run.bind_apply, Run.get_apply, h, Run.pure_apply]

theorem active_refused (use : FrameUse) {m : Machine R} {frame : Option FrameId}
    (h : ¬ m.Linked frame) : ∃ v, active use frame m = Run.violate v m := by
  cases frame with
  | none => exact ⟨_, rfl⟩
  | some id =>
    have hs : (m.frames.get id).state ≠ .active := fun hs => h ⟨id, rfl, hs⟩
    exact ⟨.idleFrame use (m.frames.get id).state, by
      simp [active, Run.bind_apply, Run.get_apply, hs]⟩

/-- What needs a linked frame is refused without one. -/
theorem refused_of_active (use : FrameUse) {m : Machine R} {frame : Option FrameId}
    (h : ¬ m.Linked frame) (next : FrameId × Frame → Run R α) :
    Refused m ((active use frame >>= next) m) := by
  obtain ⟨v, hv⟩ := active_refused use h
  refine ⟨v, ?_⟩
  rw [Run.bind_apply, hv]
  rfl

/-! ## Entering -/

theorem enter_idle {m : Machine R} {id : FrameId} (h : (m.frames.get id).state ≠ .active)
    (function : Value) (args : Address) (argCount : Nat) :
    enter (some id) function args argCount m =
      Run.emit (.enter (m.chain.depth + 1) function) (m.entered id function args argCount) := by
  simp [enter, Run.bind_apply, Run.get_apply, h, Run.set_apply, entered]

theorem enter_refused {m : Machine R} {frame : Option FrameId}
    (h : ¬ ∃ id, frame = some id ∧ (m.frames.get id).state ≠ .active)
    (function : Value) (args : Address) (argCount : Nat) :
    Refused m (enter frame function args argCount m) := by
  cases frame with
  | none => exact ⟨.enterNull, rfl⟩
  | some id =>
    have hs : (m.frames.get id).state = .active :=
      Decidable.byContradiction fun hs => h ⟨id, rfl, hs⟩
    exact ⟨.enterActive, by simp [enter, Run.bind_apply, Run.get_apply, hs, Run.violate_apply]⟩

/-- Entering a frame whose function can be shown, or without recording, goes through. -/
theorem enter_shown {m : Machine R} {id : FrameId} (h : (m.frames.get id).state ≠ .active)
    {function : Value} (hf : m.journal.isSome = true → function.dangling = false)
    (args : Address) (argCount : Nat) : ∃ line,
    enter (some id) function args argCount m =
      .ok () ((m.entered id function args argCount).noted line) := by
  rw [enter_idle h]
  refine Run.emit_of_shown fun hj => ?_
  obtain ⟨s, hs⟩ := Value.text_of_shown (hf hj)
  exact ⟨_, by rw [Event.line, hs]; rfl⟩

/-- A reference to nothing cannot be recorded: the frame is linked by then. -/
theorem enter_dangling {m : Machine R} {id : FrameId} (h : (m.frames.get id).state ≠ .active)
    {function : Value} (hd : function.dangling = true) (hj : m.journal.isSome = true)
    (args : Address) (argCount : Nat) : ∃ t,
    enter (some id) function args argCount m =
      Run.violate (.nullPointer t) (m.entered id function args argCount) := by
  obtain ⟨t, ht⟩ := Value.text_of_dangling hd
  refine ⟨t, ?_⟩
  rw [enter_idle h, Run.emit_of_error (v := .nullPointer t) (by rw [Event.line, ht]; rfl)]
  exact if_pos hj

/-! ## Locals and offsets -/

theorem attachLocals_linked {m : Machine R} {id : FrameId}
    (h : (m.frames.get id).state = .active) (locals : Address) (count : Nat) :
    attachLocals (some id) locals count m =
      .ok () (m.putFrame id { m.frames.get id with locals, localCount := count }) := by
  rw [attachLocals, Run.bind_of_ok (active_of_linked _ h)]
  rfl

theorem attachLocals_refused {m : Machine R} {frame : Option FrameId} (h : ¬ m.Linked frame)
    (locals : Address) (count : Nat) : Refused m (attachLocals frame locals count m) :=
  refused_of_active _ h _

theorem setPc_inside {m : Machine R} {id : FrameId} (h : (m.frames.get id).state = .active)
    {code : Bytecode} {pc : Nat} (hpc : code.containsPc pc = true) :
    setPc (some id) code pc m = .ok () (m.putFrame id { m.frames.get id with pc := some pc }) := by
  rw [setPc, Run.bind_of_ok (active_of_linked _ h)]
  simp [hpc, putFrame]
  rfl

theorem setPc_refused {m : Machine R} {frame : Option FrameId} {code : Bytecode} {pc : Nat}
    (h : ¬ (m.Linked frame ∧ code.containsPc pc = true)) : Refused m (setPc frame code pc m) := by
  by_cases hl : m.Linked frame
  · have hpc : code.containsPc pc = false := by
      cases hpc : code.containsPc pc with
      | false => rfl
      | true => exact absurd ⟨hl, hpc⟩ h
    obtain ⟨id, rfl, hs⟩ := hl
    refine ⟨.pcOutside pc code.displayName code.codeLength, ?_⟩
    rw [setPc, Run.bind_of_ok (active_of_linked _ hs)]
    simp [hpc, Run.bind_apply, Run.violate_apply]
  · exact refused_of_active _ hl _

/-! ## Leaving -/

theorem exit_innermost {m : Machine R} {id : FrameId} (h : (m.frames.get id).state = .active)
    (hc : m.chain.current = some id) :
    exit (some id) m = .ok () ((m.left id).noted s!"TRACE frame exit depth={m.chain.depth - 1}") := by
  rw [exit, Run.bind_of_ok (active_of_linked _ h)]
  simp [Run.bind_apply, Run.get_apply, hc, Run.set_apply]
  exact Run.emit_of_line rfl _

theorem exit_refused {m : Machine R} {frame : Option FrameId}
    (h : ¬ (m.Linked frame ∧ m.chain.current = frame)) : Refused m (exit frame m) := by
  by_cases hl : m.Linked frame
  · obtain ⟨id, rfl, hs⟩ := hl
    have hc : m.chain.current ≠ some id := fun hc => h ⟨⟨id, rfl, hs⟩, hc⟩
    refine ⟨.exitOutOfOrder m.chain.depth, ?_⟩
    rw [exit, Run.bind_of_ok (active_of_linked _ hs)]
    simp [Run.bind_apply, Run.get_apply, hc, Run.violate_apply]
  · exact refused_of_active _ hl _

/-! ## Captures -/

/-- The variable a frame already shares the slot with, if there is one. -/
def captured? (m : Machine R) (id : FrameId) (index : Nat) (kind : SlotKind) : Option Capture :=
  (m.frames.get id).captured.find? (m.sharesSlot index kind)

theorem captureOf_again {m : Machine R} {id : FrameId} {index : Nat} {kind : SlotKind}
    {c : Capture} (h : captured? m id index kind = some c) :
    captureOf id (m.frames.get id) index kind m = .ok c m := by
  rw [captured?] at h
  simp [captureOf, Run.bind_apply, Run.get_apply, h, Run.pure_apply]

theorem captureOf_new {m : Machine R} {id : FrameId} {index : Nat} {kind : SlotKind}
    (h : captured? m id index kind = none) (hi : index < (m.frames.get id).count kind) :
    captureOf id (m.frames.get id) index kind m =
      .ok ⟨m.freshCapture⟩
        ((m.addedCapture (.shared (slotAddress ((m.frames.get id).base kind) index) index kind)).putFrame
          id { m.frames.get id with
            captured := (m.frames.get id).captured ++ [⟨m.freshCapture⟩] }) := by
  rw [captured?] at h
  simp [captureOf, Run.bind_apply, Run.get_apply, h, Frame.slot_of_lt kind hi, Run.expect_ok,
    addCapture, Run.set_apply]
  rfl

theorem captureOf_refused {m : Machine R} {id : FrameId} {index : Nat} {kind : SlotKind}
    (h : captured? m id index kind = none) (hi : ¬ index < (m.frames.get id).count kind) :
    Refused m (captureOf id (m.frames.get id) index kind m) := by
  refine ⟨.slotOutOfRange kind index ((m.frames.get id).count kind), ?_⟩
  rw [captured?] at h
  simp [captureOf, Run.bind_apply, Run.get_apply, h, Frame.slot_of_le kind hi, Run.expect_error,
    Run.violate_apply]

theorem capture_linked {m : Machine R} {id : FrameId} (h : (m.frames.get id).state = .active)
    (index : Nat) (kind : SlotKind) :
    capture (some id) index kind m = captureOf id (m.frames.get id) index kind m := by
  rw [capture, Run.bind_of_ok (active_of_linked _ h)]

theorem capture_refused {m : Machine R} {frame : Option FrameId} (h : ¬ m.Linked frame)
    (index : Nat) (kind : SlotKind) : Refused m (capture frame index kind m) :=
  refused_of_active _ h _

/-- A slot of a linked frame is captured, or the call is refused. -/
theorem capture_cases (m : Machine R) (frame : Option FrameId) (index : Nat) (kind : SlotKind) :
    (∃ id, (m.frames.get id).state = .active ∧
      capture frame index kind m = captureOf id (m.frames.get id) index kind m) ∨
      Refused m (capture frame index kind m) := by
  by_cases h : m.Linked frame
  · obtain ⟨id, rfl, hs⟩ := h
    exact .inl ⟨id, hs, capture_linked hs index kind⟩
  · exact .inr (capture_refused h ..)

/-! ## The innermost frame -/

theorem innermost_linked (use : FrameUse) {m : Machine R} {id : FrameId}
    (hc : m.chain.current = some id) (h : (m.frames.get id).state = .active) :
    innermost use m = .ok (id, m.frames.get id) m := by
  rw [innermost, Run.bind_of_ok (Run.get_apply m), hc, active_of_linked use h]

/-- What needs an innermost frame is refused when there is none. -/
theorem refused_of_innermost (use : FrameUse) {m : Machine R} (h : ¬ m.Linked m.chain.current)
    (next : FrameId × Frame → Run R α) : Refused m ((innermost use >>= next) m) := by
  obtain ⟨v, hv⟩ := active_refused use h
  refine ⟨v, ?_⟩
  rw [Run.bind_apply, innermost, Run.bind_of_ok (Run.get_apply m), hv]
  rfl

theorem captureCurrent_linked {m : Machine R} {id : FrameId} (hc : m.chain.current = some id)
    (h : (m.frames.get id).state = .active) (index : Nat) (kind : SlotKind) :
    captureCurrent index kind m = captureOf id (m.frames.get id) index kind m := by
  rw [captureCurrent, Run.bind_of_ok (innermost_linked _ hc h)]

/-- A slot of the innermost frame is captured, or the call is refused. -/
theorem captureCurrent_cases (m : Machine R) (index : Nat) (kind : SlotKind) :
    (∃ id, (m.frames.get id).state = .active ∧
      captureCurrent index kind m = captureOf id (m.frames.get id) index kind m) ∨
      Refused m (captureCurrent index kind m) := by
  by_cases h : m.Linked m.chain.current
  · obtain ⟨id, hc, hs⟩ := h
    exact .inl ⟨id, hs, captureCurrent_linked hc hs index kind⟩
  · exact .inr (refused_of_innermost _ h _)

/-- A read of a slot of the innermost frame. -/
def readCurrent (use : FrameUse) (kind : SlotKind) (index : Nat) : Run R Value := do
  let (_, f) ← innermost use
  let slot ← Run.expect (f.slot kind index)
  return (← get).memory.get slot

theorem currentArg_eq (index : Nat) :
    (currentArg index : Run R Value) = readCurrent .currentArg .argument index := rfl

theorem currentLocal_eq (index : Nat) :
    (currentLocal index : Run R Value) = readCurrent .currentLocal .localVar index := rfl

theorem readCurrent_inside (use : FrameUse) {m : Machine R} {id : FrameId}
    (hc : m.chain.current = some id) (h : (m.frames.get id).state = .active) {kind : SlotKind}
    {index : Nat} (hi : index < (m.frames.get id).count kind) :
    readCurrent use kind index m =
      .ok (m.memory.get (slotAddress ((m.frames.get id).base kind) index)) m := by
  rw [readCurrent, Run.bind_of_ok (innermost_linked _ hc h)]
  simp only [Frame.slot_of_lt kind hi, Run.expect_ok, pure_bind]
  rfl

/-- What needs a slot of the innermost frame is refused when it has no such slot. -/
theorem refused_of_slot (use : FrameUse) {m : Machine R} {kind : SlotKind} {index : Nat}
    (h : ¬ ∃ id, m.chain.current = some id ∧ (m.frames.get id).state = .active ∧
      index < (m.frames.get id).count kind) (next : Address → Run R α) :
    Refused m ((innermost use >>= fun (_, f) => Run.expect (f.slot kind index) >>= next) m) := by
  by_cases hl : m.Linked m.chain.current
  · obtain ⟨id, hc, hs⟩ := hl
    have hi : ¬ index < (m.frames.get id).count kind := fun hi => h ⟨id, hc, hs, hi⟩
    refine ⟨.slotOutOfRange kind index ((m.frames.get id).count kind), ?_⟩
    rw [Run.bind_of_ok (innermost_linked _ hc hs)]
    simp [Frame.slot_of_le kind hi, Run.expect_error, Run.bind_apply, Run.violate_apply]
  · exact refused_of_innermost _ hl _

theorem readCurrent_refused (use : FrameUse) {m : Machine R} {kind : SlotKind} {index : Nat}
    (h : ¬ ∃ id, m.chain.current = some id ∧ (m.frames.get id).state = .active ∧
      index < (m.frames.get id).count kind) : Refused m (readCurrent use kind index m) :=
  refused_of_slot use h _

theorem setCurrentLocal_inside {m : Machine R} {id : FrameId} (hc : m.chain.current = some id)
    (h : (m.frames.get id).state = .active) {index : Nat}
    (hi : index < (m.frames.get id).localCount) (v : Value) :
    setCurrentLocal index v m =
      .ok () (m.written (slotAddress (m.frames.get id).locals index) v) := by
  rw [setCurrentLocal, Run.bind_of_ok (innermost_linked _ hc h)]
  simp [Frame.slot_of_lt .localVar hi, Run.expect_ok, Run.modify_apply, Frame.base,
    written]

theorem setCurrentLocal_refused {m : Machine R} {index : Nat}
    (h : ¬ ∃ id, m.chain.current = some id ∧ (m.frames.get id).state = .active ∧
      index < (m.frames.get id).count .localVar) (v : Value) :
    Refused m (setCurrentLocal index v m) :=
  refused_of_slot .setCurrentLocal h _

/-! ## Scopes -/

theorem leaveScope_innermost {m : Machine R} {id : FrameId} (hc : m.chain.current = some id) :
    leaveScope id m = exit (some id) m := by
  simp [leaveScope, Run.bind_apply, Run.get_apply, hc]

theorem leaveScope_broken {m : Machine R} {id : FrameId} (hc : m.chain.current ≠ some id) :
    leaveScope id m = .error (.abort (.brokenScope m.chain.depth))
      (m.noted s!"ERROR frame left linked above a scoped frame depth={m.chain.depth}") := by
  rw [leaveScope, Run.bind_of_ok (Run.get_apply m)]
  simp only [ne_eq, hc, not_false_eq_true, if_true]
  rw [Run.bind_apply, Run.emit_of_line rfl m]
  rfl

end Chain

end TieredVm
