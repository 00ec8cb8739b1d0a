import TieredVm.Proofs.Frame.Refinement

/-!
# Frames that come and go

An operation that sets frames aside, enters them and leaves them again *resumes* the machine
(`Machine.Resumed`): chain, memory and captured variables are as they were, and so is every frame that
was set aside before. It may have recorded events, and what it did to the interpreter's state and to
the pending exception is left open.

* `Represents.resumed`: the machine represents the same activations as before.
* `Machine.began`: a new frame entered for a function, at its first offset.
* `Machine.Resumed.exit_began`: what resumes that machine resumes the one before, once the frame is left.
* `Represents.walk_began`, `Represents.walk_resumed`: what a walk shows meanwhile and afterwards.
-/

namespace TieredVm

variable {R : Type} {recording : Bool} {m m' m'' : Machine R} {s : CallStack}

/-- An operation set frames aside, entered them and left them again. -/
structure Machine.Resumed (m m' : Machine R) : Prop where
  chain : m'.chain = m.chain
  memory : m'.memory = m.memory
  captures : m'.captures = m.captures
  freshSlot : m'.freshSlot = m.freshSlot
  freshCapture : m'.freshCapture = m.freshCapture
  /-- Frames that had been set aside are as they were. -/
  frames : ∀ id, id < m.freshFrame → m'.frames.get id = m.frames.get id
  /-- The others are idle. -/
  idle : ∀ id, m.freshFrame ≤ id → (m'.frames.get id).state ≠ .active
  freshFrame : m.freshFrame ≤ m'.freshFrame
  recording : m'.journal.isSome = m.journal.isSome

namespace Machine.Resumed

theorem trans (h : m.Resumed m') (h' : m'.Resumed m'') : m.Resumed m'' where
  chain := h'.chain.trans h.chain
  memory := h'.memory.trans h.memory
  captures := h'.captures.trans h.captures
  freshSlot := h'.freshSlot.trans h.freshSlot
  freshCapture := h'.freshCapture.trans h.freshCapture
  frames id hid := (h'.frames id (Nat.lt_of_lt_of_le hid h.freshFrame)).trans (h.frames id hid)
  idle id hid := by
    by_cases hn : m'.freshFrame ≤ id
    · exact h'.idle id hn
    · rw [h'.frames id (Nat.lt_of_not_le hn)]
      exact h.idle id hid
  freshFrame := Nat.le_trans h.freshFrame h'.freshFrame
  recording := h'.recording.trans h.recording

theorem noted (h : m.Resumed m') (line : String) : m.Resumed (m'.noted line) :=
  { h with recording := by simpa [Machine.noted] using h.recording }

theorem withRuntime (h : m.Resumed m') (r : R) : m.Resumed { m' with runtime := r } :=
  ⟨h.chain, h.memory, h.captures, h.freshSlot, h.freshCapture, h.frames, h.idle, h.freshFrame,
    h.recording⟩

theorem withPending (h : m.Resumed m') (e : Option Exception) :
    m.Resumed { m' with pending := e } :=
  ⟨h.chain, h.memory, h.captures, h.freshSlot, h.freshCapture, h.frames, h.idle, h.freshFrame,
    h.recording⟩

end Machine.Resumed

theorem Chain.Path.congr {frames frames' : Store Frame} :
    ∀ {l : List FrameId} {start : Option FrameId}, Path frames start l →
      (∀ id ∈ l, frames'.get id = frames.get id) → Path frames' start l
  | [], none, _, _ => trivial
  | [], some _, h, _ => h
  | _ :: _, none, h, _ => h
  | i :: rest, some j, h, hf => by
    obtain ⟨rfl, h⟩ := h
    refine ⟨rfl, ?_⟩
    rw [hf j List.mem_cons_self]
    exact h.congr fun id hid => hf id (List.mem_cons_of_mem _ hid)

namespace Represents

/-- A frame yet to be set aside is idle. -/
theorem idle (h : Represents recording m s) {id : FrameId} (hid : m.freshFrame ≤ id) :
    (m.frames.get id).state ≠ .active := fun hs => by
  have hlt := h.setAside id ((h.active_iff id).mp hs)
  rw [← h.freshFrame] at hlt
  exact absurd hid (Nat.not_le_of_lt hlt)

theorem resumed_self (h : Represents recording m s) : m.Resumed m :=
  ⟨rfl, rfl, rfl, rfl, rfl, fun _ _ => rfl, fun _ => h.idle, Nat.le_refl _, rfl⟩

/-- **A resumed machine represents the same activations.** -/
theorem resumed (h : Represents recording m s) (hr : m.Resumed m') :
    Represents recording m' { s with freshFrame := m'.freshFrame } := by
  have hget : ∀ id ∈ s.frames, m'.frames.get id = m.frames.get id := fun id hid =>
    hr.frames id (h.freshFrame ▸ h.setAside id hid)
  have hslots : ∀ c, m'.sharedSlot? c = m.sharedSlot? c := fun c => by
    rw [Machine.sharedSlot?, Machine.sharedSlot?, hr.captures]
  constructor
  case path =>
    rw [hr.chain]
    exact h.path.congr hget
  case depth => rw [hr.chain]; exact h.depth
  case once => exact h.once
  case active_iff =>
    intro id
    by_cases hid : id < m.freshFrame
    · rw [hr.frames id hid]
      exact h.active_iff id
    · refine iff_of_false (hr.idle id (Nat.le_of_not_lt hid)) fun hmem => hid ?_
      exact h.freshFrame ▸ h.setAside id hmem
  case stored =>
    intro a ha
    exact (h.stored a ha).of_frame (hget _ (CallStack.mem_frames.mpr ⟨a, ha, rfl⟩)) fun c _ =>
      hslots c
  case freshFrame => rfl
  case setAside =>
    intro id hid
    exact Nat.lt_of_lt_of_le (h.freshFrame ▸ h.setAside id hid) hr.freshFrame
  case handedOut =>
    intro id hid c hc
    rw [hget id hid] at hc
    rw [hr.freshCapture]
    exact h.handedOut id hid c hc
  case apart =>
    intro i hi j hj c hc hd
    rw [hget i hi] at hc
    rw [hget j hj] at hd
    exact h.apart i hi j hj c hc hd
  case found =>
    intro c hc
    rw [hslots] at hc
    obtain ⟨id, hid, hcm⟩ := h.found c hc
    exact ⟨id, hid, (hget id hid).symm ▸ hcm⟩
  case recording => rw [hr.recording]; exact h.recording

theorem walk_resumed (h : Represents recording m s) (hr : m.Resumed m') :
    Chain.walk m' = Chain.walk m := by
  rw [(h.resumed hr).walk, h.walk]

end Represents

/-! ## A call's frame -/

namespace Machine

/-- The machine with a new frame entered for a function, at its first offset, and a line recorded. -/
def began (m : Machine R) (function : Value) (line : String) : Machine R :=
  let entered := ({ m with freshFrame := m.freshFrame + 1 }.entered m.freshFrame function 0 0).noted line
  entered.putFrame m.freshFrame { entered.frames.get m.freshFrame with pc := some 0 }

theorem frame_began (m : Machine R) (function : Value) (line : String) :
    (m.began function line).frames.get m.freshFrame =
      { below := m.chain.current, function, pc := some 0, state := .active } := by
  simp [began, putFrame, noted, entered]

theorem frame_began_ne (m : Machine R) (function : Value) (line : String) {id : FrameId}
    (h : id ≠ m.freshFrame) : (m.began function line).frames.get id = m.frames.get id := by
  simp [began, putFrame, noted, entered, h]

/-- A frame with no captured variables is left without touching any. -/
theorem left_of_uncaptured {id : FrameId} (h : (m.frames.get id).captured = []) :
    m.left id = { m with
      frames := m.frames.set id { m.frames.get id with below := none, captured := [], state := .exited }
      chain := { current := (m.frames.get id).below, depth := m.chain.depth - 1 } } := by
  unfold left
  simp only [h, List.foldl_nil]

end Machine

namespace Represents

/-- Entering a new frame for a function pushes an activation at its first offset. -/
theorem began (h : Represents recording m s) (function : Value) (line : String) :
    Represents recording (m.began function line)
      { linked := { serial := s.begun, frame := m.freshFrame, function, args := 0, argCount := 0,
                    pc := some 0 } :: s.linked
        begun := s.begun + 1, freshFrame := s.freshFrame + 1 } := by
  have hnew : m.freshFrame ∉ s.newFrame.frames := fun hid => h.idle (Nat.le_refl _)
    ((h.active_iff _).mpr hid)
  have hlt : m.freshFrame < s.newFrame.freshFrame := h.freshFrame ▸ Nat.lt_succ_self _
  have hmoved := ((h.newFrame.entered hnew hlt function 0 0).noted line).moved List.mem_cons_self 0
  have hrest : ∀ a ∈ s.linked, a.frame ≠ m.freshFrame := fun a ha he =>
    hnew (CallStack.mem_frames.mpr ⟨a, ha, he⟩)
  have hlinked : (s.linked.map fun a => if a.frame = m.freshFrame then { a with pc := some 0 } else a) =
      s.linked :=
    (List.map_congr_left fun a ha => if_neg (hrest a ha)).trans (List.map_id _)
  have hstack : (s.newFrame.pushed m.freshFrame function 0 0).update m.freshFrame
      (fun a => { a with pc := some 0 }) =
      { linked := { serial := s.begun, frame := m.freshFrame, function, args := 0, argCount := 0,
                    pc := some 0 } :: s.linked
        begun := s.begun + 1, freshFrame := s.freshFrame + 1 } := by
    simp only [CallStack.update, CallStack.pushed, CallStack.newFrame, List.map_cons, if_true,
      hlinked]
  exact hstack ▸ hmoved

/-- A walk shows the new frame above the others. -/
theorem walk_began (h : Represents recording m s) (function : Value) (line : String) :
    Chain.walk (m.began function line) =
      { function, pc := some 0, argCount := 0, localCount := 0, openCaptures := 0 } ::
        Chain.walk m := by
  rw [(h.began function line).walk, h.walk]
  rfl

end Represents

/-- **Leaving the frame of a call resumes the machine before the call**, if what the call did resumed
the machine with the frame entered. -/
theorem Machine.Resumed.exit_began {function : Value} {line : String}
    (hr : (m.began function line).Resumed m') :
    ∃ m'', Chain.exit (some m.freshFrame) m' = .ok () m'' ∧
      m.Resumed m'' ∧ m''.runtime = m'.runtime ∧ m''.pending = m'.pending := by
  have hframe : m'.frames.get m.freshFrame = (m.began function line).frames.get m.freshFrame :=
    hr.frames _ (Nat.lt_succ_self _)
  rw [m.frame_began] at hframe
  have hleft : m'.left m.freshFrame = _ := m'.left_of_uncaptured (by rw [hframe])
  rw [hframe] at hleft
  refine ⟨_, Chain.exit_innermost (by rw [hframe]) (by rw [hr.chain]; rfl), ?_⟩
  rw [hleft]
  refine ⟨?_, rfl, rfl⟩
  constructor
  case chain =>
    show ({ current := m.chain.current, depth := m'.chain.depth - 1 } : Chain) = m.chain
    rw [hr.chain]
    rfl
  case memory => exact hr.memory
  case captures => exact hr.captures
  case freshSlot => exact hr.freshSlot
  case freshCapture => exact hr.freshCapture
  case frames =>
    intro id hid
    have hne : id ≠ m.freshFrame := Nat.ne_of_lt hid
    have hlt : id < (m.began function line).freshFrame := Nat.lt_succ_of_lt hid
    show (m'.frames.set m.freshFrame _).get id = _
    rw [Store.get_set_ne _ _ hne, hr.frames id hlt, m.frame_began_ne function line hne]
  case idle =>
    intro id hid
    show ((m'.frames.set m.freshFrame _).get id).state ≠ _
    by_cases hne : id = m.freshFrame
    · rw [hne, Store.get_set_self]
      exact (by decide : FrameState.exited ≠ .active)
    · rw [Store.get_set_ne _ _ hne]
      exact hr.idle id (Nat.lt_of_le_of_ne hid (Ne.symm hne))
  case freshFrame => exact Nat.le_of_succ_le hr.freshFrame
  case recording =>
    have hrec : m'.journal.isSome = m.journal.isSome := by
      rw [hr.recording]
      simp [Machine.began, Machine.putFrame, Machine.noted, Machine.entered]
    simpa [Machine.noted] using hrec

end TieredVm
