import TieredVm.Frame.Trace
import TieredVm.Proofs.Frame.Represent

/-!
# The chain refines the stack

Every call on the chain does to the linked frames what it does to the stack of activations, and is
rejected by the one exactly when it is by the other. Hence so does every program of such calls, with
its caught panics and its scopes.

* `FrameCall.simulates`, `ScopeCall.openFrame_simulates`, `Chain.leaveScope_simulates`: one call.
* `Program.simulates`: a program, from any machine that represents a stack.
* `Shows`: what a represented stack says about the machine, in terms of the machine.
* `run_refines_stack`: a program run from rest ends like the one on the empty stack, and the machine
  it leaves shows the stack that one leaves.
-/

namespace TieredVm

variable {R : Type} {recording : Bool} {m : Machine R} {s : CallStack}

/-! ## Single calls -/

namespace Represents

/-- A frame can be entered, or entering it is refused. -/
theorem enterable (h : Represents recording m s) (frame : Option FrameId) :
    (∃ id, frame = some id ∧ (m.frames.get id).state ≠ .active ∧ id ∉ s.frames) ∨
      ∀ function args argCount, Refused m (Chain.enter frame function args argCount m) ∧
        s.enter frame function args argCount = none := by
  by_cases hid : ∃ id, frame = some id ∧ (m.frames.get id).state ≠ .active
  · obtain ⟨id, hf, hs⟩ := hid
    exact .inl ⟨id, hf, hs, fun hm => hs ((h.active_iff id).mpr hm)⟩
  · refine .inr fun function args argCount => ⟨Chain.enter_refused hid .., ?_⟩
    cases frame with
    | none => rfl
    | some id =>
      refine CallStack.enter_of_mem ((h.active_iff id).mp ?_) ..
      exact Decidable.byContradiction fun hs => hid ⟨id, rfl, hs⟩

/-- A frame is that of the innermost activation, or leaving it is refused. -/
theorem leavable (h : Represents recording m s) (frame : Option FrameId) :
    (∃ a rest, s.linked = a :: rest ∧ frame = some a.frame ∧ m.chain.current = some a.frame ∧
      (m.frames.get a.frame).state = .active) ∨
      (Refused m (Chain.exit frame m) ∧ s.exit frame = none) := by
  by_cases hf : frame.isSome ∧ frame = s.top
  · obtain ⟨hsome, htop⟩ := hf
    obtain ⟨id, rfl⟩ := Option.isSome_iff_exists.mp hsome
    obtain ⟨a, rest, hl, rfl⟩ := CallStack.top_eq_some htop.symm
    exact .inl ⟨a, rest, hl, rfl, h.current.trans htop.symm, h.active (hl ▸ List.mem_cons_self)⟩
  · refine .inr ⟨Chain.exit_refused fun hl => hf ?_, CallStack.exit_of_ne_top hf⟩
    obtain ⟨⟨id, rfl, -⟩, hc⟩ := hl
    exact ⟨rfl, hc.symm.trans h.current⟩

/-- The innermost activation has the slot, or none is innermost that has. -/
theorem slotOfTop (h : Represents recording m s) (kind : SlotKind) (index : Nat) :
    (∃ a ∈ s.linked, s.linked.head? = some a ∧ index < a.count kind ∧
      m.chain.current = some a.frame ∧ (m.frames.get a.frame).state = .active) ∨
      (¬ ∃ id, m.chain.current = some id ∧ (m.frames.get id).state = .active ∧
        index < (m.frames.get id).count kind) ∧
      ∀ a, s.linked.head? = some a → ¬ index < a.count kind := by
  by_cases hl : ∃ a, s.linked.head? = some a ∧ index < a.count kind
  · obtain ⟨a, hh, hi⟩ := hl
    have ha : a ∈ s.linked := List.mem_of_head? hh
    refine .inl ⟨a, ha, hh, hi, ?_, h.active ha⟩
    rw [h.current, CallStack.top, CallStack.frames, List.head?_map, hh]
    rfl
  · refine .inr ⟨?_, fun a hh hi => hl ⟨a, hh, hi⟩⟩
    rintro ⟨id, hc, -, hi⟩
    obtain ⟨a, rest, hs, rfl⟩ := CallStack.top_eq_some (h.current.symm.trans hc)
    have ha : a ∈ s.linked := hs ▸ List.mem_cons_self
    exact hl ⟨a, by rw [hs]; rfl, h.count ha kind ▸ hi⟩

/-- The innermost activation has the local, or writing it is refused. -/
theorem localOfTop (h : Represents recording m s) (index : Nat) :
    (∃ a ∈ s.linked, s.localOfTop index = some a ∧ m.chain.current = some a.frame ∧
      (m.frames.get a.frame).state = .active ∧ index < (m.frames.get a.frame).localCount) ∨
      ((∀ v, Refused m (Chain.setCurrentLocal index v m)) ∧ s.localOfTop index = none) := by
  rcases h.slotOfTop .localVar index with ⟨a, ha, hh, hi, hc, hs⟩ | ⟨hno, hn⟩
  · have hi : index < a.localCount := hi
    refine .inl ⟨a, ha, by simp [CallStack.localOfTop, hh, hi], hc, hs, ?_⟩
    rwa [(h.stored a ha).localCount]
  · refine .inr ⟨Chain.setCurrentLocal_refused hno, ?_⟩
    cases hh : s.linked.head? with
    | none => simp [CallStack.localOfTop, hh]
    | some a =>
      have hi : ¬ index < a.localCount := hn a hh
      simp [CallStack.localOfTop, hh, hi]

theorem enter (h : Represents recording m s) (frame : CallStack → Option FrameId)
    (hfresh : ∀ id, frame s = some id → id < s.freshFrame) (function : Value) (args : Address)
    (argCount : Nat) :
    Agree (Represents recording) (Chain.enter (frame s) function args argCount m)
      (Spec.entering recording function (fun s => s.enter (frame s) function args argCount) s) := by
  rcases h.enterable (frame s) with ⟨id, hf, hs, hn⟩ | hr
  · rw [hf]
    refine .entered hs h.recording ?_ fun line => (h.entered hn (hfresh id hf) ..).noted line
    rw [hf]
    exact CallStack.enter_of_not_mem hn ..
  · rw [Spec.entering_none (hr ..).2]
    exact .refused (hr ..).1 h.noted

theorem attachLocals (h : Represents recording m s) (frame : Option FrameId) (locals : Address)
    (count : Nat) : Agree (Represents recording) (Chain.attachLocals frame locals count m)
      (Spec.move (fun s => s.attachLocals frame locals count) s) := by
  rcases h.resolve frame with ⟨hl, hn⟩ | ⟨a, ha, rfl, hf, hs⟩
  · rw [Spec.move_none (CallStack.attachLocals_of_none hn ..)]
    exact .refused (Chain.attachLocals_refused hl ..) h.noted
  · rw [Chain.attachLocals_linked hs, Spec.move_some (CallStack.attachLocals_of_find? hf ..)]
    exact ⟨rfl, h.attached ha locals count⟩

theorem setPc (h : Represents recording m s) (frame : Option FrameId) (code : Bytecode) (pc : Nat) :
    Agree (Represents recording) (Chain.setPc frame code pc m)
      (Spec.move (fun s => s.setPc frame code pc) s) := by
  rcases h.resolve frame with ⟨hl, hn⟩ | ⟨a, ha, rfl, hf, hs⟩
  · rw [Spec.move_none (CallStack.setPc_of_none hn ..)]
    exact .refused (Chain.setPc_refused fun hl' => hl hl'.1) h.noted
  · have hmove := CallStack.setPc_of_find? hf code pc
    by_cases hpc : code.containsPc pc = true
    · rw [Chain.setPc_inside hs hpc, Spec.move_some (hmove.trans (if_pos hpc))]
      exact ⟨rfl, h.moved ha pc⟩
    · rw [Spec.move_none (hmove.trans (if_neg hpc))]
      exact .refused (Chain.setPc_refused fun hl => hpc hl.2) h.noted

theorem captureOf (h : Represents recording m s) {a : Activation} (ha : a ∈ s.linked)
    (hf : s.find? a.frame = some a) (index : Nat) (kind : SlotKind) :
    Agree (Represents recording)
      ((discard (Chain.captureOf a.frame (m.frames.get a.frame) index kind) : Run R Unit) m)
      (Spec.move (fun s => s.capture (some a.frame) index kind) s) := by
  have hmove := CallStack.capture_of_find? hf index kind
  by_cases hc : (index, kind) ∈ a.captured
  · obtain ⟨c, hq⟩ := h.capture_again ha hc
    rw [Spec.move_some (hmove.trans (if_pos hc)), Run.discard_of_ok (Chain.captureOf_again hq)]
    exact ⟨rfl, h⟩
  · rw [if_neg hc, ← h.count ha] at hmove
    have hq := (h.captured?_eq_none_iff ha index kind).mpr hc
    by_cases hi : index < (m.frames.get a.frame).count kind
    · rw [Spec.move_some (hmove.trans (if_pos hi)), Run.discard_of_ok (Chain.captureOf_new hq hi)]
      exact ⟨rfl, h.captured ha _ index kind⟩
    · rw [Spec.move_none (hmove.trans (if_neg hi))]
      exact .refused (Chain.captureOf_refused hq hi).discard h.noted

theorem capture (h : Represents recording m s) (frame : Option FrameId) (index : Nat)
    (kind : SlotKind) :
    Agree (Represents recording) ((discard (Chain.capture frame index kind) : Run R Unit) m)
      (Spec.move (fun s => s.capture frame index kind) s) := by
  rcases h.resolve frame with ⟨hl, hn⟩ | ⟨a, ha, rfl, hf, hs⟩
  · rw [Spec.move_none (CallStack.capture_of_none hn ..)]
    exact .refused (Chain.capture_refused hl ..).discard h.noted
  · rw [Run.discard_congr (Chain.capture_linked hs index kind)]
    exact h.captureOf ha hf index kind

theorem captureCurrent (h : Represents recording m s) (index : Nat) (kind : SlotKind) :
    Agree (Represents recording) ((discard (Chain.captureCurrent index kind) : Run R Unit) m)
      (Spec.move (fun s => s.capture s.top index kind) s) := by
  have hc := h.current
  rcases h.resolve s.top with ⟨hl, hn⟩ | ⟨a, ha, ht, hf, hs⟩
  · rw [Spec.move_none (CallStack.capture_of_none hn ..)]
    rw [← hc] at hl
    exact .refused (Chain.refused_of_innermost _ hl _).discard h.noted
  · rw [ht] at hc
    rw [Run.discard_congr (Chain.captureCurrent_linked hc hs index kind)]
    have := h.captureOf ha hf index kind
    rwa [← ht] at this

theorem exit (h : Represents recording m s) (frame : Option FrameId) :
    Agree (Represents recording) (Chain.exit frame m)
      (Spec.move (fun s => s.exit frame) s) := by
  rcases h.leavable frame with ⟨a, rest, hl, rfl, hc, hs⟩ | ⟨hr, hn⟩
  · rw [Chain.exit_innermost hs hc, Spec.move_some (CallStack.exit_of_top hl)]
    exact ⟨rfl, (h.left hl).noted _⟩
  · rw [Spec.move_none hn]
    exact .refused hr h.noted

theorem setCurrentLocal (h : Represents recording m s) (index : Nat) (v : Value) :
    Agree (Represents recording) (Chain.setCurrentLocal index v m)
      (Spec.move (fun s => (s.localOfTop index).map fun _ => s) s) := by
  rcases h.localOfTop index with ⟨a, -, hl, hc, hs, hi⟩ | ⟨hr, hn⟩
  · rw [Chain.setCurrentLocal_inside hc hs hi, Spec.move_some (by rw [hl]; rfl)]
    exact ⟨rfl, h.written _ v⟩
  · rw [Spec.move_none (by rw [hn]; rfl)]
    exact .refused (hr v) h.noted

end Represents

/-- A frame that a reference leads to was set aside. -/
theorem FrameRef.findOn_lt (h : Represents recording m s) {fr : FrameRef} {id : FrameId}
    (hid : fr.findOn s = some id) : id < s.freshFrame := by
  cases fr with
  | null => exact absurd hid (by simp [findOn])
  | owned i =>
    rw [findOn] at hid
    split at hid
    · exact Option.some.inj hid ▸ ‹_›
    · exact absurd hid (by simp)
  | current =>
    obtain ⟨a, rest, ha, rfl⟩ := CallStack.top_eq_some hid
    exact h.setAside _ (by simp [CallStack.frames, ha])

/-- **Every call does to the linked frames what it does to the stack.** -/
theorem FrameCall.simulates (c : FrameCall) :
    Simulates (Represents (R := R) recording) c.perform (c.onStack recording) := by
  intro m s h
  have hget : ∀ {f : Machine R → Run R Unit}, (get >>= f) m = f m m :=
    Run.bind_of_ok (Run.get_apply m) _
  cases c with
  | newFrame => exact ⟨rfl, h.newFrame⟩
  | enter frame function args argCount =>
    rw [perform, hget, h.find]
    exact h.enter frame.findOn (fun _ => FrameRef.findOn_lt h) function args argCount
  | attachLocals frame locals count =>
    rw [perform, hget, h.find]
    exact h.attachLocals (frame.findOn s) locals count
  | setPc frame code pc =>
    rw [perform, hget, h.find]
    exact h.setPc (frame.findOn s) code pc
  | capture frame index kind =>
    rw [perform, hget, h.find]
    exact h.capture (frame.findOn s) index kind
  | exit frame =>
    rw [perform, hget, h.find]
    exact h.exit (frame.findOn s)
  | captureCurrent index kind => exact h.captureCurrent index kind
  | setCurrentLocal index v => exact h.setCurrentLocal index v
  | setVariable c v => exact ⟨rfl, h.setCapture c v⟩
  | newVariable v => exact ⟨rfl, h.addedCapture v⟩
  | poke slot v => exact ⟨rfl, h.written slot v⟩

/-! ## Scopes and programs -/

theorem ScopeCall.openFrame_simulates (c : ScopeCall) :
    Simulates (Represents (R := R) recording) c.openFrame (CallStack.opening recording c) := by
  intro m s h
  have hn := h.newFrame
  rw [openFrame, Run.bind_of_ok (Machine.newFrame_apply m), h.freshFrame]
  show Agree _ _ ((do
    Spec.entering recording c.function fun s' =>
      s'.enter (some s.freshFrame) c.function c.args c.argCount
    Spec.move fun s' => s'.attachLocals (some s.freshFrame) c.locals c.localCount
    return s.freshFrame : Spec CallStack FrameId) s.newFrame)
  rw [h.freshFrame] at hn
  have hfresh : ∀ id, some s.freshFrame = some id → id < s.newFrame.freshFrame := by
    rintro id ⟨⟩
    exact Nat.lt_succ_self _
  refine Agree.bind (hn.enter (fun _ => some s.freshFrame) hfresh ..) fun _ m' s' _ h' => ?_
  refine Agree.bind (h'.attachLocals (some s.freshFrame) c.locals c.localCount) fun _ _ _ _ h' => ?_
  exact ⟨rfl, h'⟩

theorem Chain.leaveScope_simulates (id : FrameId) :
    Simulates (Represents (R := R) recording) (leaveScope id) (CallStack.close id) := by
  intro m s h
  by_cases hc : m.chain.current = some id
  · obtain ⟨a, rest, ha, rfl⟩ := CallStack.top_eq_some (h.current.symm.trans hc)
    have he := h.exit (some a.frame)
    rw [leaveScope_innermost hc]
    rw [Spec.move_some (CallStack.exit_of_top ha)] at he
    rw [CallStack.close, CallStack.exit_of_top ha]
    exact he
  · rw [leaveScope_broken hc, CallStack.close, CallStack.exit_of_ne_top]
    · exact ⟨rfl, h.noted _⟩
    · exact fun ⟨_, ht⟩ => hc (h.current.trans ht.symm)

/-- **Every program does to the linked frames what it does to the stack.** -/
theorem Program.simulates (p : Program FrameCall) :
    Simulates (Represents (R := R) recording) (p.run FrameCall.perform) (p.onStack recording) :=
  .program FrameCall.simulates ScopeCall.openFrame_simulates Chain.leaveScope_simulates p

/-- At rest, the stack is empty. -/
theorem Machine.AtRest.represents (h : m.AtRest) :
    Represents m.journal.isSome m { freshFrame := m.freshFrame } where
  path := by rw [h.chain]; trivial
  depth := by rw [h.chain]; rfl
  once := List.nodup_nil
  active_iff id := iff_of_false (h.idle id) List.not_mem_nil
  stored _ ha := absurd ha List.not_mem_nil
  freshFrame := rfl
  setAside _ hid := absurd hid List.not_mem_nil
  handedOut _ hid := absurd hid List.not_mem_nil
  apart _ hid := absurd hid List.not_mem_nil
  found c hc := by
    rw [m.isSome_sharedSlot?, h.detached c] at hc
    exact absurd hc (by simp)
  recording := rfl

/-! ## What the machine shows -/

/-- What a stack says about the machine whose linked frames it represents. -/
structure Shows (m : Machine R) (s : CallStack) : Prop where
  depth : m.chain.depth = s.linked.length
  /-- Following `below` ends, after exactly as many frames as are counted, however far one may go. -/
  linked : ∀ fuel, m.chain.depth ≤ fuel →
    Chain.linkedFrom m.frames fuel m.chain.current = s.frames
  once : s.frames.Nodup
  active_iff : ∀ id, (m.frames.get id).state = .active ↔ id ∈ s.frames
  walk : Chain.walk m = s.linked.map Activation.info
  /-- A frame is linked by entering it iff it is there and not active. -/
  enter_links_iff : ∀ frame function args argCount,
    (Result.state (Chain.enter frame function args argCount m)).chain ≠ m.chain ↔
      ∃ id, frame = some id ∧ (m.frames.get id).state ≠ .active
  /-- Then entering it answers, unless its function cannot be recorded. -/
  enter_answers_iff : ∀ frame function args argCount,
    (∃ m', Chain.enter frame function args argCount m = .ok () m') ↔
      (∃ id, frame = some id ∧ (m.frames.get id).state ≠ .active) ∧
        (m.journal.isSome = true → function.dangling = false)
  /-- Leaving a frame answers iff it is active and innermost. -/
  exit_answers_iff : ∀ frame, (∃ m', Chain.exit frame m = .ok () m') ↔
    ∃ id, frame = some id ∧ (m.frames.get id).state = .active ∧ m.chain.current = some id

theorem Refused.not_ok {α : Type} {a : α} {m' : Machine R}
    {r : EStateM.Result Stop (Machine R) α} (h : Refused m r) : r ≠ .ok a m' := by
  obtain ⟨v, rfl⟩ := h
  simp [Run.violate_apply]

theorem Refused.chain {α : Type} {r : EStateM.Result Stop (Machine R) α} (h : Refused m r) :
    (Result.state r).chain = m.chain := by
  obtain ⟨v, rfl⟩ := h
  rfl

theorem Chain.enter_links_iff (frame : Option FrameId) (function : Value) (args : Address)
    (argCount : Nat) :
    (Result.state (enter frame function args argCount m)).chain ≠ m.chain ↔
      ∃ id, frame = some id ∧ (m.frames.get id).state ≠ .active := by
  refine ⟨fun hc => Decidable.byContradiction fun h => hc (enter_refused h ..).chain, ?_⟩
  rintro ⟨id, rfl, hs⟩ hc
  have hd : (m.entered id function args argCount).chain.depth ≠ m.chain.depth :=
    Nat.succ_ne_self _
  by_cases hf : m.journal.isSome = true → function.dangling = false
  · obtain ⟨line, he⟩ := enter_shown hs hf args argCount
    rw [he] at hc
    exact hd (congrArg Chain.depth hc)
  · rw [Classical.not_imp, Bool.not_eq_false] at hf
    obtain ⟨t, he⟩ := enter_dangling hs hf.2 hf.1 args argCount
    rw [he] at hc
    exact hd (congrArg Chain.depth hc)

theorem Chain.enter_answers_iff (frame : Option FrameId) (function : Value) (args : Address)
    (argCount : Nat) :
    (∃ m', enter frame function args argCount m = .ok () m') ↔
      (∃ id, frame = some id ∧ (m.frames.get id).state ≠ .active) ∧
        (m.journal.isSome = true → function.dangling = false) := by
  constructor
  · rintro ⟨m', he⟩
    have hid := Decidable.byContradiction fun h => (enter_refused h function args argCount).not_ok he
    refine ⟨hid, fun hj => ?_⟩
    obtain ⟨id, rfl, hs⟩ := hid
    cases hd : function.dangling with
    | false => rfl
    | true =>
      obtain ⟨t, hv⟩ := enter_dangling hs hd hj args argCount
      exact absurd (hv.symm.trans he) (by simp [Run.violate_apply])
  · rintro ⟨⟨id, rfl, hs⟩, hf⟩
    obtain ⟨line, he⟩ := enter_shown hs hf args argCount
    exact ⟨_, he⟩

theorem Chain.exit_answers_iff (frame : Option FrameId) :
    (∃ m', exit frame m = .ok () m') ↔
      ∃ id, frame = some id ∧ (m.frames.get id).state = .active ∧ m.chain.current = some id := by
  constructor
  · rintro ⟨m', he⟩
    have hid : m.Linked frame ∧ m.chain.current = frame :=
      Classical.byContradiction fun h => (exit_refused h).not_ok he
    obtain ⟨⟨id, rfl, hs⟩, hc⟩ := hid
    exact ⟨id, rfl, hs, hc⟩
  · rintro ⟨id, rfl, hs, hc⟩
    exact ⟨_, exit_innermost hs hc⟩

namespace Represents

theorem linkedFrom (h : Represents recording m s) {fuel : Nat} (hf : m.chain.depth ≤ fuel) :
    Chain.linkedFrom m.frames fuel m.chain.current = s.frames :=
  Chain.linkedFrom_of_path h.path (by rwa [CallStack.frames, List.length_map, ← h.depth])

theorem linked (h : Represents recording m s) : Chain.linked m = s.frames :=
  h.linkedFrom (Nat.le_refl _)

theorem walk (h : Represents recording m s) : Chain.walk m = s.linked.map Activation.info := by
  unfold Chain.walk
  rw [h.linked, CallStack.frames, List.map_map]
  refine List.map_congr_left fun a ha => ?_
  have hs := h.stored a ha
  have hc := congrArg List.length hs.captured
  rw [List.length_map, List.length_map] at hc
  simp only [Function.comp, Frame.info, Activation.info, hs.function, hs.pc, hs.argCount,
    hs.localCount, hc]

theorem shows (h : Represents recording m s) : Shows m s where
  depth := h.depth
  linked _ hf := h.linkedFrom hf
  once := h.once
  active_iff := h.active_iff
  walk := h.walk
  enter_links_iff := Chain.enter_links_iff
  enter_answers_iff := Chain.enter_answers_iff
  exit_answers_iff := Chain.exit_answers_iff

end Represents

/-- **The chain refines the stack.** From rest, every program of frame operations ends like it does
on the empty stack, and the linked frames it leaves are the activations of the stack that one
leaves. -/
theorem run_refines_stack (start : Machine R) (h : start.AtRest) (p : Program FrameCall) :
    Agree Shows (p.run FrameCall.perform start)
      (p.onStack start.journal.isSome { freshFrame := start.freshFrame }) :=
  (p.simulates h.represents).mono Represents.shows

/-- Enters a frame twice in a row, where the second time is refused and the panic caught, leaves it,
and enters it anew. -/
def Program.reentry : Program FrameCall :=
  .seq (.call .newFrame) <| .seq (.call (.enter (.owned 1) .undefined 8 2)) <|
    .seq (.caught (.call (.enter (.owned 1) .null 8 2))) <| .seq (.call (.exit .current)) <|
      .call (.enter (.owned 1) .null 16 1)

theorem run_refines_stack_reentry :
    ({ runtime := () } : Machine Unit).AtRest ∧
      Agree Shows (Program.reentry.run FrameCall.perform ({ runtime := () } : Machine Unit))
        (.ok () { linked := [{ serial := 1, frame := 1, function := .null, args := 16, argCount := 1 }]
                  begun := 2, freshFrame := 2 }) := by
  have h : ({ runtime := () } : Machine Unit).AtRest :=
    ⟨rfl, fun _ => (by decide : FrameState.unlinked ≠ .active), fun _ => rfl⟩
  exact ⟨h, run_refines_stack _ h Program.reentry⟩

end TieredVm
