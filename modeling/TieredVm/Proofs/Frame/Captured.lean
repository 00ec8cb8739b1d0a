import TieredVm.Proofs.Frame.Coupled
import TieredVm.Proofs.Frame.Refinement
import TieredVm.Proofs.Interpreter.Functions
import TieredVm.Reference.Heap

/-!
# Captured variables are cells

However a variable is reached, through a handle, through its frame, in its buffer or out of a
closure, what is read is its cell: one for each argument and local of each activation, before and
after the activation is left.

* `Tracks`: a machine and the cells, with the invariants that tie them.
* `Tracks.enter`, `Tracks.captureOf` and their like: one call. `FrameCall.tracks`: every call.
* `Sees`: what the cells say of every read that a machine offers.
* `captured_variables_are_cells`: a program run from rest ends like the one on the cells, and as long
  as it kept to the rules every read of the machine it leaves is a read of a cell.
-/

namespace TieredVm

open Machine

variable {R : Type} {recording : Bool} {m : Machine R} {t : Cells}

/-- A machine and the cells. They agree on the variables while the program keeps to the rules. -/
structure Tracks (recording : Bool) (m : Machine R) (t : Cells) : Prop where
  stack : Represents recording m t.stack
  cells : t.orderly = true → Coupled m t

/-! ## Single calls -/

namespace Tracks

theorem noted (h : Tracks recording m t) (line : String) : Tracks recording (m.noted line) t :=
  ⟨h.stack.noted line, fun ho => (h.cells ho).noted line⟩

theorem enter (h : Tracks recording m t) (frame : CallStack → Option FrameId)
    (hfresh : ∀ id, frame t.stack = some id → id < t.stack.freshFrame) (function : Value)
    (args : Address) (argCount : Nat) :
    Agree (Tracks recording) (Chain.enter (frame t.stack) function args argCount m)
      (Spec.entering recording function
        (fun t => t.enter (frame t.stack) function args argCount) t) := by
  rcases h.stack.enterable (frame t.stack) with ⟨id, hf, hs, hn⟩ | hr
  · have hid := hfresh id hf
    have henter := Cells.enter_some (CallStack.enter_of_not_mem hn function args argCount)
    rw [← hf] at henter
    rw [hf]
    refine .entered hs h.stack.recording henter fun line => ?_
    refine Tracks.noted ⟨h.stack.entered hn hid .., fun ho => ?_⟩ line
    obtain ⟨ho, hfree⟩ := Cells.orderly_lend ho
    exact (h.cells ho).entered hn function hfree
  · rw [Spec.entering_none (Cells.enter_none (hr ..).2)]
    exact .refused (hr ..).1 h.noted

theorem attachLocals (h : Tracks recording m t) (frame : Option FrameId) (locals : Address)
    (count : Nat) : Agree (Tracks recording) (Chain.attachLocals frame locals count m)
      (Spec.move (fun t => t.attachLocals frame locals count) t) := by
  rcases h.stack.resolve frame with ⟨hl, hn⟩ | ⟨a, ha, rfl, hf, hs⟩
  · rw [Spec.move_none (Cells.attachLocals_of_none hn ..)]
    exact .refused (Chain.attachLocals_refused hl ..) h.noted
  · rw [Chain.attachLocals_linked hs, Spec.move_some (Cells.attachLocals_of_find? hf ..)]
    refine ⟨rfl, h.stack.attached ha locals count, fun ho => ?_⟩
    obtain ⟨ho, hfree⟩ := Cells.orderly_lend ho
    obtain ⟨ho, hat⟩ := (Bool.and_eq_true ..).mp ho
    rw [Bool.not_eq_true'] at hat
    exact (h.cells ho).attached h.stack ha hat _ hfree

theorem setPc (h : Tracks recording m t) (frame : Option FrameId) (code : Bytecode) (pc : Nat) :
    Agree (Tracks recording) (Chain.setPc frame code pc m)
      (Spec.move (fun t => t.setPc frame code pc) t) := by
  rcases h.stack.resolve frame with ⟨hl, hn⟩ | ⟨a, ha, rfl, hf, hs⟩
  · have hmove : t.setPc frame code pc = none := by
      rw [Cells.setPc, CallStack.setPc_of_none hn, Option.map_none]
    rw [Spec.move_none hmove]
    exact .refused (Chain.setPc_refused fun hl' => hl hl'.1) h.noted
  · have hmove := CallStack.setPc_of_find? hf code pc
    by_cases hpc : code.containsPc pc = true
    · have hc : t.setPc (some a.frame) code pc =
          some { t with stack := t.stack.update a.frame fun a => { a with pc := some pc } } := by
        rw [Cells.setPc, hmove, if_pos hpc, Option.map_some]
      rw [Chain.setPc_inside hs hpc, Spec.move_some hc]
      refine ⟨rfl, h.stack.moved ha pc, fun ho => ?_⟩
      have hg := (h.cells ho).restack (t.stack.update a.frame fun a => { a with pc := some pc }) _
        rfl rfl fun b => by split <;> exact ⟨rfl, rfl, rfl, rfl, rfl⟩
      refine hg.congr rfl rfl rfl fun b _ => ?_
      by_cases hb : b.frame = a.frame
      · simp only [putFrame, hb, Store.get_set_self]
      · simp only [putFrame, Store.get_set_ne _ _ hb]
    · have hc : t.setPc (some a.frame) code pc = none := by
        rw [Cells.setPc, hmove, if_neg hpc, Option.map_none]
      rw [Spec.move_none hc]
      exact .refused (Chain.setPc_refused fun hl => hpc hl.2) h.noted

theorem captureOf (h : Tracks recording m t) {a : Activation} (ha : a ∈ t.stack.linked)
    (hf : t.stack.find? a.frame = some a) (index : Nat) (kind : SlotKind) :
    Agree (Tracks recording)
      ((discard (Chain.captureOf a.frame (m.frames.get a.frame) index kind) : Run R Unit) m)
      (Spec.move (fun t => t.capture (some a.frame) index kind) t) := by
  have hmove := Cells.capture_of_find? hf index kind
  by_cases hc : (index, kind) ∈ a.captured
  · obtain ⟨c, hq⟩ := h.stack.capture_again ha hc
    rw [Spec.move_some (hmove.trans (if_pos hc)), Run.discard_of_ok (Chain.captureOf_again hq)]
    exact ⟨rfl, h⟩
  · rw [if_neg hc] at hmove
    have hq := (h.stack.captured?_eq_none_iff ha index kind).mpr hc
    have hcount := h.stack.count ha kind
    by_cases hi : index < a.count kind
    · rw [Spec.move_some (hmove.trans (if_pos hi)),
        Run.discard_of_ok (Chain.captureOf_new hq (hcount.symm ▸ hi)), h.stack.base ha]
      refine ⟨rfl, h.stack.captured ha _ index kind, fun ho => ?_⟩
      exact (h.cells ho).captured h.stack ha hc hi
    · rw [Spec.move_none (hmove.trans (if_neg hi))]
      exact .refused (Chain.captureOf_refused hq (hcount.symm ▸ hi)).discard h.noted

theorem capture (h : Tracks recording m t) (frame : Option FrameId) (index : Nat)
    (kind : SlotKind) :
    Agree (Tracks recording) ((discard (Chain.capture frame index kind) : Run R Unit) m)
      (Spec.move (fun t => t.capture frame index kind) t) := by
  rcases h.stack.resolve frame with ⟨hl, hn⟩ | ⟨a, ha, rfl, hf, hs⟩
  · rw [Spec.move_none (Cells.capture_of_none hn ..)]
    exact .refused (Chain.capture_refused hl ..).discard h.noted
  · rw [Run.discard_congr (Chain.capture_linked hs index kind)]
    exact h.captureOf ha hf index kind

theorem captureCurrent (h : Tracks recording m t) (index : Nat) (kind : SlotKind) :
    Agree (Tracks recording) ((discard (Chain.captureCurrent index kind) : Run R Unit) m)
      (Spec.move (fun t => t.capture t.stack.top index kind) t) := by
  have hc := h.stack.current
  rcases h.stack.resolve t.stack.top with ⟨hl, hn⟩ | ⟨a, ha, ht, hf, hs⟩
  · rw [Spec.move_none (Cells.capture_of_none hn ..)]
    rw [← hc] at hl
    exact .refused (Chain.refused_of_innermost _ hl _).discard h.noted
  · rw [ht] at hc
    rw [Run.discard_congr (Chain.captureCurrent_linked hc hs index kind)]
    have := h.captureOf ha hf index kind
    rwa [← ht] at this

theorem exit (h : Tracks recording m t) (frame : Option FrameId) :
    Agree (Tracks recording) (Chain.exit frame m) (Spec.move (fun t => t.exit frame) t) := by
  rcases h.stack.leavable frame with ⟨a, rest, hl, rfl, hc, hs⟩ | ⟨hr, hn⟩
  · rw [Chain.exit_innermost hs hc, Spec.move_some (Cells.exit_of_top hl)]
    have hleft : Tracks recording (m.left a.frame)
        ({ t with stack := { t.stack with linked := rest } }.reclaim a.serial) :=
      ⟨h.stack.left hl, fun ho => (h.cells ho).left h.stack hl⟩
    exact ⟨rfl, hleft.noted _⟩
  · rw [Spec.move_none (Cells.exit_none hn)]
    exact .refused hr h.noted

theorem setCurrentLocal (h : Tracks recording m t) (index : Nat) (v : Value) :
    Agree (Tracks recording) (Chain.setCurrentLocal index v m)
      (Spec.move (fun t => t.setCurrentLocal index v) t) := by
  rcases h.stack.localOfTop index with ⟨a, ha, hl, hc, hs, hi⟩ | ⟨hr, hn⟩
  · have hmove : t.setCurrentLocal index v =
        some (t.setCell (.slot a.serial .localVar index) v) := by
      rw [Cells.setCurrentLocal, hl, Option.map_some]
    rw [Chain.setCurrentLocal_inside hc hs hi, Spec.move_some hmove, (h.stack.stored a ha).locals]
    refine ⟨rfl, h.stack.written _ v, fun ho => ?_⟩
    rw [(h.stack.stored a ha).localCount] at hi
    exact (h.cells ho).written ((h.cells ho).lent_slot ha .localVar hi) v
  · have hmove : t.setCurrentLocal index v = none := by
      rw [Cells.setCurrentLocal, hn, Option.map_none]
    rw [Spec.move_none hmove]
    exact .refused (hr v) h.noted

theorem newFrame (h : Tracks recording m t) :
    Tracks recording { m with freshFrame := m.freshFrame + 1 }
      { t with stack := t.stack.newFrame } where
  stack := h.stack.newFrame
  cells ho := by
    have hg := (h.cells ho).restack t.stack.newFrame id (List.map_id _).symm rfl
      fun _ => ⟨rfl, rfl, rfl, rfl, rfl⟩
    exact hg.congr rfl rfl rfl fun _ _ => rfl

theorem setVariable (h : Tracks recording m t) (c : Capture) (v : Value) :
    Tracks recording (m.setCapture c v) (t.setHandle c v) where
  stack := by
    rw [Cells.stack_setHandle]
    exact h.stack.setCapture c v
  cells ho := (h.cells (t.orderly_setHandle c v ▸ ho)).setHandle h.stack c v

theorem poke (h : Tracks recording m t) (slot : Address) (v : Value) :
    Tracks recording (m.written slot v) (t.poke slot v) where
  stack := by
    rw [Cells.stack_poke]
    exact h.stack.written slot v
  cells ho := (h.cells (t.orderly_poke slot v ▸ ho)).poked slot v

end Tracks

/-- **Every call does to the variables what it does to the cells.** -/
theorem FrameCall.tracks (c : FrameCall) :
    Simulates (Tracks (R := R) recording) c.perform (c.onCells recording) := by
  intro m t h
  have hget : ∀ {f : Machine R → Run R Unit}, (get >>= f) m = f m m :=
    Run.bind_of_ok (Run.get_apply m) _
  cases c with
  | newFrame => exact ⟨rfl, h.newFrame⟩
  | enter frame function args argCount =>
    rw [perform, hget, h.stack.find]
    exact h.enter frame.findOn (fun _ => FrameRef.findOn_lt h.stack) function args argCount
  | attachLocals frame locals count =>
    rw [perform, hget, h.stack.find]
    exact h.attachLocals (frame.findOn t.stack) locals count
  | setPc frame code pc =>
    rw [perform, hget, h.stack.find]
    exact h.setPc (frame.findOn t.stack) code pc
  | capture frame index kind =>
    rw [perform, hget, h.stack.find]
    exact h.capture (frame.findOn t.stack) index kind
  | exit frame =>
    rw [perform, hget, h.stack.find]
    exact h.exit (frame.findOn t.stack)
  | captureCurrent index kind => exact h.captureCurrent index kind
  | setCurrentLocal index v => exact h.setCurrentLocal index v
  | setVariable c v => exact ⟨rfl, h.setVariable c v⟩
  | newVariable v => exact ⟨rfl, h.stack.addedCapture v, fun ho => (h.cells ho).newVariable v⟩
  | poke slot v => exact ⟨rfl, h.poke slot v⟩

/-! ## Scopes and programs -/

theorem ScopeCall.openFrame_tracks (c : ScopeCall) :
    Simulates (Tracks (R := R) recording) c.openFrame (Cells.opening recording c) := by
  intro m t h
  have hn : Tracks recording { m with freshFrame := m.freshFrame + 1 }
      { t with stack := t.stack.newFrame } := h.newFrame
  rw [openFrame, Run.bind_of_ok (Machine.newFrame_apply m), h.stack.freshFrame]
  show Agree _ _ ((do
    Spec.entering recording c.function fun t' =>
      t'.enter (some t.stack.freshFrame) c.function c.args c.argCount
    Spec.move fun t' => t'.attachLocals (some t.stack.freshFrame) c.locals c.localCount
    return t.stack.freshFrame : Spec Cells FrameId) { t with stack := t.stack.newFrame })
  rw [h.stack.freshFrame] at hn
  have hfresh : ∀ id, some t.stack.freshFrame = some id → id < t.stack.newFrame.freshFrame := by
    rintro id ⟨⟩
    exact Nat.lt_succ_self _
  refine Agree.bind (hn.enter (fun _ => some t.stack.freshFrame) hfresh ..) fun _ m' t' _ h' => ?_
  refine Agree.bind (h'.attachLocals (some t.stack.freshFrame) c.locals c.localCount)
    fun _ _ _ _ h' => ?_
  exact ⟨rfl, h'⟩

theorem Chain.leaveScope_tracks (id : FrameId) :
    Simulates (Tracks (R := R) recording) (leaveScope id) (Cells.close id) := by
  intro m t h
  by_cases hc : m.chain.current = some id
  · obtain ⟨a, rest, ha, rfl⟩ := CallStack.top_eq_some (h.stack.current.symm.trans hc)
    have he := h.exit (some a.frame)
    rw [leaveScope_innermost hc]
    rw [Spec.move_some (Cells.exit_of_top ha)] at he
    rw [Cells.close, Cells.exit_of_top ha]
    exact he
  · rw [leaveScope_broken hc, Cells.close, Cells.exit_none (CallStack.exit_of_ne_top ?_)]
    · exact ⟨rfl, h.noted _⟩
    · exact fun ⟨_, ht⟩ => hc (h.stack.current.trans ht.symm)

/-- **Every program does to the variables what it does to the cells.** -/
theorem Program.tracks (p : Program FrameCall) :
    Simulates (Tracks (R := R) recording) (p.run FrameCall.perform) (p.onCells recording) :=
  .program FrameCall.tracks ScopeCall.openFrame_tracks Chain.leaveScope_tracks p

theorem Cells.eq_own_of_handles {n : Nat} {x : Variable}
    (h : (Cells.ofMachine m).handles[n]? = some x) : x = .own n := by
  have h : ((List.range m.freshCapture).map Variable.own)[n]? = some x := h
  rw [List.getElem?_map, Option.map_eq_some_iff] at h
  obtain ⟨k, hk, rfl⟩ := h
  obtain ⟨-, rfl⟩ := List.getElem?_eq_some_iff.mp hk
  rw [List.getElem_range]

/-- At rest, no slot is lent, and every handle owns its variable. -/
theorem Machine.AtRest.coupled (h : m.AtRest) : Coupled m (.ofMachine m) where
  memory _ := rfl
  lent_iff slot x := by
    refine iff_of_false (by simp [Cells.ofMachine]) ?_
    rintro ⟨a, ha, -⟩
    exact absurd ha List.not_mem_nil
  serials := List.nodup_nil
  begun _ ha := absurd ha List.not_mem_nil
  unattached _ ha := absurd ha List.not_mem_nil
  handedOut := by simp [Cells.ofMachine]
  handles := List.nodup_range.map fun _ _ he => Variable.own.inj he
  earlier n kind i hx := by simp [Cells.ofMachine] at hx
  own n hx := by simpa [Cells.ofMachine] using hx
  placed n x hn := by
    refine .inr ⟨fun _ ha => absurd ha List.not_mem_nil, ?_⟩
    have hown : m.captures.get n = .owned (m.captureValue ⟨n⟩) := by
      have hd := h.detached ⟨n⟩
      unfold captureShared at hd
      unfold Machine.captureValue
      cases hc : m.captures.get n with
      | shared slot i k => rw [hc] at hd; exact absurd hd (by simp)
      | owned v => rfl
    rw [hown, Cells.eq_own_of_handles hn]
    rfl

theorem Machine.AtRest.tracks (h : m.AtRest) : Tracks m.journal.isSome m (.ofMachine m) :=
  ⟨h.represents, fun _ => h.coupled⟩

/-! ## What the cells say of the reads -/

/-- What the cells say of a machine. -/
structure Sees (O : ObjectModel R) (m : Machine R) (t : Cells) : Prop where
  /-- A buffer holds what the cells say. -/
  memory : ∀ slot, m.memory.get slot = t.view slot
  /-- The slots of linked activations are lent to their variables, and no others are. -/
  lent_iff : ∀ slot x, t.lent slot = some x ↔ t.stack.HasSlot x slot
  /-- Exactly the handles that were handed out denote variables. -/
  denotes : ∀ c : Capture, c.id < m.freshCapture ↔ ∃ x, t.handles[c.id]? = some x
  /-- Handles are the same iff they denote the same variable. -/
  same_iff : ∀ {c d : Capture} {x y}, t.handles[c.id]? = some x → t.handles[d.id]? = some y →
    (c = d ↔ x = y)
  /-- A handle reads the cell of its variable. -/
  captureValue : ∀ {c : Capture} {x}, t.handles[c.id]? = some x → m.captureValue c = t.cell x
  /-- It shares a slot exactly while its variable is lent one. -/
  shared_iff : ∀ {c : Capture} {x}, t.handles[c.id]? = some x →
    (m.captureShared c = true ↔ ∃ slot, t.lent slot = some x)
  /-- While it does, writing the one writes the other. -/
  aliased : ∀ {c : Capture} {x slot}, t.handles[c.id]? = some x → t.lent slot = some x → ∀ v,
    (m.written slot v).captureValue c = v ∧ (m.setCapture c v).memory.get slot = v
  /-- When the activation is gone, neither is written with the other any more. -/
  detached : ∀ {c : Capture} {x}, t.handles[c.id]? = some x → t.stack.Gone x → ∀ v,
    (∀ slot, (m.written slot v).captureValue c = m.captureValue c) ∧
      (m.setCapture c v).memory = m.memory
  /-- Leaving a frame fixes every handle at what it reads at that moment. -/
  exit : ∀ {frame m'}, Chain.exit frame m = .ok () m' → ∀ c, m'.captureValue c = m.captureValue c
  /-- Reads of the innermost frame answer the cells of the innermost activation. -/
  currentArg_iff : ∀ index v m', Chain.currentArg index m = .ok v m' ↔
    t.ofTop .argument index = some v ∧ m' = m
  currentLocal_iff : ∀ index v m', Chain.currentLocal index m = .ok v m' ↔
    t.ofTop .localVar index = some v ∧ m' = m
  /-- A closure answers the cell of a variable it holds, duplicated. -/
  capturedOf : ∀ {function index c x}, O.Holds m function index c → t.handles[c.id]? = some x →
    O.capturedOf function index m = Run.onRuntime (O.duplicate (t.cell x)) m
  capturedOf_holds : ∀ {function index v m'}, O.capturedOf function index m = .ok v m' →
    ∃ c, O.Holds m function index c
  /-- Capturing a slot answers a handle that denotes it for good. -/
  capture : ∀ {frame index kind c m'}, Chain.capture frame index kind m = .ok c m' →
    ∃ a t', frame.bind t.stack.find? = some a ∧ t.capture frame index kind = some t' ∧
      ∀ recording (q : Program FrameCall),
        (Result.state (q.onCells recording t')).handles[c.id]? = some (.slot a.serial kind index)
  captureCurrent : ∀ {index kind c m'}, Chain.captureCurrent index kind m = .ok c m' →
    ∃ a t', t.stack.top.bind t.stack.find? = some a ∧
      t.capture t.stack.top index kind = some t' ∧
      ∀ recording (q : Program FrameCall),
        (Result.state (q.onCells recording t')).handles[c.id]? = some (.slot a.serial kind index)

/-! ## Every read is a read of a cell -/

namespace Coupled

/-- A read of the innermost frame answers the cell of the innermost activation. -/
theorem readCurrent_iff (h : Coupled m t) (hr : Represents recording m t.stack) (use : FrameUse)
    (kind : SlotKind) (index : Nat) (v : Value) (m' : Machine R) :
    Chain.readCurrent use kind index m = .ok v m' ↔ t.ofTop kind index = some v ∧ m' = m := by
  rcases hr.slotOfTop kind index with ⟨a, ha, hh, hi, hc, hs⟩ | ⟨hno, hn⟩
  · have htop : t.ofTop kind index = some (t.cell (.slot a.serial kind index)) := by
      simp [Cells.ofTop, hh, hi]
    rw [Chain.readCurrent_inside use hc hs (hr.count ha kind ▸ hi), hr.base ha, htop, h.memory,
      Cells.view_of_lent (h.lent_slot ha kind hi)]
    simp [eq_comm]
  · have htop : t.ofTop kind index = none := by
      cases hh : t.stack.linked.head? with
      | none => simp [Cells.ofTop, hh]
      | some a => simp [Cells.ofTop, hh, hn a hh]
    rw [htop]
    exact iff_of_false (Chain.readCurrent_refused use hno).not_ok (by simp)

/-- A variable that shares a slot of a linked frame and is listed by it denotes the slot. -/
theorem denotes_of_listed (h : Coupled m t) (hr : Represents recording m t.stack) {a : Activation}
    (ha : a ∈ t.stack.linked) {c : Capture} {index : Nat} {kind : SlotKind}
    (hl : c ∈ (m.frames.get a.frame).captured) (hc : m.sharedSlot? c = some (index, kind)) :
    t.handles[c.id]? = some (.slot a.serial kind index) := by
  have hmem : ∀ {b}, b ∈ t.stack.linked → b.frame ∈ t.stack.frames := fun hb =>
    CallStack.mem_frames.mpr ⟨_, hb, rfl⟩
  have hlt : c.id < t.handles.length := h.handedOut ▸ hr.handedOut _ (hmem ha) c hl
  have hx := List.getElem?_eq_getElem hlt
  unfold sharedSlot? at hc
  rcases h.placed _ _ hx with ⟨b, hb, k, i, he, hs⟩ | ⟨-, ho⟩
  · obtain rfl := hr.eq_of_frame ha hb (hr.apart _ (hmem hb) _ (hmem ha) c hs.listed hl)
    rw [hs.cell] at hc
    obtain ⟨rfl, rfl⟩ := Prod.mk.inj (Option.some.inj hc)
    rw [hx, he]
  · rw [ho] at hc
    exact absurd hc (by simp)

/-- Capturing a slot answers a handle that denotes it. -/
theorem captureOf_denotes (h : Coupled m t) (hr : Represents recording m t.stack) {a : Activation}
    (ha : a ∈ t.stack.linked) (hf : t.stack.find? a.frame = some a) {index : Nat}
    {kind : SlotKind} {c : Capture} {m' : Machine R}
    (hc : Chain.captureOf a.frame (m.frames.get a.frame) index kind m = .ok c m') :
    ∃ t', t.capture (some a.frame) index kind = some t' ∧
      t'.handles[c.id]? = some (.slot a.serial kind index) := by
  have hmove := Cells.capture_of_find? hf index kind
  by_cases hcap : (index, kind) ∈ a.captured
  · obtain ⟨d, hd⟩ := hr.capture_again ha hcap
    rw [Chain.captureOf_again hd] at hc
    cases hc
    refine ⟨t, hmove.trans (if_pos hcap), ?_⟩
    have hs : m.sharedSlot? c = some (index, kind) :=
      (m.sharesSlot_iff index kind c).mp (List.find?_some hd)
    exact h.denotes_of_listed hr ha (List.mem_of_find?_eq_some hd) hs
  · rw [if_neg hcap] at hmove
    have hq := (hr.captured?_eq_none_iff ha index kind).mpr hcap
    by_cases hi : index < a.count kind
    · rw [Chain.captureOf_new hq (hr.count ha kind ▸ hi)] at hc
      cases hc
      refine ⟨_, hmove.trans (if_pos hi), ?_⟩
      show (t.handles ++ [_])[m.freshCapture]? = _
      rw [h.handedOut]
      exact List.getElem?_concat_length
    · exact absurd hc (Chain.captureOf_refused hq (hr.count ha kind ▸ hi)).not_ok

theorem capture_denotes (h : Coupled m t) (hr : Represents recording m t.stack)
    {frame : Option FrameId} {index : Nat} {kind : SlotKind} {c : Capture} {m' : Machine R}
    (hc : Chain.capture frame index kind m = .ok c m') :
    ∃ a t', frame.bind t.stack.find? = some a ∧ t.capture frame index kind = some t' ∧
      t'.handles[c.id]? = some (.slot a.serial kind index) := by
  rcases hr.resolve frame with ⟨hl, -⟩ | ⟨a, ha, rfl, hf, hs⟩
  · exact absurd hc (Chain.capture_refused hl index kind).not_ok
  · rw [Chain.capture_linked hs] at hc
    obtain ⟨t', ht, hx⟩ := h.captureOf_denotes hr ha hf hc
    exact ⟨a, t', hf, ht, hx⟩

theorem captureCurrent_denotes (h : Coupled m t) (hr : Represents recording m t.stack)
    {index : Nat} {kind : SlotKind} {c : Capture} {m' : Machine R}
    (hc : Chain.captureCurrent index kind m = .ok c m') :
    ∃ a t', t.stack.top.bind t.stack.find? = some a ∧
      t.capture t.stack.top index kind = some t' ∧
      t'.handles[c.id]? = some (.slot a.serial kind index) := by
  have hcur := hr.current
  rcases hr.resolve t.stack.top with ⟨hl, -⟩ | ⟨a, ha, ht, hf, hs⟩
  · rw [← hcur] at hl
    exact absurd hc (Chain.refused_of_innermost _ hl _).not_ok
  · rw [ht] at hcur ⊢
    rw [Chain.captureCurrent_linked hcur hs] at hc
    obtain ⟨t', ht', hx⟩ := h.captureOf_denotes hr ha hf hc
    exact ⟨a, t', hf, ht', hx⟩

/-- A handle shares a slot exactly while its variable is lent one. -/
theorem shared_iff (h : Coupled m t) {c : Capture} {x : Variable} (hn : t.handles[c.id]? = some x) :
    m.captureShared c = true ↔ ∃ slot, t.lent slot = some x := by
  unfold captureShared
  rcases h.placed _ x hn with ⟨a, ha, kind, i, rfl, hs⟩ | ⟨hg, ho⟩
  · rw [hs.cell]
    exact iff_of_true rfl ⟨_, h.lent_slot ha kind hs.inside⟩
  · rw [ho]
    refine iff_of_false (by simp) ?_
    rintro ⟨slot, hl⟩
    exact ((h.lent_iff slot x).mp hl).not_gone hg

/-- While it does, writing the one writes the other. -/
theorem aliased (h : Coupled m t) (hr : Represents recording m t.stack) {c : Capture}
    {x : Variable} {slot : Address} (hn : t.handles[c.id]? = some x) (hl : t.lent slot = some x)
    (v : Value) :
    (m.written slot v).captureValue c = v ∧ (m.setCapture c v).memory.get slot = v := by
  have hset : t.setHandle c v = t.setCell x v := by rw [Cells.setHandle, hn]
  have hc := h.setHandle hr c v
  rw [hset] at hc
  constructor
  · exact ((h.written hl v).captureValue hn).trans (t.setCell_self x v)
  · rw [hc.memory, Cells.view_of_lent (t := t.setCell x v) hl]
    exact t.setCell_self x v

/-- Once the activation is gone, neither is written with the other. -/
theorem detached (h : Coupled m t) {c : Capture} {x : Variable}
    (hn : t.handles[c.id]? = some x) (hg : t.stack.Gone x) (v : Value) :
    (∀ slot, (m.written slot v).captureValue c = m.captureValue c) ∧
      (m.setCapture c v).memory = m.memory := by
  rcases h.placed _ x hn with ⟨a, ha, kind, i, rfl, -⟩ | ⟨-, ho⟩
  · exact absurd hg (CallStack.not_gone ha kind i)
  · refine ⟨fun slot => ?_, by rw [setCapture, ho]⟩
    unfold Machine.captureValue
    rw [show (m.written slot v).captures.get c.id = .owned (t.cell x) from ho, ho]

theorem denotes_iff (h : Coupled m t) (c : Capture) :
    c.id < m.freshCapture ↔ ∃ x, t.handles[c.id]? = some x := by
  rw [h.handedOut, ← Option.isSome_iff_exists]
  simp

theorem same_iff (h : Coupled m t) {c d : Capture} {x y : Variable}
    (hc : t.handles[c.id]? = some x) (hd : t.handles[d.id]? = some y) : c = d ↔ x = y := by
  constructor
  · rintro rfl
    exact Option.some.inj (hc.symm.trans hd)
  · rintro rfl
    exact congrArg Capture.mk (h.handle_inj hc hd)

end Coupled

theorem Chain.captureValue_exit {frame : Option FrameId} {m' : Machine R}
    (h : exit frame m = .ok () m') (c : Capture) : m'.captureValue c = m.captureValue c := by
  obtain ⟨id, rfl, hs, hc⟩ := (exit_answers_iff frame).mp ⟨m', h⟩
  rw [exit_innermost hs hc] at h
  cases h
  exact m.captureValue_left id c

/-- What a handle denotes, it denotes for good. -/
theorem Cells.denotes_for_good {n : Nat} {x : Variable} (h : t.handles[n]? = some x)
    (recording : Bool) (q : Program FrameCall) :
    (Result.state (q.onCells recording t)).handles[n]? = some x := by
  obtain ⟨hlt, -⟩ := List.getElem?_eq_some_iff.mp h
  obtain ⟨more, hm⟩ := q.handles_onCells recording t
  rw [← hm, List.getElem?_append_left hlt, h]

theorem Tracks.sees (O : ObjectModel R) (h : Tracks recording m t) (ho : t.orderly = true) :
    Sees O m t := by
  have hr := h.stack
  have hc := h.cells ho
  constructor
  case memory => exact hc.memory
  case lent_iff => exact hc.lent_iff
  case denotes => exact hc.denotes_iff
  case same_iff => exact hc.same_iff
  case captureValue => exact hc.captureValue
  case shared_iff => exact hc.shared_iff
  case aliased => exact hc.aliased hr
  case detached => exact hc.detached
  case exit => exact Chain.captureValue_exit
  case currentArg_iff =>
    intro index
    rw [Chain.currentArg_eq]
    exact hc.readCurrent_iff hr .currentArg .argument index
  case currentLocal_iff =>
    intro index
    rw [Chain.currentLocal_eq]
    exact hc.readCurrent_iff hr .currentLocal .localVar index
  case capturedOf =>
    intro function index c x hf hx
    rw [O.capturedOf_of_holds hf, hc.captureValue hx]
  case capturedOf_holds => exact O.holds_of_capturedOf
  case capture =>
    intro frame index kind c m' hm
    obtain ⟨a, t', hf, ht, hx⟩ := hc.capture_denotes hr hm
    exact ⟨a, t', hf, ht, Cells.denotes_for_good hx⟩
  case captureCurrent =>
    intro index kind c m' hm
    obtain ⟨a, t', hf, ht, hx⟩ := hc.captureCurrent_denotes hr hm
    exact ⟨a, t', hf, ht, Cells.denotes_for_good hx⟩

/-- **Captured variables are cells.** From rest, every program of frame operations ends like it does
on the cells. If it kept to the rules, the machine it leaves holds in every variable what its cell
holds, and every read answers that. -/
theorem captured_variables_are_cells (O : ObjectModel R) (start : Machine R) (h : start.AtRest)
    (p : Program FrameCall) :
    Agree (fun m t => t.orderly = true → Sees O m t) (p.run FrameCall.perform start)
      (p.onCells start.journal.isSome (.ofMachine start)) :=
  (p.tracks h.tracks).mono fun hm => hm.sees O

/-- The cells that a program leaves, run from rest. -/
def Program.cells (p : Program FrameCall) (start : Machine R) : Cells :=
  Result.state (p.onCells start.journal.isSome (.ofMachine start))

/-- The reference interpreter's machine before anything ran. -/
def Machine.unused : Machine Reference.State := { runtime := {} }

/-- A scope captures its local, writes it, and leaves; then the storage of the local is overwritten
and reused by another activation, which captures its own. -/
def Program.counter : Program FrameCall :=
  .seq (.scope { function := .undefined, locals := 64, localCount := 1 } <|
    .seq (.call (.captureCurrent 0 .localVar)) (.call (.setCurrentLocal 0 .null))) <|
  .seq (.call (.poke 64 .undefined)) <|
  .seq (.call (.enter (.owned 1) .null 64 1)) <|
    .call (.captureCurrent 0 .argument)

theorem captured_variables_are_cells_counter :
    Machine.unused.AtRest ∧ (Program.counter.cells .unused).orderly = true ∧
      (Program.counter.cells .unused).handles = [.slot 0 .localVar 0, .slot 1 .argument 0] ∧
      Sees Reference.objectModel (Result.state (Program.counter.run FrameCall.perform .unused))
        (Program.counter.cells .unused) ∧
      (Result.state (Program.counter.run FrameCall.perform .unused)).captureValue ⟨0⟩ = .null := by
  have h : Machine.unused.AtRest :=
    ⟨rfl, fun _ => (by decide : FrameState.unlinked ≠ .active), fun _ => rfl⟩
  have hsees : ∀ p : Program FrameCall, (p.cells .unused).orderly = true →
      Sees Reference.objectModel (Result.state (p.run FrameCall.perform .unused))
        (p.cells .unused) := fun p =>
    (captured_variables_are_cells Reference.objectModel .unused h p).rel
  have ho : (Program.counter.cells .unused).orderly = true := by decide
  have hh : (Program.counter.cells .unused).handles =
      [.slot 0 .localVar 0, .slot 1 .argument 0] := by decide
  have hx : (Program.counter.cells .unused).handles[0]? = some (.slot 0 .localVar 0) := by
    rw [hh]
    rfl
  have hcell : (Program.counter.cells .unused).cell (.slot 0 .localVar 0) = .null := by decide
  exact ⟨h, ho, hh, hsees _ ho, ((hsees _ ho).captureValue hx).trans hcell⟩

end TieredVm
