import TieredVm.Proofs.Frame.Moves
import TieredVm.Reference.Entries

/-!
# The layout of linked frames

A function with bytecode declares how many arguments and locals a frame for it has and how long its code
is. Three transitions check this, each for the part it writes, and each looks the bytecode up again. If
every transition is held to these checks, and the interpreter does not change its mind about a function
while a frame for it is linked, then at every moment each linked frame is laid out as its function declares
(`Frame.LaidOut`), and the innermost one can be read without a violation.

* `Frame.LaidOut`: what is true of one frame, whatever the machine around it. It is kept by each
  change of the frame that the checks let through.
* `HeldMove`: a move whose transitions are held to the checks, under a steady interpreter.
* `FrameStep.layout`: one step keeps all linked frames laid out, and `HeldMove.layout` a run of them.
* `layout_respected`: runs of moves from rest. Frames may be reused for other functions, and violations
  may be caught on the way.
-/

namespace TieredVm

variable {R : Type} {m m' : Machine R}

/-! ## One frame -/

/-- What a frame has for code that declares it. -/
structure Frame.Fits (slots : Capture → Option (Nat × SlotKind)) (f : Frame) (code : Bytecode) :
    Prop where
  args : code.argCount ≤ f.argCount
  locals : f.localCount = 0 ∨ f.localCount = code.varCount
  pc : ∀ pc, f.pc = some pc → pc ≤ code.codeLength
  /-- The variables captured from the frame share slots that it has. -/
  captured : ∀ c ∈ f.captured, ∀ index kind, slots c = some (index, kind) → index < f.count kind

/-- A frame agrees with the code that its function declares, if it declares any. -/
structure Frame.LaidOut (slots : Capture → Option (Nat × SlotKind))
    (declared : Except Violation (Option Bytecode)) (f : Frame) : Prop where
  known : ∃ layout, declared = .ok layout
  fits : ∀ code, declared = .ok (some code) → f.Fits slots code
  /-- A native function has no code to be at an offset of. -/
  native : declared = .ok none → f.pc = none

namespace Frame.LaidOut

variable {slots slots' : Capture → Option (Nat × SlotKind)}
  {declared : Except Violation (Option Bytecode)} {f : Frame}

/-- Variables may be detached from the frame. -/
theorem of_slots (h : f.LaidOut slots declared)
    (hs : ∀ c ∈ f.captured, slots' c = slots c ∨ slots' c = none) : f.LaidOut slots' declared where
  known := h.known
  native := h.native
  fits code hcode :=
    { args := (h.fits code hcode).args
      locals := (h.fits code hcode).locals
      pc := (h.fits code hcode).pc
      captured := fun c hc index kind hshared => by
        rcases hs c hc with he | hn
        · exact (h.fits code hcode).captured c hc index kind (he ▸ hshared)
        · rw [hn] at hshared
          cases hshared }

/-- A frame is entered with nothing but its arguments. -/
theorem entered {layout : Option Bytecode} (hlayout : declared = .ok layout) {below : Option FrameId}
    {function : Value} {args : Address} {argCount : Nat} {state : FrameState}
    (hargs : ∀ code, layout = some code → code.argCount ≤ argCount) :
    Frame.LaidOut slots declared { below, function, args, argCount, state } where
  known := ⟨layout, hlayout⟩
  native _ := rfl
  fits code hcode :=
    { args := hargs code (Except.ok.inj (hlayout.symm.trans hcode))
      locals := .inl rfl
      pc := fun _ h => by cases h
      captured := fun _ hc => absurd hc List.not_mem_nil }

/-- Locals are attached as declared. Whatever local was captured before is among them. -/
theorem attached (h : f.LaidOut slots declared) {layout : Option Bytecode}
    (hlayout : declared = .ok layout) {locals : Address} {count : Nat}
    (hcount : ∀ code, layout = some code → count = code.varCount) :
    Frame.LaidOut slots declared { f with locals, localCount := count } where
  known := h.known
  native := h.native
  fits code hcode := by
    have hfits := h.fits code hcode
    have hc : count = code.varCount := hcount code (Except.ok.inj (hlayout.symm.trans hcode))
    refine ⟨hfits.args, .inr hc, hfits.pc, fun c hm index kind hs => ?_⟩
    have hi := hfits.captured c hm index kind hs
    cases kind with
    | argument => exact hi
    | localVar =>
      have hi : index < f.localCount := hi
      show index < count
      rcases hfits.locals with h0 | hv
      · omega
      · omega

/-- An offset is recorded inside the code. -/
theorem moved (h : f.LaidOut slots declared) {code : Bytecode} (hcode : declared = .ok (some code))
    {pc : Nat} (hpc : pc ≤ code.codeLength) : Frame.LaidOut slots declared { f with pc := some pc } where
  known := h.known
  native hn := by
    rw [hcode] at hn
    cases hn
  fits code' hcode' := by
    obtain rfl : code = code' := Option.some.inj (Except.ok.inj (hcode.symm.trans hcode'))
    have hfits := h.fits code hcode
    refine ⟨hfits.args, hfits.locals, fun n hn => ?_, hfits.captured⟩
    obtain rfl := Option.some.inj hn
    exact hpc

/-- A slot that the frame has is captured. -/
theorem captured (h : f.LaidOut slots declared) {c : Capture} {index : Nat} {kind : SlotKind}
    (hc : slots c = some (index, kind)) (hi : index < f.count kind) :
    Frame.LaidOut slots declared { f with captured := f.captured ++ [c] } where
  known := h.known
  native := h.native
  fits code hcode := by
    have hfits := h.fits code hcode
    refine ⟨hfits.args, hfits.locals, hfits.pc, fun d hd i k hs => ?_⟩
    rcases List.mem_append.mp hd with hd | hd
    · exact hfits.captured d hd i k hs
    · obtain rfl := List.mem_singleton.mp hd
      rw [hc] at hs
      cases hs
      exact hi

end Frame.LaidOut

/-! ## One move -/

namespace ObjectModel

variable (O : ObjectModel R)

/-- The code that a frame is held to. -/
def layoutOf (m : Machine R) (id : FrameId) : Except Violation (Option Bytecode) :=
  O.declared m.runtime (m.frames.get id).function

/-- The interpreter does not change its answers about the functions of linked frames. -/
def Steady (m m' : Machine R) : Prop :=
  ∀ id, (m.frames.get id).state = .active →
    O.declared m'.runtime (m.frames.get id).function = O.layoutOf m id

/-- Every linked frame is laid out as its function declares. -/
def Layout (m : Machine R) : Prop :=
  ∀ id, (m.frames.get id).state = .active →
    (m.frames.get id).LaidOut m.sharedSlot? (O.layoutOf m id)

end ObjectModel

/-- A move whose transitions are held to the layout of the frame's function, while the interpreter is
steady about the functions of linked frames. -/
def HeldMove (I : Interpreter R) (m m' : Machine R) : Prop := Moves I True m m' ∧ I.Steady m m'

/-- A transition leaves the interpreter's own state alone, so it is steady about it. -/
theorem HeldMove.transition (I : Interpreter R) {rec : Bool} {s : CallStack}
    (hs : Represents rec m s) {c : LifecycleCall} (hc : c.Held) :
    HeldMove I m (Result.state (c.perform I.toObjectModel m)) := by
  have hmove : Moves I True m (Result.state ((Request.transition c).perform I m)) :=
    .request _ id fun _ d hd => by
      cases hd
      exact hc
  rw [Request.state_transition] at hmove
  refine ⟨hmove, fun id _ => ?_⟩
  have hruntime := (c.transition I.toObjectModel (fun _ : True => hc) fun id hid =>
    hs.freshFrame ▸ FrameRef.findOn_lt hs ((hs.find c.frame).symm.trans hid)).runtime
  rw [c.perform_apply, hruntime]
  rfl

/-- A run of held transitions. -/
theorem HeldMove.runCalls {I : Interpreter R} {rec : Bool} {s : CallStack}
    {calls : List LifecycleCall} (hs : Represents rec m s) (h : ∀ c ∈ calls, c.Held) :
    Relation.ReflTransGen (HeldMove I) m (TieredVm.runCalls I.toObjectModel calls m) := by
  induction calls generalizing m s with
  | nil => exact .refl
  | cons c rest ih =>
    have hmove := HeldMove.transition I hs (h c List.mem_cons_self)
    obtain ⟨_, hs'⟩ := (hmove.1.frameStep hs).represents hs
    exact .head hmove (ih hs' fun d hd => h d (List.mem_cons_of_mem _ hd))

/-- A frame that a step leaves as it was stays laid out, even if variables are detached from it. -/
theorem ObjectModel.Layout.of_frame {O : ObjectModel R} (h : O.Layout m) (hsteady : O.Steady m m')
    {id : FrameId} (hactive : (m.frames.get id).state = .active)
    (hf : m'.frames.get id = m.frames.get id)
    (hslots : ∀ c ∈ (m.frames.get id).captured,
      m'.sharedSlot? c = m.sharedSlot? c ∨ m'.sharedSlot? c = none) :
    (m'.frames.get id).LaidOut m'.sharedSlot? (O.layoutOf m' id) := by
  have hlayout : O.layoutOf m' id = O.layoutOf m id := by
    rw [layoutOf, hf]
    exact hsteady id hactive
  rw [hf, hlayout]
  exact (h id hactive).of_slots hslots

/-- A step that stores one frame anew keeps all linked frames laid out if it keeps that one. -/
theorem ObjectModel.Layout.of_stored {O : ObjectModel R} (h : O.Layout m) (hsteady : O.Steady m m')
    {id : FrameId} {f : Frame} (hframes : m'.frames = m.frames.set id f)
    (hothers : ∀ j, j ≠ id → (m.frames.get j).state = .active → ∀ c ∈ (m.frames.get j).captured,
      m'.sharedSlot? c = m.sharedSlot? c ∨ m'.sharedSlot? c = none)
    (hself : f.state = .active → f.LaidOut m'.sharedSlot? (O.declared m'.runtime f.function)) :
    O.Layout m' := by
  intro j hj
  by_cases hid : j = id
  · have hget : m'.frames.get j = f := by rw [hframes, hid, Store.get_set_self]
    rw [layoutOf, hget]
    exact hself (hget ▸ hj)
  · have hget : m'.frames.get j = m.frames.get j := by rw [hframes, Store.get_set_ne _ _ hid]
    rw [hget] at hj
    exact h.of_frame hsteady hj hget (hothers j hid hj)

/-- **A step keeps all linked frames laid out.** -/
theorem FrameStep.layout {O : ObjectModel R} {rec : Bool} {s : CallStack}
    (hs : Represents rec m s) (hstep : FrameStep O True m m') (hsteady : O.Steady m m')
    (h : O.Layout m) : O.Layout m' := by
  cases hstep with
  | kept hk =>
    intro id hid
    rw [hk.frames] at hid
    exact h.of_frame hsteady hid (by rw [hk.frames]) fun c _ => .inl (hk.slots c)
  | newFrame => exact fun id hid => h.of_frame hsteady hid rfl fun _ _ => .inl rfl
  | entered _ _ checked runtime hk =>
    obtain ⟨layout, hlayout, hargs⟩ := checked trivial
    refine h.of_stored hsteady hk.frames (fun _ _ _ c _ => .inl (hk.slots c)) fun _ => ?_
    rw [runtime]
    exact .entered hlayout hargs
  | attached active checked =>
    obtain ⟨layout, hlayout, hcount⟩ := checked trivial
    exact h.of_stored hsteady rfl (fun _ _ _ _ _ => .inl rfl) fun _ =>
      (h _ active).attached hlayout hcount
  | moved active checked =>
    obtain ⟨code, hcode, hpc⟩ := checked trivial
    exact h.of_stored hsteady rfl (fun _ _ _ _ _ => .inl rfl) fun _ =>
      (h _ active).moved hcode hpc
  | @captured id index kind active inside =>
    -- The new variable is none of those captured from linked frames before.
    have hold : ∀ j, (m.frames.get j).state = .active → ∀ c ∈ (m.frames.get j).captured,
        (m.addedCapture (.shared (Machine.slotAddress ((m.frames.get id).base kind) index) index
          kind)).sharedSlot? c = m.sharedSlot? c := fun j hj c hc => by
      have hlt := hs.handedOut j ((hs.active_iff j).mp hj) c hc
      unfold Machine.sharedSlot? Machine.addedCapture
      rw [Store.get_set_ne _ _ (Nat.ne_of_lt hlt)]
    refine h.of_stored hsteady rfl (fun j _ hj c hc => .inl (hold j hj c hc)) fun _ => ?_
    refine ((h id active).of_slots fun c hc => .inl (hold id active c hc)).captured ?_ inside
    simp [Machine.sharedSlot?, Machine.addedCapture]
  | left _ _ hk =>
    refine h.of_stored hsteady (hk.frames.trans (m.frames_left _)) (fun _ _ _ c _ => ?_)
      fun hexited => by cases hexited
    rw [hk.slots, Machine.sharedSlot?_left]
    split
    · exact .inr rfl
    · exact .inl rfl

/-! ## Locals that are attached -/

theorem Chain.attachLocals_of_ok {id : FrameId} {locals : Address} {count : Nat}
    (h : attachLocals (some id) locals count m = .ok () m') :
    (m.frames.get id).state = .active ∧
      m' = m.putFrame id { m.frames.get id with locals := locals, localCount := count } := by
  by_cases hs : (m.frames.get id).state = .active
  · rw [attachLocals_linked hs] at h
    cases h
    exact ⟨hs, rfl⟩
  · refine absurd h (attachLocals_refused (fun hl => hs ?_) ..).not_ok
    obtain ⟨_, hid, hs⟩ := hl
    exact Option.some.inj hid ▸ hs

namespace ObjectModel

/-- The frame has all the locals that its function declares. -/
def HasLocals (O : ObjectModel R) (m : Machine R) (id : FrameId) : Prop :=
  ∀ code, O.layoutOf m id = .ok (some code) → (m.frames.get id).localCount = code.varCount

variable {O : ObjectModel R} {id : FrameId}

/-- A frame that keeps its function and the number of its locals keeps all of them. -/
theorem HasLocals.of_frame (h : O.HasLocals m id) (hsteady : O.Steady m m')
    (hactive : (m.frames.get id).state = .active) (hf : m'.frames.get id = m.frames.get id) :
    O.HasLocals m' id := fun code hcode => by
  rw [layoutOf, hf, hsteady id hactive] at hcode
  rw [hf, h code hcode]

/-- One frame is stored anew, for the same function. -/
theorem hasLocals_of_stored (hsteady : O.Steady m m') (hactive : (m.frames.get id).state = .active)
    {j : FrameId} {f : Frame} (hframes : m'.frames = m.frames.set j f)
    (hother : id ≠ j → O.HasLocals m id)
    (hself : id = j → f.function = (m.frames.get id).function ∧
      ∀ code, O.layoutOf m id = .ok (some code) → f.localCount = code.varCount) :
    O.HasLocals m' id := by
  by_cases hid : id = j
  · obtain ⟨hfunction, hcount⟩ := hself hid
    have hget : m'.frames.get id = f := by rw [hframes, hid, Store.get_set_self]
    intro code hcode
    rw [layoutOf, hget, hfunction, hsteady id hactive] at hcode
    rw [hget, hcount code hcode]
  · exact (hother hid).of_frame hsteady hactive (by rw [hframes, Store.get_set_ne _ _ hid])

/-- Locals that are attached, held to the layout, are all that the function declares. -/
theorem attachLocals_of_ok {locals : Address} {count : Nat}
    (h : O.attachLocals (some id) locals count m = .ok () m') :
    FrameStep O True m m' ∧ O.Steady m m' ∧ (m'.frames.get id).state = .active ∧
      O.HasLocals m' id := by
  have hattached : ∀ layout, O.layoutOf m id = .ok layout →
      (∀ code, layout = some code → count = code.varCount) →
      Chain.attachLocals (some id) locals count m = .ok () m' →
      FrameStep O True m m' ∧ O.Steady m m' ∧ (m'.frames.get id).state = .active ∧
        O.HasLocals m' id := fun layout hlayout hcount hc => by
    obtain ⟨hs, rfl⟩ := Chain.attachLocals_of_ok hc
    have hsteady : O.Steady m (m.putFrame id { m.frames.get id with
        locals := locals, localCount := count }) := fun _ _ => rfl
    refine ⟨.attached hs fun _ => ⟨layout, hlayout, hcount⟩, hsteady, ?_, ?_⟩
    · simpa [Machine.putFrame] using hs
    · refine hasLocals_of_stored hsteady hs rfl (fun hne => absurd rfl hne) fun _ => ⟨rfl, ?_⟩
      exact fun code hcode => hcount code (Except.ok.inj (hlayout.symm.trans hcode))
  rw [O.attachLocals_apply] at h
  cases hd : O.declared m.runtime (m.frames.get id).function with
  | error v =>
    rw [hd] at h
    exact absurd h Run.violate_ne_ok
  | ok layout =>
    rw [hd] at h
    cases layout with
    | none => exact hattached none hd (fun _ hn => by cases hn) h
    | some code =>
      simp only at h
      split at h
      · exact absurd h Run.violate_ne_ok
      · rename_i hcount
        refine hattached (some code) hd (fun _ hsome => ?_) h
        obtain rfl := Option.some.inj hsome
        exact Decidable.not_not.mp hcount

end ObjectModel

/-- **A frame that stays linked keeps its locals.** -/
theorem FrameStep.hasLocals {O : ObjectModel R} {id : FrameId} (hstep : FrameStep O True m m')
    (hsteady : O.Steady m m') (hactive : (m.frames.get id).state = .active)
    (hstays : (m'.frames.get id).state = .active) (h : O.HasLocals m id) : O.HasLocals m' id := by
  cases hstep with
  | kept hk => exact h.of_frame hsteady hactive (by rw [hk.frames])
  | newFrame => exact h.of_frame hsteady hactive rfl
  | entered idle _ _ _ hk =>
    exact ObjectModel.hasLocals_of_stored hsteady hactive hk.frames (fun _ => h) fun hid =>
      absurd (hid ▸ hactive) idle
  | attached _ checked =>
    obtain ⟨layout, hlayout, hcount⟩ := checked trivial
    refine ObjectModel.hasLocals_of_stored hsteady hactive rfl (fun _ => h) ?_
    rintro rfl
    exact ⟨rfl, fun code hcode => hcount code (Except.ok.inj (hlayout.symm.trans hcode))⟩
  | moved =>
    refine ObjectModel.hasLocals_of_stored hsteady hactive rfl (fun _ => h) ?_
    rintro rfl
    exact ⟨rfl, h⟩
  | captured =>
    refine ObjectModel.hasLocals_of_stored hsteady hactive rfl (fun _ => h) ?_
    rintro rfl
    exact ⟨rfl, h⟩
  | left _ _ hk =>
    have hframes := hk.frames.trans (m.frames_left _)
    refine ObjectModel.hasLocals_of_stored hsteady hactive hframes (fun _ => h) ?_
    rintro rfl
    rw [hframes, Store.get_set_self] at hstays
    cases hstays

/-! ## Runs -/

/-- A move during which a frame stays linked. -/
def StaysLinked (I : Interpreter R) (id : FrameId) (m m' : Machine R) : Prop :=
  HeldMove I m m' ∧ (m'.frames.get id).state = .active

section

variable {I : Interpreter R} {rec : Bool} {s : CallStack}

/-- A run of held moves keeps all linked frames laid out. -/
theorem HeldMove.layout (hs : Represents rec m s) (h : I.Layout m)
    (hm : Relation.ReflTransGen (HeldMove I) m m') :
    ∃ s', Represents rec m' s' ∧ I.Layout m' := by
  induction hm with
  | refl => exact ⟨s, hs, h⟩
  | tail _ hmove ih =>
    obtain ⟨_, hs', h'⟩ := ih
    have hstep := hmove.1.frameStep hs'
    obtain ⟨s'', hs''⟩ := hstep.represents hs'
    exact ⟨s'', hs'', hstep.layout hs' hmove.2 h'⟩

/-- As long as a frame stays linked, it keeps its locals, and all else stays laid out. -/
theorem StaysLinked.layout {id : FrameId} (hs : Represents rec m s) (h : I.Layout m)
    (hactive : (m.frames.get id).state = .active) (hlocals : I.HasLocals m id)
    (hm : Relation.ReflTransGen (StaysLinked I id) m m') :
    (∃ s', Represents rec m' s') ∧ I.Layout m' ∧ (m'.frames.get id).state = .active ∧
      I.HasLocals m' id := by
  induction hm with
  | refl => exact ⟨⟨s, hs⟩, h, hactive, hlocals⟩
  | tail _ hmove ih =>
    obtain ⟨⟨_, hs'⟩, h', hactive', hlocals'⟩ := ih
    obtain ⟨⟨hmoves, hsteady⟩, hstays⟩ := hmove
    have hstep := hmoves.frameStep hs'
    exact ⟨hstep.represents hs', hstep.layout hs' hsteady h', hstays,
      hstep.hasLocals hsteady hactive' hstays hlocals'⟩

end

/-- A slot of a linked frame can be captured. -/
theorem Chain.captureCurrent_inside {id : FrameId} (hc : m.chain.current = some id)
    (hs : (m.frames.get id).state = .active) {index : Nat} {kind : SlotKind}
    (hi : index < (m.frames.get id).count kind) :
    ∃ c m', captureCurrent index kind m = .ok c m' := by
  rw [captureCurrent_linked hc hs]
  cases hq : captured? m id index kind with
  | some c => exact ⟨c, m, captureOf_again hq⟩
  | none => exact ⟨_, _, captureOf_new hq hi⟩

/-- The linked frames of a machine agree with what their functions declare. -/
structure LayoutRespected (I : Interpreter R) (m : Machine R) : Prop where
  /-- The active frames are the linked ones. -/
  linked_iff : ∀ id, (m.frames.get id).state = .active ↔ id ∈ Chain.linked m
  /-- Each is held to some code, or to none. -/
  known : ∀ id ∈ Chain.linked m, ∃ layout, I.layoutOf m id = .ok layout
  /-- One that is held to code has the arguments, locals and offsets that fit it, and so have the
  variables captured from it. -/
  fits : ∀ id ∈ Chain.linked m, ∀ code, I.layoutOf m id = .ok (some code) →
    (m.frames.get id).Fits m.sharedSlot? code
  /-- No other variable shares a slot. -/
  listed : ∀ c, m.captureShared c = true → ∃ id ∈ Chain.linked m, c ∈ (m.frames.get id).captured
  /-- So every declared argument of the innermost frame can be read, -/
  arg : ∀ id code, m.chain.current = some id → I.layoutOf m id = .ok (some code) →
    ∀ i < code.argCount, ∃ v, Chain.currentArg i m = .ok v m
  /-- and once locals were attached, every declared local can be read and captured whenever the frame
  is innermost, until it is left. -/
  locals : ∀ id locals count m₁ m₂, I.attachLocals (some id) locals count m = .ok () m₁ →
    Relation.ReflTransGen (StaysLinked I id) m₁ m₂ → m₂.chain.current = some id →
    ∀ code, I.layoutOf m₂ id = .ok (some code) → ∀ i < code.varCount,
      (∃ v, Chain.currentLocal i m₂ = .ok v m₂) ∧
        ∃ c m₃, Chain.captureCurrent i .localVar m₂ = .ok c m₃
  /-- A frame for a native function has no offset, -/
  native : ∀ id ∈ Chain.linked m, I.layoutOf m id = .ok none → (m.frames.get id).pc = none
  /-- and may be entered with any arguments and get any locals. -/
  native_enters : ∀ id function args argCount, (m.frames.get id).state ≠ .active →
    I.declared m.runtime function = .ok none →
      ∃ m', I.enter (some id) function args argCount m = .ok () m'
  native_attaches : ∀ id ∈ Chain.linked m, I.layoutOf m id = .ok none → ∀ locals count,
    ∃ m', I.attachLocals (some id) locals count m = .ok () m'

theorem ObjectModel.dangling_of_declared {O : ObjectModel R} {t : R} {function : Value}
    {layout : Option Bytecode} (h : O.declared t function = .ok layout) :
    function.dangling = false := by
  unfold declared at h
  cases hp : function.asPointer? (.heap .object) with
  | ok p => exact Regime.shown_of_asPointer? hp
  | error v =>
    rw [hp] at h
    cases h

/-- What can be said of every machine whose frames represent a stack and are laid out. -/
theorem Represents.layoutRespected {I : Interpreter R} {rec : Bool} {s : CallStack}
    (hs : Represents rec m s) (h : I.Layout m) : LayoutRespected I m := by
  have hlinked := hs.linked
  have hactive : ∀ {id}, id ∈ Chain.linked m → (m.frames.get id).state = .active := fun hid =>
    (hs.active_iff _).mpr (hlinked ▸ hid)
  constructor
  case linked_iff => exact fun id => hlinked ▸ hs.active_iff id
  case known => exact fun id hid => (h id (hactive hid)).known
  case fits => exact fun id hid => (h id (hactive hid)).fits
  case listed =>
    intro c hc
    rw [hlinked]
    exact hs.found c (by rw [m.isSome_sharedSlot?, hc])
  case arg =>
    intro id code hc hcode i hi
    obtain ⟨a, rest, hl, rfl⟩ := hs.exists_innermost hc
    have ha := hs.active (hl ▸ List.mem_cons_self)
    have hargs := ((h _ ha).fits code hcode).args
    have hinside : i < (m.frames.get a.frame).count .argument := Nat.lt_of_lt_of_le hi hargs
    exact ⟨_, Chain.readCurrent_inside .currentArg hc ha hinside⟩
  case locals =>
    intro id locals count m₁ m₂ hattach hrun hc code hcode i hi
    obtain ⟨hstep, hsteady, ha, hlocals⟩ := ObjectModel.attachLocals_of_ok hattach
    obtain ⟨s₁, hs₁⟩ := hstep.represents hs
    obtain ⟨-, -, ha₂, hlocals₂⟩ :=
      StaysLinked.layout hs₁ (hstep.layout hs hsteady h) ha hlocals hrun
    have hinside : i < (m₂.frames.get id).count .localVar := by
      show i < (m₂.frames.get id).localCount
      rwa [hlocals₂ code hcode]
    exact ⟨⟨_, Chain.readCurrent_inside .currentLocal hc ha₂ hinside⟩,
      Chain.captureCurrent_inside hc ha₂ hinside⟩
  case native => exact fun id hid => (h id (hactive hid)).native
  case native_enters =>
    intro id function args argCount hidle hnone
    have hshown : m.journal.isSome = true → function.dangling = false := fun _ =>
      ObjectModel.dangling_of_declared hnone
    obtain ⟨line, hl⟩ := Chain.enter_shown hidle hshown args argCount
    exact ⟨_, by rw [I.enter_apply, hnone]; exact hl⟩
  case native_attaches =>
    intro id hid hnone locals count
    have hl := Chain.attachLocals_linked (hactive hid) locals count
    have hnone : I.declared m.runtime (m.frames.get id).function = .ok none := hnone
    exact ⟨_, by rw [I.attachLocals_apply, hnone]; exact hl⟩

/-- **Linked frames respect the layouts their functions declare.** From rest, every run whose
transitions go through the checks, by whatever route and with whatever violations caught on the way,
leaves linked frames that agree with what the interpreter says of their functions, as long as it does
not change its answers about the functions of linked frames. -/
theorem layout_respected (I : Interpreter R) (start : Machine R) (hrest : start.AtRest)
    (m : Machine R) (hm : Relation.ReflTransGen (HeldMove I) start m) : LayoutRespected I m := by
  have hstart : I.Layout start := fun id hid => absurd hid (hrest.idle id)
  obtain ⟨s, hs, h⟩ := HeldMove.layout hrest.represents hstart hm
  exact hs.layoutRespected h

namespace Layout

/-- A function of one argument and two locals. -/
def fibCode : Bytecode := { name := some "fib", argCount := 1, varCount := 2, codeLength := 12 }

def fib : Value := .boxed HeapTag.object.box (Reference.cellAddress 0)

def start : Machine Reference.State :=
  { runtime := { cells := #[.function fibCode []] }, freshFrame := 3 }

/-- A frame is entered for the function, for a native one, and for the function again. Arguments are
missing, locals do not match, and an offset lies outside the code. -/
def calls : List LifecycleCall :=
  [.enter true (.owned 1) fib 8 0, .enter true (.owned 1) fib 8 1,
    .attachLocals true .current 16 1, .attachLocals true .current 16 2, .setHeldPc .current 13,
    .setHeldPc .current 12, .exit .current, .enter true (.owned 1) .undefined 0 0,
    .attachLocals true .current 16 3, .setHeldPc .current 0, .exit (.owned 1),
    .enter true (.owned 1) fib 8 1, .setHeldPc .current 4]

end Layout

open Layout in
/-- The function's frame, linked last, has no locals yet. With the declared ones attached, both of them
can be read and captured. -/
theorem layout_respected_reused :
    start.AtRest ∧ (∀ c ∈ calls, c.Held) ∧
      LayoutRespected Reference.interpreter (runCalls Reference.objectModel calls start) ∧
      Chain.walk (runCalls Reference.objectModel calls start) =
        [{ function := fib, pc := some 4, argCount := 1, localCount := 0, openCaptures := 0 }] ∧
      ∃ m, Reference.objectModel.attachLocals (some 1) 16 2
          (runCalls Reference.objectModel calls start) = .ok () m ∧
        ∀ i < 2, (∃ v, Chain.currentLocal i m = .ok v m) ∧
          ∃ c m', Chain.captureCurrent i .localVar m = .ok c m' := by
  have hrest : start.AtRest :=
    ⟨rfl, fun _ => (by decide : FrameState.unlinked ≠ .active), fun _ => rfl⟩
  have hheld : ∀ c ∈ calls, c.Held := by simp [calls, LifecycleCall.Held]
  have hrun := HeldMove.runCalls (I := Reference.interpreter) hrest.represents hheld
  have hlayout := layout_respected _ start hrest _ hrun
  obtain ⟨m, hattach, hcurrent, hruntime, hfunction⟩ : ∃ m, Reference.objectModel.attachLocals
      (some 1) 16 2 (runCalls Reference.objectModel calls start) = .ok () m ∧
        m.chain.current = some 1 ∧ m.runtime = start.runtime ∧ (m.frames.get 1).function = fib :=
    ⟨_, rfl, rfl, rfl, rfl⟩
  have hcode : Reference.objectModel.layoutOf m 1 = .ok (some fibCode) := by
    rw [ObjectModel.layoutOf, hruntime, hfunction]
    rfl
  exact ⟨hrest, hheld, hlayout, by decide +kernel, m, hattach,
    hlayout.locals 1 16 2 m m hattach .refl hcurrent fibCode hcode⟩

end TieredVm
