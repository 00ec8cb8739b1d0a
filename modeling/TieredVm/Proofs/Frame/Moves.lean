import Mathlib.Logic.Relation
import TieredVm.Proofs.Caller
import TieredVm.Proofs.Helper.Boundary

/-!
# Moves

Whatever runs on a machine reaches its frames through few operations. `Moves` is one of them: a request,
answered or not, a helper for a frame transition, or anything that leaves the frames and the variables
captured from them alone. Operators are no moves of their own, since all that they do to the frames, the
interpreter behind them does by moves. A run is `Relation.ReflTransGen` of moves, whoever makes them.

* `FrameStep`: what a move does to the frames, and when. `Moves.frameStep` is the one place where moves
  are taken apart.
* `FrameStep.represents`: moves keep the stack of activations that the frames represent.
-/

namespace TieredVm

variable {R α β : Type} {m m' : Machine R}

namespace ObjectModel

variable (O : ObjectModel R)

/-- Recording an offset held to the code of the frame's function. -/
theorem setPc_checked (id : FrameId) (pc : Nat) :
    Refused m (O.setPc (some id) pc m) ∨
      ∃ code, O.declared m.runtime (m.frames.get id).function = .ok (some code) ∧
        O.setPc (some id) pc m = Chain.setPc (some id) code pc m := by
  have hget : O.setPc (some id) pc m =
      (O.codeOf (m.frames.get id).function >>= fun code => Chain.setPc (some id) code pc) m :=
    Run.bind_of_ok (Run.get_apply m) _
  rw [hget]
  rcases O.codeOf_cases (m := m) (m.frames.get id).function with ⟨code, hc⟩ | ⟨v, hv⟩
  · exact .inr ⟨code, O.declared_of_codeOf hc, Run.bind_of_ok hc _⟩
  · exact .inl ⟨v, by rw [Run.bind_apply, hv]; rfl⟩

end ObjectModel

/-- Is the call held to the layout of the frame's function? Leaving a frame needs none. -/
def LifecycleCall.Held : LifecycleCall → Prop
  | .enter held _ _ _ _ | .attachLocals held _ _ _ => held = true
  | .setPc _ _ _ => False
  | .setHeldPc _ _ | .exit _ => True

/-! ## Operations that leave the frames alone -/

/-- Does an operation leave the frames alone, wherever it is performed? -/
def Run.KeepsFrames (x : Run R α) : Prop := ∀ m : Machine R, m.FramesKept (Result.state (x m))

theorem Refused.framesKept {r : EStateM.Result Stop (Machine R) α} (h : Refused m r) :
    m.FramesKept (Result.state r) := by
  obtain ⟨v, rfl⟩ := h
  exact .noted m _

namespace Run

theorem keepsFrames_pure (a : α) : (pure a : Run R α).KeepsFrames := fun m => .refl m

theorem keepsFrames_get : (get : Run R (Machine R)).KeepsFrames := fun m => .refl m

theorem keepsFrames_violate (v : Violation) : (violate v : Run R α).KeepsFrames := fun m =>
  .noted m _

theorem keepsFrames_expect (x : Except Violation α) : (expect x : Run R α).KeepsFrames := by
  cases x with
  | ok a => exact keepsFrames_pure a
  | error v => exact keepsFrames_violate v

theorem KeepsFrames.bind {x : Run R α} {f : α → Run R β} (hx : x.KeepsFrames)
    (hf : ∀ a, (f a).KeepsFrames) : (x >>= f).KeepsFrames := by
  intro m
  have h := hx m
  rw [bind_apply]
  cases hr : x m with
  | ok a n =>
    rw [hr] at h
    exact h.trans (hf a n)
  | error e n =>
    rw [hr] at h
    exact h

theorem keepsFrames_emit (e : Event) : (emit e : Run R Unit).KeepsFrames := by
  refine keepsFrames_get.bind fun m => ?_
  split
  · exact (keepsFrames_expect _).bind fun line => fun m => .noted m line
  · exact keepsFrames_pure ()

theorem keepsFrames_onRuntime (act : Local R α) : (onRuntime act).KeepsFrames := by
  intro m
  have hr : ∀ s : R, m.FramesKept { m with runtime := s } := fun s =>
    ⟨rfl, rfl, rfl, Nat.le_refl _, rfl, fun _ => rfl⟩
  unfold onRuntime
  cases act m.runtime with
  | ok a s => exact hr s
  | error e s =>
    cases e with
    | abort a => exact hr s
    | panic p =>
      cases p with
      | violation v => exact (hr s).trans (keepsFrames_violate v _)
      | outOfBounds n i => exact hr s
      | message t => exact hr s

theorem keepsFrames_codeOf (O : ObjectModel R) (function : Value) :
    (O.codeOf function).KeepsFrames := fun m => by
  rcases O.codeOf_cases (m := m) function with ⟨code, hc⟩ | hv
  · rw [hc]
    exact .refl m
  · exact Refused.framesKept hv

theorem keepsFrames_capturedOf (O : ObjectModel R) (function : Value) (index : Nat) :
    (O.capturedOf function index).KeepsFrames := fun m => by
  rcases O.capturedOf_cases (m := m) function index with ⟨c, hc⟩ | ⟨v, hv, -⟩
  · rw [O.capturedOf_of_holds hc]
    exact keepsFrames_onRuntime _ m
  · exact Refused.framesKept ⟨v, hv⟩

theorem runtime_emit (e : Event) (m : Machine R) :
    (Result.state (emit e m)).runtime = m.runtime := by
  unfold emit
  rw [bind_of_ok (get_apply m)]
  split
  · cases e.line <;> rfl
  · rfl

/-- What is done with an answer does not change what is left. -/
theorem state_bind_pure (x : Run R α) (f : α → β) (m : Machine R) :
    Result.state ((do return f (← x) : Run R β) m) = Result.state (x m) := by
  show Result.state ((x >>= fun a => pure (f a)) m) = _
  rw [bind_apply]
  cases x m <;> rfl

end Run

/-- An operation that other requests are not: it works on the frames or on captured variables. -/
def Request.ReachesFrames : Request R → Prop
  | .newFrame | .transition _ | .capture .. | .captureCurrent .. | .newVariable _ => True
  | _ => False

open Run in
/-- Requests that neither reach the frames nor call an operator leave the frames alone. -/
theorem Request.keepsFrames (I : Interpreter R) {r : Request R} (hr : ¬ r.ReachesFrames)
    (ho : ¬ r.IsOperator) : (r.perform I).KeepsFrames := by
  have hread : ∀ {use : FrameUse} {kind : SlotKind} {index : Nat},
      (Chain.readCurrent use kind index : Run R Value).KeepsFrames := fun {use kind index} m => by
    by_cases h : ∃ id, m.chain.current = some id ∧ (m.frames.get id).state = .active ∧
        index < (m.frames.get id).count kind
    · obtain ⟨id, hc, hs, hi⟩ := h
      rw [Chain.readCurrent_inside use hc hs hi]
      exact .refl m
    · exact (Chain.readCurrent_refused use h).framesKept
  cases r with
  | binary op x y => exact absurd trivial ho
  | unary op x => exact absurd trivial ho
  | logicalNot x => exact absurd trivial ho
  | toBool x => exact absurd trivial ho
  | typeOf x => exact absurd trivial ho
  | newFrame => exact absurd trivial hr
  | transition c => exact absurd trivial hr
  | capture frame index kind => exact absurd trivial hr
  | captureCurrent index kind => exact absurd trivial hr
  | newVariable v => exact absurd trivial hr
  | raise e =>
    have hpark : (modify fun m => { m with pending := some e } : Run R PUnit).KeepsFrames := fun m =>
      ⟨rfl, rfl, rfl, Nat.le_refl _, rfl, fun _ => rfl⟩
    exact ((keepsFrames_emit _).bind fun _ => hpark.bind fun _ => keepsFrames_pure _).bind fun _ =>
      keepsFrames_pure _
  | takePending => exact fun m => ⟨rfl, rfl, rfl, Nat.le_refl _, rfl, fun _ => rfl⟩
  | pending => exact keepsFrames_get.bind fun _ => keepsFrames_pure _
  | newBuffer vs => exact fun m => ⟨rfl, rfl, rfl, Nat.le_refl _, rfl, fun _ => rfl⟩
  | currentArg index => exact hread.bind fun _ => keepsFrames_pure _
  | currentLocal index => exact hread.bind fun _ => keepsFrames_pure _
  | setCurrentLocal index v =>
    intro m
    refine (?_ : (Chain.setCurrentLocal index v : Run R Unit).KeepsFrames).bind
      (fun _ => keepsFrames_pure _) m
    intro m
    by_cases h : ∃ id, m.chain.current = some id ∧ (m.frames.get id).state = .active ∧
        index < (m.frames.get id).count .localVar
    · obtain ⟨id, hc, hs, hi⟩ := h
      rw [Chain.setCurrentLocal_inside hc hs hi]
      exact .written m _ _
    · exact (Chain.setCurrentLocal_refused h v).framesKept
  | readVariable c => exact keepsFrames_get.bind fun _ => keepsFrames_pure _
  | setVariable c v => exact fun m => .setCapture m c v
  | poke slot v => exact fun m => .written m slot v
  | chain => exact keepsFrames_get.bind fun _ => keepsFrames_pure _
  | walk => exact keepsFrames_get.bind fun _ => keepsFrames_pure _
  | trace =>
    exact (keepsFrames_get.bind fun _ => keepsFrames_expect _).bind fun _ => keepsFrames_pure _
  | code function => exact (keepsFrames_codeOf _ _).bind fun _ => keepsFrames_pure _
  | constant function index =>
    exact ((keepsFrames_codeOf _ _).bind fun _ => keepsFrames_expect _).bind fun _ =>
      keepsFrames_pure _
  | captured function index => exact (keepsFrames_capturedOf _ _ _).bind fun _ => keepsFrames_pure _
  | host act => exact keepsFrames_onRuntime act

/-! ## What a move does to the frames -/

/-- What one move does to the frames, and when. Where transitions are held to layouts, they say how the
frame agrees with what its function declares. -/
inductive FrameStep (O : ObjectModel R) (held : Prop) (m : Machine R) : Machine R → Prop where
  | kept {m' : Machine R} (h : m.FramesKept m') : FrameStep O held m m'
  | newFrame : FrameStep O held m { m with freshFrame := m.freshFrame + 1 }
  | entered {m' : Machine R} {id : FrameId} {function : Value} {args : Address} {argCount : Nat}
      (idle : (m.frames.get id).state ≠ .active) (setAside : id < m.freshFrame)
      (checked : held → ∃ layout, O.declared m.runtime function = .ok layout ∧
        ∀ code, layout = some code → code.argCount ≤ argCount)
      (runtime : m'.runtime = m.runtime)
      (h : (m.entered id function args argCount).FramesKept m') : FrameStep O held m m'
  | attached {id : FrameId} {locals : Address} {count : Nat}
      (active : (m.frames.get id).state = .active)
      (checked : held → ∃ layout, O.declared m.runtime (m.frames.get id).function = .ok layout ∧
        ∀ code, layout = some code → count = code.varCount) :
      FrameStep O held m
        (m.putFrame id { m.frames.get id with locals := locals, localCount := count })
  | moved {id : FrameId} {pc : Nat} (active : (m.frames.get id).state = .active)
      (checked : held → ∃ code, O.declared m.runtime (m.frames.get id).function = .ok (some code) ∧
        pc ≤ code.codeLength) :
      FrameStep O held m (m.putFrame id { m.frames.get id with pc := some pc })
  | captured {id : FrameId} {index : Nat} {kind : SlotKind}
      (active : (m.frames.get id).state = .active)
      (inside : index < (m.frames.get id).count kind) :
      FrameStep O held m
        ((m.addedCapture (.shared (Machine.slotAddress ((m.frames.get id).base kind) index) index
          kind)).putFrame id { m.frames.get id with
            captured := (m.frames.get id).captured ++ [⟨m.freshCapture⟩] })
  | left {m' : Machine R} {id : FrameId} (active : (m.frames.get id).state = .active)
      (innermost : m.chain.current = some id) (h : (m.left id).FramesKept m') :
      FrameStep O held m m'

/-- No frame is taken back that was set aside. -/
theorem FrameStep.freshFrame_le {O : ObjectModel R} {held : Prop} (h : FrameStep O held m m') :
    m.freshFrame ≤ m'.freshFrame := by
  cases h with
  | kept hk => exact Nat.le_of_eq hk.freshFrame.symm
  | newFrame => exact Nat.le_succ _
  | entered _ _ _ _ hk => exact Nat.le_of_eq hk.freshFrame.symm
  | attached => exact Nat.le_refl _
  | moved => exact Nat.le_refl _
  | captured => exact Nat.le_refl _
  | left _ _ hk => exact Nat.le_of_eq (hk.freshFrame.trans (m.freshFrame_left _)).symm

theorem FrameStep.of_refused {O : ObjectModel R} {held : Prop}
    {r : EStateM.Result Stop (Machine R) α} (h : Refused m r) :
    FrameStep O held m (Result.state r) := .kept h.framesKept

/-- Capturing a slot of a linked frame is a step. -/
theorem FrameStep.captureOf {O : ObjectModel R} {held : Prop} {id : FrameId}
    (hs : (m.frames.get id).state = .active) (index : Nat) (kind : SlotKind) :
    FrameStep O held m (Result.state (Chain.captureOf id (m.frames.get id) index kind m)) := by
  cases hq : Chain.captured? m id index kind with
  | some c =>
    rw [Chain.captureOf_again hq]
    exact .kept (.refl m)
  | none =>
    by_cases hi : index < (m.frames.get id).count kind
    · rw [Chain.captureOf_new hq hi]
      exact .captured hs hi
    · exact .of_refused (Chain.captureOf_refused hq hi)

/-- What a transition does: a step, and nothing to the interpreter's own state. -/
structure Transition (O : ObjectModel R) (held : Prop) (m m' : Machine R) : Prop where
  step : FrameStep O held m m'
  runtime : m'.runtime = m.runtime

namespace Transition

variable {O : ObjectModel R} {held : Prop}

theorem of_refused {r : EStateM.Result Stop (Machine R) α} (h : Refused m r) :
    Transition O held m (Result.state r) := by
  refine ⟨.of_refused h, ?_⟩
  obtain ⟨v, rfl⟩ := h
  rfl

/-- A frame is entered, or nothing happens to the frames. -/
theorem enter {frame : Option FrameId} (hfresh : ∀ id, frame = some id → id < m.freshFrame)
    {function : Value} (args : Address) {argCount : Nat}
    (checked : held → ∃ layout, O.declared m.runtime function = .ok layout ∧
      ∀ code, layout = some code → code.argCount ≤ argCount) :
    Transition O held m (Result.state (Chain.enter frame function args argCount m)) := by
  by_cases h : ∃ id, frame = some id ∧ (m.frames.get id).state ≠ .active
  · obtain ⟨id, rfl, hs⟩ := h
    rw [Chain.enter_idle hs]
    have hruntime := Run.runtime_emit (.enter (m.chain.depth + 1) function)
      (m.entered id function args argCount)
    exact ⟨.entered hs (hfresh id rfl) checked hruntime (Run.keepsFrames_emit _ _), hruntime⟩
  · exact .of_refused (Chain.enter_refused h ..)

theorem attachLocals (id : FrameId) (locals : Address) {count : Nat}
    (checked : held → ∃ layout, O.declared m.runtime (m.frames.get id).function = .ok layout ∧
      ∀ code, layout = some code → count = code.varCount) :
    Transition O held m (Result.state (Chain.attachLocals (some id) locals count m)) := by
  by_cases h : (m.frames.get id).state = .active
  · rw [Chain.attachLocals_linked h]
    exact ⟨.attached h checked, rfl⟩
  · refine .of_refused (Chain.attachLocals_refused (fun hl => ?_) ..)
    obtain ⟨_, hid, hs⟩ := hl
    exact h (Option.some.inj hid ▸ hs)

theorem setPc (id : FrameId) {code : Bytecode} {pc : Nat}
    (checked : held → O.declared m.runtime (m.frames.get id).function = .ok (some code)) :
    Transition O held m (Result.state (Chain.setPc (some id) code pc m)) := by
  by_cases h : m.Linked (some id) ∧ code.containsPc pc = true
  · obtain ⟨⟨_, hid, hs⟩, hpc⟩ := h
    obtain rfl := Option.some.inj hid
    rw [Chain.setPc_inside hs hpc]
    exact ⟨.moved hs fun hh => ⟨code, checked hh, by simpa [Bytecode.containsPc] using hpc⟩, rfl⟩
  · exact .of_refused (Chain.setPc_refused h)

theorem exit (frame : Option FrameId) :
    Transition O held m (Result.state (Chain.exit frame m)) := by
  by_cases h : m.Linked frame ∧ m.chain.current = frame
  · obtain ⟨⟨id, rfl, hs⟩, hc⟩ := h
    rw [Chain.exit_innermost hs hc]
    exact ⟨.left hs hc (.noted _ _), m.runtime_left id⟩
  · exact .of_refused (Chain.exit_refused h)

end Transition

/-- A transition, on the chain itself or held to the layout of the frame's function. -/
theorem LifecycleCall.transition (O : ObjectModel R) {held : Prop} (c : LifecycleCall)
    (hc : held → c.Held) {frame : Option FrameId}
    (hfresh : ∀ id, frame = some id → id < m.freshFrame) :
    Transition O held m (Result.state (c.performOn O frame m)) := by
  cases c with
  | enter heldTo fr function args argCount =>
    cases heldTo with
    | false => exact .enter hfresh args fun h => absurd (hc h) (by simp [Held])
    | true =>
      show Transition O held m (Result.state (O.enter frame function args argCount m))
      rw [O.enter_apply]
      cases hd : O.declared m.runtime function with
      | error v => exact .of_refused ⟨v, rfl⟩
      | ok layout =>
        cases layout with
        | none => exact .enter hfresh args fun _ => ⟨none, hd, fun _ h => by cases h⟩
        | some code =>
          simp only
          split
          · exact .of_refused ⟨_, rfl⟩
          · refine .enter hfresh args fun _ => ⟨some code, hd, fun _ h => ?_⟩
            obtain rfl := Option.some.inj h
            omega
  | attachLocals heldTo fr locals count =>
    cases heldTo with
    | false =>
      cases frame with
      | none => exact .of_refused (Chain.attachLocals_refused (fun ⟨_, h, _⟩ => by cases h) ..)
      | some id => exact .attachLocals id locals fun h => absurd (hc h) (by simp [Held])
    | true =>
      show Transition O held m (Result.state (O.attachLocals frame locals count m))
      cases frame with
      | none => exact .of_refused ⟨_, rfl⟩
      | some id =>
        rw [O.attachLocals_apply]
        cases hd : O.declared m.runtime (m.frames.get id).function with
        | error v => exact .of_refused ⟨v, rfl⟩
        | ok layout =>
          cases layout with
          | none => exact .attachLocals id locals fun _ => ⟨none, hd, fun _ h => by cases h⟩
          | some code =>
            simp only
            split
            · exact .of_refused ⟨_, rfl⟩
            · rename_i hcount
              refine .attachLocals id locals fun _ => ⟨some code, hd, fun _ h => ?_⟩
              obtain rfl := Option.some.inj h
              exact Decidable.not_not.mp hcount
  | setPc fr code pc =>
    cases frame with
    | none => exact .of_refused (Chain.setPc_refused fun ⟨⟨_, h, _⟩, _⟩ => by cases h)
    | some id => exact .setPc id fun h => (hc h).elim
  | setHeldPc fr pc =>
    show Transition O held m (Result.state (O.setPc frame pc m))
    cases frame with
    | none => exact .of_refused ⟨_, rfl⟩
    | some id =>
      rcases O.setPc_checked (m := m) id pc with hr | ⟨code, hd, he⟩
      · exact .of_refused hr
      · rw [he]
        exact .setPc id fun _ => hd
  | exit fr => exact .exit frame

/-! ## Moves -/

/-- The helpers for frame transitions. Their first word points at the frame. -/
def HelperKind.IsTransition : HelperKind → Prop
  | .enter | .attachLocals | .setPc | .exit => True
  | _ => False

/-- One move of a run. Transitions may be required to be held to the layout of the frame's function. -/
inductive Moves (I : Interpreter R) (held : Prop) (m : Machine R) : Machine R → Prop where
  /-- A request is made. If it panics, the panic is caught. -/
  | request (r : Request R) (operator : ¬ r.IsOperator)
      (transition : held → ∀ c, r = .transition c → c.Held) :
      Moves I held m (Result.state (r.perform I m))
  /-- A helper for a transition is called on no frame, or on one that was set aside. -/
  | helper (k : HelperKind) (words : Words k.wordCount) (transition : k.IsTransition)
      (frame : ∀ id, (words.word 0).toFrame? = some id → id < m.freshFrame) :
      Moves I held m (Result.state (I.callHelper k words m))
  /-- Anything happens away from the frames: in memory, to the pending exception, to the journal, in
  the interpreter. -/
  | elsewhere (m' : Machine R) (h : m.FramesKept m') : Moves I held m m'

theorem Run.state_atBoundary (act : Run R α) (m : Machine R) :
    Result.state (atBoundary act m) = Result.state (act m) := by
  unfold atBoundary
  cases act m with
  | ok a m' => rfl
  | error s m' => cases s <;> rfl

/-- A helper for a transition makes the transition that its words say, held to the layout, or none. -/
theorem HelperKind.IsTransition.transition (I : Interpreter R) {held : Prop} {k : HelperKind}
    (hk : k.IsTransition) {words : Words k.wordCount}
    (hframe : ∀ id, (words.word 0).toFrame? = some id → id < m.freshFrame) :
    Transition I.toObjectModel held m (Result.state (I.callHelper k words m)) := by
  have hcall : ∀ c : LifecycleCall, c.Held → Transition I.toObjectModel held m (Result.state
      ((do c.performOn I.toObjectModel (words.word 0).toFrame?; return 0 : Run R Word) m)) :=
    fun c hc => by
      rw [Run.state_bind_pure]
      exact c.transition _ (fun _ => hc) hframe
  have hread : ∀ (x : Except Violation Nat) (c : Nat → LifecycleCall), (∀ n, (c n).Held) →
      Transition I.toObjectModel held m (Result.state ((do
        let n ← Run.expect x
        (c n).performOn I.toObjectModel (words.word 0).toFrame?
        return 0 : Run R Word) m)) := fun x c hc => by
    cases x with
    | ok n => exact hcall (c n) (hc n)
    | error v => exact .of_refused ⟨v, rfl⟩
  rw [Interpreter.callHelper_eq, Run.state_atBoundary]
  cases k with
  | enter =>
    rw [HelperKind.read, Run.expect_map_bind]
    exact hread _ (.enter true .null (words.value 1) (words.word 3).toAddress) fun _ => rfl
  | attachLocals =>
    rw [HelperKind.read, Run.expect_map_bind]
    exact hread _ (.attachLocals true .null (words.word 1).toAddress) fun _ => rfl
  | setPc =>
    rw [HelperKind.read, Run.expect_map_bind]
    exact hread _ (.setHeldPc .null) fun _ => trivial
  | exit => exact hcall (.exit .null) trivial
  | _ => exact hk.elim

namespace Represents

variable {recording : Bool} {s : CallStack}

/-- The innermost frame is the top of the stack. -/
theorem exists_innermost (h : Represents recording m s) {id : FrameId}
    (hc : m.chain.current = some id) : ∃ a rest, s.linked = a :: rest ∧ a.frame = id :=
  CallStack.top_eq_some (h.current.symm.trans hc)

end Represents

/-- **A move keeps a stack of activations represented.** -/
theorem FrameStep.represents {O : ObjectModel R} {held : Prop} {rec : Bool} {s : CallStack}
    (hm : FrameStep O held m m') (h : Represents rec m s) : ∃ s', Represents rec m' s' := by
  cases hm with
  | kept hk => exact ⟨s, h.framesKept hk⟩
  | newFrame => exact ⟨_, h.newFrame⟩
  | entered idle setAside _ _ hk =>
    have hid := fun hin => idle ((h.active_iff _).mpr hin)
    exact ⟨_, (h.entered hid (h.freshFrame ▸ setAside) ..).framesKept hk⟩
  | attached active _ =>
    obtain ⟨a, ha, rfl⟩ := CallStack.mem_frames.mp ((h.active_iff _).mp active)
    exact ⟨_, h.attached ha ..⟩
  | moved active _ =>
    obtain ⟨a, ha, rfl⟩ := CallStack.mem_frames.mp ((h.active_iff _).mp active)
    exact ⟨_, h.moved ha _⟩
  | captured active _ =>
    obtain ⟨a, ha, rfl⟩ := CallStack.mem_frames.mp ((h.active_iff _).mp active)
    exact ⟨_, h.captured ha ..⟩
  | left _ innermost hk =>
    obtain ⟨a, rest, hl, rfl⟩ := h.exists_innermost innermost
    exact ⟨_, (h.left hl).framesKept hk⟩

theorem Request.state_transition (I : Interpreter R) (c : LifecycleCall) :
    Result.state ((Request.transition c).perform I m) = Result.state (c.perform I.toObjectModel m) :=
  Run.state_bind_pure _ _ m

theorem Request.state_capture (I : Interpreter R) (frame : FrameRef) (index : Nat) (kind : SlotKind) :
    Result.state ((Request.capture frame index kind).perform I m) =
      Result.state (Chain.capture (frame.find m) index kind m) := Run.state_bind_pure _ _ m

theorem Request.state_captureCurrent (I : Interpreter R) (index : Nat) (kind : SlotKind) :
    Result.state ((Request.captureCurrent index kind).perform I m) =
      Result.state (Chain.captureCurrent index kind m) := Run.state_bind_pure _ _ m

/-- A request, while a stack of activations is represented. -/
theorem Request.frameStep (I : Interpreter R) {held : Prop} {rec : Bool} {s : CallStack}
    (h : Represents rec m s) {r : Request R} (ho : ¬ r.IsOperator)
    (ht : held → ∀ c, r = .transition c → c.Held) :
    FrameStep I.toObjectModel held m (Result.state (r.perform I m)) := by
  by_cases hr : r.ReachesFrames
  · cases r with
    | newFrame => exact .newFrame
    | transition c =>
      rw [state_transition, c.perform_apply]
      refine (c.transition _ (fun hh => ht hh c rfl) fun id hid => ?_).step
      exact h.freshFrame ▸ FrameRef.findOn_lt h ((h.find c.frame).symm.trans hid)
    | capture frame index kind =>
      rw [state_capture]
      rcases Chain.capture_cases m (frame.find m) index kind with ⟨id, hs, hc⟩ | hr
      · rw [hc]
        exact .captureOf hs index kind
      · exact .of_refused hr
    | captureCurrent index kind =>
      rw [state_captureCurrent]
      rcases Chain.captureCurrent_cases m index kind with ⟨id, hs, hc⟩ | hr
      · rw [hc]
        exact .captureOf hs index kind
      · exact .of_refused hr
    | newVariable v => exact .kept (.addedCapture m v fun c => h.sharedSlot?_fresh)
    | _ => exact hr.elim
  · exact .kept (Request.keepsFrames I hr ho m)

/-- **What a move does to the frames**, while a stack of activations is represented. -/
theorem Moves.frameStep {I : Interpreter R} {held : Prop} {rec : Bool} {s : CallStack}
    (h : Represents rec m s) (hm : Moves I held m m') : FrameStep I.toObjectModel held m m' := by
  cases hm with
  | request r ho ht => exact r.frameStep I h ho ht
  | helper k words hk hframe => exact (hk.transition I hframe).step
  | elsewhere _ hk => exact .kept hk

/-- **A run of moves keeps a stack of activations represented.** -/
theorem Moves.represents {I : Interpreter R} {held : Prop} {rec : Bool} {s : CallStack}
    (h : Represents rec m s) (hm : Relation.ReflTransGen (Moves I held) m m') :
    ∃ s', Represents rec m' s' := by
  induction hm with
  | refl => exact ⟨s, h⟩
  | tail _ hm ih =>
    obtain ⟨_, h'⟩ := ih
    exact (hm.frameStep h').represents h'

/-- A run of transitions is a run of moves. -/
theorem Moves.runCalls {I : Interpreter R} {held : Prop} {calls : List LifecycleCall}
    (h : held → ∀ c ∈ calls, c.Held) :
    Relation.ReflTransGen (Moves I held) m (TieredVm.runCalls I.toObjectModel calls m) := by
  induction calls generalizing m with
  | nil => exact .refl
  | cons c rest ih =>
    have hmove : Moves I held m (Result.state ((Request.transition c).perform I m)) :=
      .request _ id fun hh d hd => by
        cases hd
        exact h hh c List.mem_cons_self
    rw [Request.state_transition] at hmove
    exact .head hmove (ih fun hh d hd => h hh d (List.mem_cons_of_mem _ hd))

end TieredVm
