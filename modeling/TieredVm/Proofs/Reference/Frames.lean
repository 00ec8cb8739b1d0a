import TieredVm.Proofs.Frame.Callers
import TieredVm.Proofs.Reference.Inherited

/-!
# The frames of the reference interpreter's calls

An addition of the reference interpreter calls functions, each under a frame of its own. It enters, moves
and leaves these frames by transitions that are held to the layout of the function, and otherwise its
entries only make texts. So whatever operators are called, the reference interpreter goes by held moves
(`operatesBy`), and a caller of it needs no assumption about what runs behind the operators.

* `heldMove_of_grown`: as long as only texts are made, the interpreter is steady about its functions.
* `goesBy_call`: a call, from the frame it sets aside to the one it leaves.
* `inherited_goesBy`: all else that entries are made of.
* `caller_rejectedUnseen`, `caller_layoutRespected`: what this means for callers.
-/

namespace TieredVm.Reference

open Run (GoesBy)

variable {α : Type} {power : Double → Double → Double} {m m' : Machine State}
  {S : Machine State → Prop}

/-! ## Moves while the heap grows -/

/-- A move of the reference interpreter: held to layouts, with nothing changed about functions. -/
abbrev Held (power : Double → Double → Double) : Machine State → Machine State → Prop :=
  HeldMove (interpreterWith power)

theorem steady_of_grown (hg : m.runtime.Grown m'.runtime) :
    (interpreterWith power).Steady m m' := fun id _ => by
  show (interpreterWith power).declared m'.runtime _ = (interpreterWith power).declared m.runtime _
  unfold ObjectModel.declared
  have hbytecode : (interpreterWith power).bytecode m'.runtime =
      (interpreterWith power).bytecode m.runtime := hg.bytecode?
  rw [hbytecode]

/-- Making texts is a move. -/
theorem heldMove_of_grown (hk : m.FramesKept m') (hg : m.runtime.Grown m'.runtime) :
    Held power m m' := ⟨.elsewhere _ hk, steady_of_grown hg⟩

/-- What leaves the frames alone and lets the heap grow goes by moves. -/
theorem goesBy_steady {p : State → State → α → Prop} {x : Run State α} (hk : x.KeepsFrames)
    (hg : ∀ s₀, Steady s₀ (p s₀) x) : GoesBy S (Held power) x := fun m _ =>
  .single (heldMove_of_grown (hk m) (Finishes.grown (hg m.runtime m (.refl _)).2))

theorem goesBy_onRuntime {p : State → State → α → Prop} {act : Local State α}
    (h : ∀ s₀, LocalSteady s₀ (p s₀) act) : GoesBy S (Held power) (Run.onRuntime act) :=
  goesBy_steady (Run.keepsFrames_onRuntime act) fun s₀ => steady_onRuntime (h s₀)

/-- The steps of entries go by moves. -/
theorem inherited_goesBy (hS : StepsKeep S (Held power)) : Inherited (GoesBy S (Held power)) where
  pure := Run.goesBy_pure
  bind := GoesBy.bind hS
  get_bind _ hf m hm := hf m m hm
  expect r := goesBy_steady (p := fun _ => anything) (Run.keepsFrames_expect r) fun _ =>
    steady_expect fun _ _ _ _ => trivial
  onRuntime h _ _ := goesBy_onRuntime h
  emit e := goesBy_steady (Run.keepsFrames_emit e) fun _ => steady_emit e
  raise := Run.goesBy_raise hS
  tooDeep _ _ := .refl

/-! ## Calls -/

/-- The frames represent a stack, and the frame was set aside. -/
def SetAside (frame : FrameId) (m : Machine State) : Prop := m.Stacked ∧ frame < m.freshFrame

theorem stepsKeep_setAside (frame : FrameId) : StepsKeep (SetAside frame) (Held power) where
  keep hm h := by
    obtain ⟨⟨rec, s, hs⟩, hfresh⟩ := hm
    exact ⟨(stepsKeep_heldMove _).keep ⟨rec, s, hs⟩ h,
      Nat.lt_of_lt_of_le hfresh (h.1.frameStep hs).freshFrame_le⟩
  quiet h hr := (stepsKeep_heldMove _).quiet h hr

/-- A transition of a frame that was set aside, held to the layout of its function. -/
theorem goesBy_transition {frame : FrameId} {c : LifecycleCall} (hc : c.Held)
    (hframe : c.frame = .owned frame) :
    GoesBy (SetAside frame) (Held power) (c.performOn objectModel (some frame)) := by
  rintro m ⟨⟨rec, s, hs⟩, hfresh⟩
  have hmove : Held power m (Result.state (c.perform objectModel m)) :=
    HeldMove.transition (interpreterWith power) hs hc
  have hfind : c.frame.find m = some frame := by
    rw [hframe]
    exact if_pos hfresh
  rw [c.perform_apply, hfind] at hmove
  exact .single hmove

/-- **A call goes by held moves**, from the frame it sets aside to the one it leaves. -/
theorem goesBy_call {plus : Value → Value → Run State Value}
    (hplus : ∀ x y, GoesBy Machine.Stacked (Held power) (plus x y)) (function : Value) :
    GoesBy Machine.Stacked (Held power) (call plus function).run := by
  have hS : StepsKeep Machine.Stacked (Held power) := stepsKeep_heldMove _
  have hconstant : ∀ frame index, index = 0 ∨ index = 1 →
      GoesBy (SetAside frame) (Held power) (objectModel.constantOf function index) :=
    fun frame index hindex => goesBy_steady
      (Run.KeepsFrames.bind (Run.keepsFrames_codeOf _ _) fun _ => Run.keepsFrames_expect _)
      fun _ => steady_constantOf function hindex
  -- Nested calls set frames aside and take none back, so each transition still finds the frame.
  have hbody : ∀ frame, GoesBy (SetAside frame) (Held power) (do
      objectModel.enter (some frame) function 0 0
      objectModel.setPc (some frame) 0
      let a ← objectModel.constantOf function 0
      let b ← objectModel.constantOf function 1
      let sum ← plus a b
      let lines := (← objectModel.trace).map TraceEntry.report
      Run.onRuntime (modify fun s => { s with traces := s.traces ++ [lines] })
      Chain.exit (some frame)
      return sum : Run State Value) := fun frame => by
    have hset : StepsKeep (SetAside frame) (Held power) := stepsKeep_setAside frame
    refine GoesBy.bind hset (goesBy_transition (c := .enter true (.owned frame) function 0 0) rfl rfl)
      fun _ => ?_
    refine GoesBy.bind hset (goesBy_transition (c := .setHeldPc (.owned frame) 0) trivial rfl)
      fun _ => ?_
    refine GoesBy.bind hset (hconstant frame 0 (.inl rfl)) fun a => ?_
    refine GoesBy.bind hset (hconstant frame 1 (.inr rfl)) fun b => ?_
    refine GoesBy.bind hset ((hplus a b).weaken fun _ hm => hm.1) fun sum => ?_
    refine GoesBy.bind hset ?_ fun entries => ?_
    · exact goesBy_steady (Run.keepsFrames_get.bind fun _ => Run.keepsFrames_expect _) fun _ =>
        steady_trace
    refine GoesBy.bind hset (goesBy_onRuntime fun s₀ => localSteady_note (fun _ => rfl) fun _ => rfl)
      fun _ => ?_
    exact GoesBy.bind hset (goesBy_transition (c := .exit (.owned frame)) trivial rfl) fun _ =>
      Run.goesBy_pure sum
  have htake : GoesBy Machine.Stacked (Held power)
      (Machine.takePending : Run State (Option Exception)) :=
    Run.goesBy_quiet hS (fun _ => ⟨rfl, rfl, rfl, Nat.le_refl _, rfl, fun _ => rfl⟩) fun _ => rfl
  refine (inherited_goesBy hS).call htake fun m hm => ?_
  let fresh : Machine State := { m with freshFrame := m.freshFrame + 1 }
  have hnew : Held power m fresh :=
    ⟨.request .newFrame id fun _ _ h => (by cases h), fun _ _ => rfl⟩
  rw [Run.bind_of_ok (Machine.newFrame_apply m)]
  exact .head hnew (hbody m.freshFrame fresh ⟨hS.keep hm hnew, Nat.lt_succ_self _⟩)

/-! ## Operators and callers -/

/-- **The reference interpreter goes by held moves**, whatever operators are called. -/
theorem operatesBy (power : Double → Double → Double) :
    (interpreterWith power).OperatesBy Machine.Stacked (Held power) := by
  have hQ := inherited_goesBy (stepsKeep_heldMove (interpreterWith power))
  constructor
  case binary => exact fun op x y => hQ.entry (fun _ => goesBy_call) power op _
  case unary => exact fun op x => hQ.unary op _
  case truth =>
    exact fun x => goesBy_steady (Run.keepsFrames_onRuntime _) fun _ => steady_truth x
  case typeOf =>
    exact fun x => goesBy_steady (Run.keepsFrames_onRuntime _) fun _ => steady_typeOf power x

section

variable {start : Machine State} (c : Caller State)

/-- Whatever a caller of the reference interpreter runs into, rejected calls change nothing. -/
theorem caller_rejectedUnseen (hrest : start.AtRest) (hoff : start.journal = none)
    {r : Request State} (hmr : (m, r) ∈ c.history (interpreterWith power) start) (hr : r.OnFrames) :
    RejectedUnseen (interpreterWith power) m r := by
  have hmoves := (operatesBy power).mono fun _ _ h => h.1.of_held
  exact c.rejectedUnseen hmoves hrest hoff hmr hr fun _ _ _ v s => ⟨v, _, rfl⟩

/-- Operators of the reference interpreter may be called at will: they respect all layouts. -/
theorem caller_layoutRespected (hrest : start.AtRest)
    (hc : c.Along (interpreterWith power) (fun m r => (∀ t, r = .transition t → t.Held) ∧
      (¬ r.IsOperator → (interpreterWith power).Steady m
        (Result.state (r.perform (interpreterWith power) m)))) (fun _ _ => False) start) :
    LayoutRespected (interpreterWith power) (Result.state (c.run (interpreterWith power) start)) ∧
      ∀ x ∈ c.history (interpreterWith power) start, LayoutRespected (interpreterWith power) x.1 :=
  c.layoutRespected (operatesBy power) hrest hc

end

end TieredVm.Reference
