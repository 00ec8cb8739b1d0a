import Mathlib.Data.List.Chain
import TieredVm.Proofs.Frame.Refinement
import TieredVm.Proofs.Interpreter.Functions

/-!
# The lifecycle of a frame

A frame is entered, may get locals, records offsets and is left. `LifecycleCall` is one of these
calls, made on the chain itself or held to the layout of the frame's function, and a run is a list of
them; the run goes on after a violation. `history` lists the calls that took hold, in order, each with
its frame.

* `Activations`: one activation after another, the last perhaps unfinished, with a condition on what
  stands between entering and leaving. `Documented` allows locals once, before any offset;
  `Enforced` allows locals and offsets in any order.
* `LifecycleCall.step`: a call is refused, or it is one that the open frames allow and takes hold.
* `lifecycle_enforced`: the calls that take hold on a frame are always `Enforced`, every other call is
  refused, and they are `Documented` exactly when locals were only ever attached right after entering:
  the chain itself does not see the difference.
-/

namespace TieredVm

variable {R : Type} {recording : Bool} {m : Machine R} {s : CallStack}

/-! ## Calls held to a layout -/

namespace ObjectModel

variable (O : ObjectModel R)

/-- A call held to a layout is the call on the chain, or it is refused. -/
theorem enter_cases (frame : Option FrameId) (function : Value) (args : Address) (argCount : Nat) :
    O.enter frame function args argCount m = Chain.enter frame function args argCount m ∨
      Refused m (O.enter frame function args argCount m) := by
  unfold enter
  rw [Run.bind_apply, codeOf?_apply]
  cases function.asPointer? (.heap .object) with
  | error v => exact .inr ⟨v, rfl⟩
  | ok p =>
    rw [Except.map, Run.expect_ok, Run.pure_apply]
    cases p.bind (O.bytecode m.runtime) with
    | none => exact .inl rfl
    | some code =>
      simp only
      split
      · exact .inr ⟨_, rfl⟩
      · exact .inl rfl

theorem attachLocals_cases (frame : Option FrameId) (locals : Address) (count : Nat) :
    O.attachLocals frame locals count m = Chain.attachLocals frame locals count m ∨
      Refused m (O.attachLocals frame locals count m) := by
  unfold attachLocals
  cases frame with
  | none => exact .inr ⟨_, rfl⟩
  | some id =>
    simp only
    rw [Run.bind_of_ok (Run.get_apply m), Run.bind_apply, codeOf?_apply]
    cases (m.frames.get id).function.asPointer? (.heap .object) with
    | error v => exact .inr ⟨v, rfl⟩
    | ok p =>
      rw [Except.map, Run.expect_ok, Run.pure_apply]
      cases p.bind (O.bytecode m.runtime) with
      | none => exact .inl rfl
      | some code =>
        simp only
        split
        · exact .inr ⟨_, rfl⟩
        · exact .inl rfl

/-- Looking for the code of a function object changes nothing. -/
theorem codeOf_cases (function : Value) :
    (∃ code, O.codeOf function m = .ok code m) ∨ ∃ v, O.codeOf function m = Run.violate v m := by
  unfold codeOf objectOf
  rw [Run.bind_apply, Run.bind_apply]
  cases function.asPointer? (.heap .object) with
  | error v => exact .inr ⟨v, rfl⟩
  | ok p =>
    rw [Run.expect_ok, Run.pure_apply]
    cases p with
    | none => exact .inr ⟨_, rfl⟩
    | some p =>
      simp only [Run.pure_apply, Run.bind_of_ok (Run.get_apply m)]
      cases O.bytecode m.runtime p with
      | some code => exact .inl ⟨code, rfl⟩
      | none =>
        refine .inr ?_
        simp only
        rw [Run.bind_apply]
        cases function.kind <;> exact ⟨_, rfl⟩

theorem setPc_cases (frame : Option FrameId) (pc : Nat) :
    (∃ code, O.setPc frame pc m = Chain.setPc frame code pc m) ∨
      Refused m (O.setPc frame pc m) := by
  unfold setPc
  cases frame with
  | none => exact .inr ⟨_, rfl⟩
  | some id =>
    simp only
    rw [Run.bind_of_ok (Run.get_apply m), Run.bind_apply]
    rcases O.codeOf_cases (m := m) (m.frames.get id).function with ⟨code, hc⟩ | ⟨v, hv⟩
    · exact .inl ⟨code, by rw [hc]⟩
    · exact .inr ⟨v, by rw [hv]; rfl⟩

end ObjectModel

/-! ## Activations -/

/-- What a call does in the life of a frame. -/
inductive Stage where
  | enter | attachLocals | setPc | exit
deriving DecidableEq, Repr

/-- One activation after another, each meeting a condition between entering and leaving. The last one
may be unfinished. -/
inductive Activations (between : List Stage → Prop) : List Stage → Prop where
  | nil : Activations between []
  | unfinished {b : List Stage} : between b → Activations between (.enter :: b)
  | finished {b rest : List Stage} : between b → Activations between rest →
      Activations between (.enter :: b ++ .exit :: rest)

/-- Locals and offsets, in any order. -/
def Loose (b : List Stage) : Prop := ∀ x ∈ b, x = .attachLocals ∨ x = .setPc

/-- Locals once or not at all, and then offsets. -/
def Strict (b : List Stage) : Prop :=
  ∃ (attached : Bool) (moves : Nat),
    b = (if attached then [.attachLocals] else []) ++ List.replicate moves .setPc

/-- The order that is documented. -/
abbrev Documented : List Stage → Prop := Activations Strict

/-- The order that the chain holds its callers to. -/
abbrev Enforced : List Stage → Prop := Activations Loose

/-- Locals are attached right after entering only. -/
def Prompt (l : List Stage) : Prop := l.IsChain fun a b => b = .attachLocals → a = .enter

theorem Strict.loose {b : List Stage} (h : Strict b) : Loose b := by
  obtain ⟨attached, moves, rfl⟩ := h
  intro x hx
  rcases List.mem_append.mp hx with hx | hx
  · cases attached <;> simp_all
  · exact .inr (List.eq_of_mem_replicate hx)

/-- After anything but entering, only offsets are prompt. -/
theorem prompt_iff_replicate {b : List Stage} (hb : Loose b) {x : Stage} (hx : x ≠ .enter) :
    Prompt (x :: b) ↔ b = List.replicate b.length .setPc := by
  induction b generalizing x with
  | nil => simp [Prompt]
  | cons y b ih =>
    have hy := hb y List.mem_cons_self
    have hy' : y ≠ .enter := by rintro rfl; simp at hy
    have hloose : Loose b := fun z hz => hb z (List.mem_cons_of_mem _ hz)
    have ih := ih hloose hy'
    unfold Prompt at ih ⊢
    rw [List.isChain_cons_cons, ih, List.length_cons, List.replicate_succ, List.cons.injEq]
    refine and_congr ⟨fun h => ?_, fun h => ?_⟩ Iff.rfl
    · exact hy.resolve_left fun he => hx (h he)
    · rintro rfl; exact absurd h (by simp)

/-- Between entering and leaving, the documented order is the prompt one. -/
theorem prompt_enter_iff {b : List Stage} (hb : Loose b) : Prompt (.enter :: b) ↔ Strict b := by
  constructor
  · intro h
    cases b with
    | nil => exact ⟨false, 0, rfl⟩
    | cons y b =>
      have hloose : Loose b := fun z hz => hb z (List.mem_cons_of_mem _ hz)
      unfold Prompt at h
      rw [List.isChain_cons_cons] at h
      rcases hb y List.mem_cons_self with rfl | rfl
      · have hr := (prompt_iff_replicate hloose (by simp)).mp h.2
        exact ⟨true, b.length, congrArg (Stage.attachLocals :: ·) hr⟩
      · have hr := (prompt_iff_replicate hloose (by simp)).mp h.2
        exact ⟨false, b.length + 1, congrArg (Stage.setPc :: ·) hr⟩
  · rintro ⟨attached, moves, rfl⟩
    have hr : ∀ n, Loose (List.replicate n .setPc) := fun n x hx =>
      .inr (List.eq_of_mem_replicate hx)
    cases attached with
    | true =>
      show List.IsChain _ (Stage.enter :: .attachLocals :: List.replicate moves .setPc)
      rw [List.isChain_cons_cons]
      exact ⟨fun _ => rfl, (prompt_iff_replicate (hr moves) (by simp)).mpr (by simp)⟩
    | false =>
      cases moves with
      | zero => exact List.isChain_singleton _
      | succ n =>
        show List.IsChain _ (Stage.enter :: .setPc :: List.replicate n .setPc)
        rw [List.isChain_cons_cons]
        exact ⟨by simp, (prompt_iff_replicate (hr n) (by simp)).mpr (by simp)⟩

/-- What follows an activation is prompt by itself: it enters first. -/
theorem prompt_exit_iff {between : List Stage → Prop} {rest : List Stage}
    (h : Activations between rest) : Prompt (.exit :: rest) ↔ Prompt rest := by
  unfold Prompt
  cases h with
  | nil => simp
  | unfinished hb => rw [List.isChain_cons_cons]; simp
  | finished hb hr => rw [List.cons_append, List.isChain_cons_cons]; simp

theorem prompt_finished_iff {between : List Stage → Prop} {b rest : List Stage}
    (h : Activations between rest) :
    Prompt (.enter :: b ++ .exit :: rest) ↔ Prompt (.enter :: b) ∧ Prompt rest := by
  rw [← prompt_exit_iff h]
  unfold Prompt
  rw [List.isChain_append]
  simp

/-- **The documented order is the enforced one with locals attached right after entering.** -/
theorem Enforced.documented_iff {l : List Stage} (h : Enforced l) : Documented l ↔ Prompt l := by
  constructor
  · intro hd
    clear h
    induction hd with
    | nil => exact List.isChain_nil
    | unfinished hb => exact (prompt_enter_iff hb.loose).mpr hb
    | finished hb hr ih => exact (prompt_finished_iff hr).mpr ⟨(prompt_enter_iff hb.loose).mpr hb, ih⟩
  · intro hp
    induction h with
    | nil => exact .nil
    | unfinished hb => exact .unfinished ((prompt_enter_iff hb).mp hp)
    | finished hb hr ih =>
      obtain ⟨hp, hrest⟩ := (prompt_finished_iff hr).mp hp
      exact .finished ((prompt_enter_iff hb).mp hp) (ih hrest)

/-- What may follow for a frame that is active or not. -/
def Orderly : (active : Bool) → List Stage → Bool
  | _, [] => true
  | false, .enter :: l => Orderly true l
  | true, .attachLocals :: l => Orderly true l
  | true, .setPc :: l => Orderly true l
  | true, .exit :: l => Orderly false l
  | _, _ :: _ => false

theorem enforced_of_orderly (l : List Stage) :
    (Orderly false l = true → Enforced l) ∧
      ∀ b, Loose b → Orderly true l = true → Enforced (.enter :: b ++ l) := by
  induction l with
  | nil => exact ⟨fun _ => .nil, fun b hb _ => by simpa using .unfinished hb⟩
  | cons x l ih =>
    have snoc : ∀ b, Loose b → (x = .attachLocals ∨ x = .setPc) → Loose (b ++ [x]) := by
      intro b hb hx y hy
      rcases List.mem_append.mp hy with hy | hy
      · exact hb y hy
      · exact List.mem_singleton.mp hy ▸ hx
    constructor
    · intro h
      cases x with
      | enter => exact ih.2 [] (fun _ hx => absurd hx List.not_mem_nil) h
      | _ => exact absurd h (by simp [Orderly])
    · intro b hb h
      cases x with
      | enter => exact absurd h (by simp [Orderly])
      | attachLocals => simpa using ih.2 _ (snoc b hb (.inl rfl)) h
      | setPc => simpa using ih.2 _ (snoc b hb (.inr rfl)) h
      | exit => exact .finished hb (ih.1 h)

/-! ## Runs -/

/-- A call of the lifecycle. One that is held to a layout goes through the checks that the function of
the frame asks for. -/
inductive LifecycleCall where
  | enter (held : Bool) (frame : FrameRef) (function : Value) (args : Address) (argCount : Nat)
  | attachLocals (held : Bool) (frame : FrameRef) (locals : Address) (count : Nat)
  /-- The caller says which code the frame executes. -/
  | setPc (frame : FrameRef) (code : Bytecode) (pc : Nat)
  /-- The code is that of the frame's function. -/
  | setHeldPc (frame : FrameRef) (pc : Nat)
  | exit (frame : FrameRef)

namespace LifecycleCall

/-- What the call is in the life of its frame. -/
def stage : LifecycleCall → Stage
  | enter .. => .enter
  | attachLocals .. => .attachLocals
  | setPc .. | setHeldPc .. => .setPc
  | exit _ => .exit

/-- The frame the call is made on. -/
def frame : LifecycleCall → FrameRef
  | enter _ f _ _ _ | attachLocals _ f _ _ | setPc f _ _ | setHeldPc f _ | exit f => f

/-- Performs the call on the frame that its reference leads to. -/
def performOn (O : ObjectModel R) (id : Option FrameId) : LifecycleCall → Run R Unit
  | enter held _ function args argCount =>
    if held then O.enter id function args argCount else Chain.enter id function args argCount
  | attachLocals held _ locals count =>
    if held then O.attachLocals id locals count else Chain.attachLocals id locals count
  | setPc _ code pc => Chain.setPc id code pc
  | setHeldPc _ pc => O.setPc id pc
  | exit _ => Chain.exit id

def perform (O : ObjectModel R) (c : LifecycleCall) : Run R Unit := do
  c.performOn O (c.frame.find (← get))

theorem perform_apply (O : ObjectModel R) (c : LifecycleCall) (m : Machine R) :
    c.perform O m = c.performOn O (c.frame.find m) m := Run.bind_of_ok (Run.get_apply m) _

/-- Is the call made on the chain itself, with an offset into the code it names? -/
def Unchecked : LifecycleCall → Prop
  | enter held _ _ _ _ | attachLocals held _ _ _ => held = false
  | setPc _ code pc => code.containsPc pc = true
  | setHeldPc _ _ => False
  | exit _ => True

end LifecycleCall

/-- A call takes hold when it answers, or when it changes the chain before it panics. -/
def TookHold (before : Machine R) : EStateM.Result Stop (Machine R) Unit → Bool
  | .ok _ _ => true
  | .error _ after => decide (after.chain ≠ before.chain)

/-- The machine that a run leaves. A violation ends the call that met it, and the run goes on. -/
def runCalls (O : ObjectModel R) : List LifecycleCall → Machine R → Machine R
  | [], m => m
  | c :: rest, m => runCalls O rest (Result.state (c.perform O m))

/-- The calls of a run that took hold, each with its frame. -/
def history (O : ObjectModel R) : List LifecycleCall → Machine R → List (FrameId × Stage)
  | [], _ => []
  | c :: rest, m =>
    let r := c.perform O m
    let held := if TookHold m r then (c.frame.find m).toList.map fun id => (id, c.stage) else []
    held ++ history O rest (Result.state r)

/-- What happened to one frame. -/
def onFrame (id : FrameId) (h : List (FrameId × Stage)) : List Stage :=
  (h.filter fun x => x.1 == id).map Prod.snd

/-- The frames entered and not left, innermost first, after a further call took hold. -/
def nowOpen (frames : List FrameId) : FrameId × Stage → List FrameId
  | (id, .enter) => id :: frames
  | (_, .exit) => frames.tail
  | (_, .attachLocals) | (_, .setPc) => frames

/-- May a call be made on a frame, with these frames open? -/
def Stage.Allowed (frames : List FrameId) (id : FrameId) : Stage → Prop
  | .enter => id ∉ frames
  | .attachLocals | .setPc => id ∈ frames
  | .exit => frames.head? = some id

/-! ## One call -/

/-- What comes of a call while a machine represents a stack: it is refused, or it is allowed and
takes hold. -/
inductive StepEnds (recording : Bool) (m : Machine R) (s : CallStack) (frame : Option FrameId)
    (stage : Stage) (r : EStateM.Result Stop (Machine R) Unit) : Prop where
  | refused (h : Refused m r)
  | held (id : FrameId) (hid : frame = some id) (allowed : stage.Allowed s.frames id)
      (tookHold : TookHold m r = true) (s' : CallStack)
      (represents : Represents recording (Result.state r) s')
      (frames : s'.frames = nowOpen s.frames (id, stage))

theorem Refused.not_tookHold {r : EStateM.Result Stop (Machine R) Unit} (h : Refused m r) :
    TookHold m r = false := by
  obtain ⟨v, rfl⟩ := h
  simp [TookHold, Run.violate_apply, Machine.noted]

theorem Refused.represents {r : EStateM.Result Stop (Machine R) Unit} (h : Refused m r)
    (hs : Represents recording m s) : Represents recording (Result.state r) s := by
  obtain ⟨v, rfl⟩ := h
  exact hs.noted _

theorem Machine.chain_entered_ne (id : FrameId) (function : Value) (args : Address) (argCount : Nat) :
    (m.entered id function args argCount).chain ≠ m.chain := fun h =>
  Nat.succ_ne_self m.chain.depth (congrArg Chain.depth h)

/-- Entering an idle frame takes hold, though its function may turn out not to be one that can be shown:
the frame is linked by then. -/
theorem Chain.enter_takesHold {id : FrameId} (hs : (m.frames.get id).state ≠ .active)
    (function : Value) (args : Address) (argCount : Nat) :
    TookHold m (enter (some id) function args argCount m) = true ∧
      ∃ line, Result.state (enter (some id) function args argCount m) =
        (m.entered id function args argCount).noted line := by
  by_cases hf : m.journal.isSome = true → function.dangling = false
  · obtain ⟨line, hl⟩ := enter_shown hs hf args argCount
    rw [hl]
    exact ⟨rfl, line, rfl⟩
  · rw [Classical.not_imp, Bool.not_eq_false] at hf
    obtain ⟨t, hl⟩ := enter_dangling hs hf.2 hf.1 args argCount
    rw [hl]
    exact ⟨decide_eq_true (Machine.chain_entered_ne id function args argCount), _, rfl⟩

namespace Represents

theorem enter_ends (h : Represents recording m s) {frame : Option FrameId}
    (hfresh : ∀ id, frame = some id → id < s.freshFrame) (function : Value) (args : Address)
    (argCount : Nat) :
    (StepEnds recording m s frame .enter (Chain.enter frame function args argCount m)) ∧
      (Refused m (Chain.enter frame function args argCount m) →
        ∀ id, frame = some id → ¬ Stage.enter.Allowed s.frames id) := by
  rcases h.enterable frame with ⟨id, rfl, hs, hn⟩ | hr
  · have hrep := h.entered hn (hfresh id rfl) function args argCount
    obtain ⟨htook, line, hstate⟩ := Chain.enter_takesHold hs function args argCount
    refine ⟨.held id rfl hn htook _ (hstate ▸ hrep.noted line) rfl, fun hr => ?_⟩
    rw [hr.not_tookHold] at htook
    cases htook
  · refine ⟨.refused (hr ..).1, fun _ id hid hn => ?_⟩
    subst hid
    exact absurd (CallStack.enter_of_not_mem hn function args argCount) (by simp [(hr ..).2])

theorem attachLocals_ends (h : Represents recording m s) (frame : Option FrameId)
    (locals : Address) (count : Nat) :
    (StepEnds recording m s frame .attachLocals (Chain.attachLocals frame locals count m)) ∧
      (Refused m (Chain.attachLocals frame locals count m) →
        ∀ id, frame = some id → ¬ Stage.attachLocals.Allowed s.frames id) := by
  rcases h.resolve frame with ⟨hl, -⟩ | ⟨a, ha, rfl, -, hs⟩
  · refine ⟨.refused (Chain.attachLocals_refused hl ..), fun _ id hid hin => hl ⟨id, hid, ?_⟩⟩
    exact (h.active_iff id).mpr hin
  · rw [Chain.attachLocals_linked hs]
    refine ⟨.held a.frame rfl (CallStack.mem_frames.mpr ⟨a, ha, rfl⟩) rfl _
      (h.attached ha locals count) (s.frames_update _ fun _ => rfl), fun hr => ?_⟩
    exact absurd rfl hr.not_ok

theorem setPc_ends (h : Represents recording m s) (frame : Option FrameId) (code : Bytecode)
    (pc : Nat) :
    (StepEnds recording m s frame .setPc (Chain.setPc frame code pc m)) ∧
      (Refused m (Chain.setPc frame code pc m) → code.containsPc pc = true →
        ∀ id, frame = some id → ¬ Stage.setPc.Allowed s.frames id) := by
  by_cases hpc : code.containsPc pc = true
  · rcases h.resolve frame with ⟨hl, -⟩ | ⟨a, ha, rfl, -, hs⟩
    · refine ⟨.refused (Chain.setPc_refused fun h' => hl h'.1), fun _ _ id hid hin => ?_⟩
      exact hl ⟨id, hid, (h.active_iff id).mpr hin⟩
    · rw [Chain.setPc_inside hs hpc]
      refine ⟨.held a.frame rfl (CallStack.mem_frames.mpr ⟨a, ha, rfl⟩) rfl _ (h.moved ha pc)
        (s.frames_update _ fun _ => rfl), fun hr => ?_⟩
      exact absurd rfl hr.not_ok
  · exact ⟨.refused (Chain.setPc_refused fun h' => hpc h'.2), fun _ h' => absurd h' hpc⟩

theorem exit_ends (h : Represents recording m s) (frame : Option FrameId) :
    (StepEnds recording m s frame .exit (Chain.exit frame m)) ∧
      (Refused m (Chain.exit frame m) →
        ∀ id, frame = some id → ¬ Stage.exit.Allowed s.frames id) := by
  rcases h.leavable frame with ⟨a, rest, hl, rfl, hc, hs⟩ | ⟨hr, hn⟩
  · have hf : s.frames = a.frame :: rest.map Activation.frame := by
      rw [CallStack.frames, hl, List.map_cons]
    rw [Chain.exit_innermost hs hc]
    refine ⟨.held a.frame rfl (by rw [Stage.Allowed, hf]; rfl) rfl _ ((h.left hl).noted _) ?_,
      fun hr => absurd rfl hr.not_ok⟩
    rw [nowOpen, hf]
    rfl
  · refine ⟨.refused hr, fun _ id hid htop => ?_⟩
    obtain ⟨a, rest, hl, rfl⟩ := CallStack.top_eq_some htop
    rw [hid, CallStack.exit_of_top hl] at hn
    exact absurd hn (by simp)

end Represents

theorem LifecycleCall.performOn_ends (O : ObjectModel R) (c : LifecycleCall)
    (h : Represents recording m s) {frame : Option FrameId}
    (hfresh : ∀ id, frame = some id → id < s.freshFrame) :
    StepEnds recording m s frame c.stage (c.performOn O frame m) ∧
      (c.Unchecked → Refused m (c.performOn O frame m) →
        ∀ id, frame = some id → ¬ c.stage.Allowed s.frames id) := by
  cases c with
  | enter held fr function args argCount =>
    have hends := h.enter_ends hfresh function args argCount
    cases held with
    | false => exact ⟨hends.1, fun _ => hends.2⟩
    | true =>
      refine ⟨?_, fun hu => absurd hu (by simp [Unchecked])⟩
      show StepEnds recording m s frame .enter (O.enter frame function args argCount m)
      rcases O.enter_cases (m := m) frame function args argCount with he | hr
      · rw [he]
        exact hends.1
      · exact .refused hr
  | attachLocals held fr locals count =>
    have hends := h.attachLocals_ends frame locals count
    cases held with
    | false => exact ⟨hends.1, fun _ => hends.2⟩
    | true =>
      refine ⟨?_, fun hu => absurd hu (by simp [Unchecked])⟩
      show StepEnds recording m s frame .attachLocals (O.attachLocals frame locals count m)
      rcases O.attachLocals_cases (m := m) frame locals count with he | hr
      · rw [he]
        exact hends.1
      · exact .refused hr
  | setPc fr code pc =>
    have hends := h.setPc_ends frame code pc
    exact ⟨hends.1, fun hu hr => hends.2 hr hu⟩
  | setHeldPc fr pc =>
    refine ⟨?_, fun hu => absurd hu (by simp [Unchecked])⟩
    show StepEnds recording m s frame .setPc (O.setPc frame pc m)
    rcases O.setPc_cases (m := m) frame pc with ⟨code, he⟩ | hr
    · rw [he]
      exact (h.setPc_ends frame code pc).1
    · exact .refused hr
  | exit fr => exact ⟨(h.exit_ends frame).1, fun _ => (h.exit_ends frame).2⟩

/-- **A call is refused, or it is allowed and takes hold.** On the chain itself, only what is not
allowed is refused. -/
theorem LifecycleCall.step (O : ObjectModel R) (c : LifecycleCall) (h : Represents recording m s) :
    StepEnds recording m s (c.frame.find m) c.stage (c.perform O m) ∧
      (c.Unchecked → Refused m (c.perform O m) →
        ∀ id, c.frame.find m = some id → ¬ c.stage.Allowed s.frames id) := by
  rw [perform_apply]
  exact c.performOn_ends O h fun id hid => FrameRef.findOn_lt h ((h.find c.frame).symm.trans hid)

/-! ## Runs -/

/-- What the calls that took hold leave open. -/
def openAfter (h : List (FrameId × Stage)) (frames : List FrameId) : List FrameId :=
  h.foldl nowOpen frames

theorem onFrame_append (id : FrameId) (h₁ h₂ : List (FrameId × Stage)) :
    onFrame id (h₁ ++ h₂) = onFrame id h₁ ++ onFrame id h₂ := by
  simp [onFrame]

theorem onFrame_singleton (id : FrameId) (x : FrameId × Stage) :
    onFrame id [x] = if x.1 = id then [x.2] else [] := by
  by_cases h : x.1 = id <;> simp [onFrame, h]

/-- A call that is allowed and takes hold on one frame is orderly for every frame. -/
theorem orderly_of_allowed {frames : List FrameId} (honce : frames.Nodup) {id : FrameId}
    {stage : Stage} (ha : stage.Allowed frames id) (j : FrameId) {l : List Stage}
    (hl : Orderly (decide (j ∈ nowOpen frames (id, stage))) l = true) :
    Orderly (decide (j ∈ frames)) (onFrame j [(id, stage)] ++ l) = true := by
  rw [onFrame_singleton]
  by_cases hj : id = j
  · subst hj
    rw [if_pos rfl]
    cases stage with
    | enter =>
      have ha : id ∉ frames := ha
      simpa [nowOpen, Orderly, ha] using hl
    | attachLocals =>
      have ha : id ∈ frames := ha
      simpa [nowOpen, Orderly, ha] using hl
    | setPc =>
      have ha : id ∈ frames := ha
      simpa [nowOpen, Orderly, ha] using hl
    | exit =>
      obtain ⟨rest, rfl⟩ : ∃ rest, frames = id :: rest := List.head?_eq_some_iff.mp ha
      have hid : id ∉ rest := (List.nodup_cons.mp honce).1
      simpa [nowOpen, Orderly, hid] using hl
  · have hmem : j ∈ frames ↔ j ∈ nowOpen frames (id, stage) := by
      cases stage with
      | enter => simp [nowOpen, Ne.symm hj]
      | attachLocals => rfl
      | setPc => rfl
      | exit =>
        obtain ⟨rest, rfl⟩ : ∃ rest, frames = id :: rest := List.head?_eq_some_iff.mp ha
        simp [nowOpen, Ne.symm hj]
    rw [if_neg hj, List.nil_append, decide_eq_decide.mpr hmem]
    exact hl

/-- **What a run leaves open are the frames its history leaves open, and every frame's history is
orderly.** -/
theorem run_orderly (O : ObjectModel R) (calls : List LifecycleCall) :
    ∀ {m : Machine R} {s : CallStack}, Represents recording m s →
      (∃ s', Represents recording (runCalls O calls m) s' ∧
        s'.frames = openAfter (history O calls m) s.frames) ∧
      ∀ j, Orderly (decide (j ∈ s.frames)) (onFrame j (history O calls m)) = true := by
  induction calls with
  | nil => exact fun h => ⟨⟨_, h, rfl⟩, fun j => rfl⟩
  | cons c rest ih =>
    intro m s h
    rcases (c.step O h).1 with hr | ⟨id, hid, ha, ht, s', hs', hf⟩
    · have ih := ih (hr.represents h)
      rw [runCalls, history, hr.not_tookHold]
      simpa using ih
    · obtain ⟨⟨s'', hrep, hopen⟩, horderly⟩ := ih hs'
      rw [runCalls, history, ht, hid]
      simp only [if_true, Option.toList_some, List.map_cons, List.map_nil]
      refine ⟨⟨s'', hrep, ?_⟩, fun j => ?_⟩
      · rw [hopen, hf]
        rfl
      · rw [onFrame_append]
        have hj := horderly j
        rw [hf] at hj
        exact orderly_of_allowed h.once ha j hj

/-- What the chain holds the callers of the lifecycle to, along a run. -/
structure LifecycleKept (O : ObjectModel R) (start : Machine R) (calls : List LifecycleCall) :
    Prop where
  /-- What takes hold on a frame is one activation after another, with locals and offsets in any order
  within. -/
  enforced : ∀ id, Enforced (onFrame id (history O calls start))
  /-- It is in the documented order iff locals were attached right after entering only. -/
  documented_iff : ∀ id, Documented (onFrame id (history O calls start)) ↔
    Prompt (onFrame id (history O calls start))
  /-- A call on no frame, or on one for which the open frames do not allow it, is refused. -/
  refused : ∀ c : LifecycleCall, (¬ ∃ id, c.frame.find (runCalls O calls start) = some id ∧
      c.stage.Allowed (openAfter (history O calls start) []) id) →
    Refused (runCalls O calls start) (c.perform O (runCalls O calls start))
  /-- On the chain itself, every other call takes hold. -/
  tookHold : ∀ c : LifecycleCall, c.Unchecked → (∃ id,
      c.frame.find (runCalls O calls start) = some id ∧
        c.stage.Allowed (openAfter (history O calls start) []) id) →
    TookHold (runCalls O calls start) (c.perform O (runCalls O calls start)) = true

/-- **The lifecycle of frames is enforced, but for the time at which locals are attached.** -/
theorem lifecycle_enforced (O : ObjectModel R) (start : Machine R) (hrest : start.AtRest)
    (calls : List LifecycleCall) : LifecycleKept O start calls := by
  have hstart := hrest.represents
  obtain ⟨⟨s, hs, hopen⟩, horderly⟩ := run_orderly O calls hstart
  have hopen : s.frames = openAfter (history O calls start) [] := hopen
  have henforced : ∀ id, Enforced (onFrame id (history O calls start)) := fun id =>
    (enforced_of_orderly _).1 (by simpa [CallStack.frames] using horderly id)
  constructor
  case enforced => exact henforced
  case documented_iff => exact fun id => (henforced id).documented_iff
  case refused =>
    intro c hc
    rw [← hopen] at hc
    rcases (c.step O hs).1 with hr | ⟨id, hid, ha, -, -, -, -⟩
    · exact hr
    · exact absurd ⟨id, hid, ha⟩ hc
  case tookHold =>
    rintro c hu ⟨id, hid, ha⟩
    rw [← hopen] at ha
    rcases (c.step O hs).1 with hr | ⟨_, _, _, ht, -, -, -⟩
    · exact absurd ha ((c.step O hs).2 hu hr id hid)
    · exact ht

/-- A heap without functions. -/
def ObjectModel.bare : ObjectModel Unit where
  bytecode _ _ := none
  captures _ _ := none
  duplicate := pure

/-- Two frames, left out of order and twice, and the locals of the second one attached again after an
offset. -/
def LifecycleCall.lateLocals : List LifecycleCall :=
  [.enter false (.owned 1) .null 8 1, .enter true (.owned 2) .undefined 8 0, .exit (.owned 1),
    .attachLocals true .current 16 2, .setPc (.owned 2) { codeLength := 4 } 4,
    .attachLocals false (.owned 2) 32 1, .setPc (.owned 2) { codeLength := 4 } 5,
    .exit .current, .exit (.owned 2), .exit .current]

/-- Locals that are attached late take hold, so the documented order is not enforced. -/
theorem lifecycle_enforced_late_locals :
    ({ runtime := (), freshFrame := 3 } : Machine Unit).AtRest ∧
      history .bare LifecycleCall.lateLocals ({ runtime := (), freshFrame := 3 } : Machine Unit) =
        [(1, .enter), (2, .enter), (2, .attachLocals), (2, .setPc), (2, .attachLocals), (2, .exit),
          (1, .exit)] ∧
      ¬ Documented (onFrame 2 (history .bare LifecycleCall.lateLocals
        ({ runtime := (), freshFrame := 3 } : Machine Unit))) := by
  have h : ({ runtime := (), freshFrame := 3 } : Machine Unit).AtRest :=
    ⟨rfl, fun _ => (by decide : FrameState.unlinked ≠ .active), fun _ => rfl⟩
  refine ⟨h, rfl, fun hd => ?_⟩
  have hp := ((lifecycle_enforced .bare _ h LifecycleCall.lateLocals).documented_iff 2).mp hd
  have hlate : ¬ Prompt [.enter, .attachLocals, .setPc, .attachLocals, .exit] := by
    simp [Prompt]
  exact hlate hp

end TieredVm
