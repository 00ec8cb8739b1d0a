import Mathlib.Data.List.Perm.Subperm
import TieredVm.Proofs.Frame.Moves
import TieredVm.Reference.Entries

/-!
# Rejected calls

An operation on the frames checks everything before it writes anything. So it goes through, or it is
refused with a violation and nothing has happened (`Run.AllOrNothing`), on the chain itself as well as
held to the layout of a function, and a caller that catches the violation goes on as if the call had never
been made. The same holds of the reads of function objects; after its checks, the read of a captured
variable hands the value to the interpreter to be duplicated.

Recording is off: an event that cannot be shown would be a violation of its own, after the write.

* `Request.allOrNothing`: every such request, in every machine.
* `rejected_calls_unseen`: what that means for a caller, in every machine that a run reaches. There, the
  count of linked frames neither falls below zero nor outgrows the frames that were set aside.
-/

namespace TieredVm

variable {R α β : Type} {m : Machine R}

/-! ## Going through or being refused -/

/-- The operation goes through, or it is refused and nothing happens. -/
def Run.AllOrNothing (x : Run R α) (m : Machine R) : Prop :=
  (∃ a m', x m = .ok a m') ∨ Refused m (x m)

namespace Run.AllOrNothing

theorem of_ok {x : Run R α} {a : α} {m' : Machine R} (h : x m = .ok a m') : x.AllOrNothing m :=
  .inl ⟨a, m', h⟩

theorem of_eq {x y : Run R α} (h : x m = y m) (hy : y.AllOrNothing m) : x.AllOrNothing m := by
  unfold AllOrNothing
  rw [h]
  exact hy

theorem respond {x : Run R α} (h : x.AllOrNothing m) (f : α → β) :
    (do return f (← x) : Run R β).AllOrNothing m := by
  show Run.AllOrNothing (x >>= fun a => pure (f a)) m
  unfold AllOrNothing
  rw [bind_apply]
  rcases h with ⟨a, m', h⟩ | ⟨v, h⟩
  · rw [h]
    exact .inl ⟨f a, m', rfl⟩
  · rw [h]
    exact .inr ⟨v, rfl⟩

end Run.AllOrNothing

namespace Chain

theorem allOrNothing_enter (hoff : m.journal = none) (frame : Option FrameId) (function : Value)
    (args : Address) (argCount : Nat) :
    (enter frame function args argCount : Run R Unit).AllOrNothing m := by
  by_cases h : ∃ id, frame = some id ∧ (m.frames.get id).state ≠ .active
  · obtain ⟨id, rfl, hs⟩ := h
    have hshown : m.journal.isSome = true → function.dangling = false := by simp [hoff]
    obtain ⟨line, hl⟩ := enter_shown hs hshown args argCount
    exact .of_ok hl
  · exact .inr (enter_refused h ..)

theorem allOrNothing_attachLocals (frame : Option FrameId) (locals : Address) (count : Nat) :
    (attachLocals frame locals count : Run R Unit).AllOrNothing m := by
  by_cases h : m.Linked frame
  · obtain ⟨id, rfl, hs⟩ := h
    exact .of_ok (attachLocals_linked hs locals count)
  · exact .inr (attachLocals_refused h ..)

theorem allOrNothing_setPc (frame : Option FrameId) (code : Bytecode) (pc : Nat) :
    (setPc frame code pc : Run R Unit).AllOrNothing m := by
  by_cases h : m.Linked frame ∧ code.containsPc pc = true
  · obtain ⟨⟨id, rfl, hs⟩, hpc⟩ := h
    exact .of_ok (setPc_inside hs hpc)
  · exact .inr (setPc_refused h)

theorem allOrNothing_exit (frame : Option FrameId) : (exit frame : Run R Unit).AllOrNothing m := by
  by_cases h : m.Linked frame ∧ m.chain.current = frame
  · obtain ⟨⟨id, rfl, hs⟩, hc⟩ := h
    exact .of_ok (exit_innermost hs hc)
  · exact .inr (exit_refused h)

theorem allOrNothing_captureOf (id : FrameId) (index : Nat) (kind : SlotKind) :
    (captureOf id (m.frames.get id) index kind : Run R Capture).AllOrNothing m := by
  cases hq : captured? m id index kind with
  | some c => exact .of_ok (captureOf_again hq)
  | none =>
    by_cases hi : index < (m.frames.get id).count kind
    · exact .of_ok (captureOf_new hq hi)
    · exact .inr (captureOf_refused hq hi)

theorem allOrNothing_capture (frame : Option FrameId) (index : Nat) (kind : SlotKind) :
    (capture frame index kind : Run R Capture).AllOrNothing m := by
  rcases capture_cases m frame index kind with ⟨id, -, h⟩ | h
  · exact .of_eq h (allOrNothing_captureOf id index kind)
  · exact .inr h

theorem allOrNothing_captureCurrent (index : Nat) (kind : SlotKind) :
    (captureCurrent index kind : Run R Capture).AllOrNothing m := by
  rcases captureCurrent_cases m index kind with ⟨id, -, h⟩ | h
  · exact .of_eq h (allOrNothing_captureOf id index kind)
  · exact .inr h

theorem allOrNothing_readCurrent (use : FrameUse) (kind : SlotKind) (index : Nat) :
    (readCurrent use kind index : Run R Value).AllOrNothing m := by
  by_cases h : ∃ id, m.chain.current = some id ∧ (m.frames.get id).state = .active ∧
      index < (m.frames.get id).count kind
  · obtain ⟨id, hc, hs, hi⟩ := h
    exact .of_ok (readCurrent_inside use hc hs hi)
  · exact .inr (readCurrent_refused use h)

theorem allOrNothing_setCurrentLocal (index : Nat) (v : Value) :
    (setCurrentLocal index v : Run R Unit).AllOrNothing m := by
  by_cases h : ∃ id, m.chain.current = some id ∧ (m.frames.get id).state = .active ∧
      index < (m.frames.get id).count .localVar
  · obtain ⟨id, hc, hs, hi⟩ := h
    exact .of_ok (setCurrentLocal_inside hc hs hi v)
  · exact .inr (setCurrentLocal_refused h v)

end Chain

/-- The interpreter answers every call for a duplicate. -/
def ObjectModel.Duplicates (O : ObjectModel R) : Prop :=
  ∀ v s, ∃ w s', O.duplicate v s = .ok w s'

namespace ObjectModel

variable (O : ObjectModel R)

theorem allOrNothing_codeOf (function : Value) : (O.codeOf function).AllOrNothing m :=
  (O.codeOf_cases function).imp (fun ⟨code, h⟩ => ⟨code, m, h⟩) id

theorem allOrNothing_constantOf (function : Value) (index : Nat) :
    (O.constantOf function index).AllOrNothing m := by
  unfold Run.AllOrNothing constantOf
  rcases O.codeOf_cases (m := m) function with ⟨code, h⟩ | ⟨v, h⟩
  · rw [Run.bind_of_ok h]
    cases code.constant index with
    | ok c => exact .inl ⟨c, m, rfl⟩
    | error v => exact .inr ⟨v, rfl⟩
  · exact .inr ⟨v, by rw [Run.bind_apply, h]; rfl⟩

/-- A variable that a function object holds is answered. -/
theorem capturedOf_answers (hdup : O.Duplicates) {function : Value} {index : Nat} {c : Capture}
    (hc : O.Holds m function index c) : ∃ w m', O.capturedOf function index m = .ok w m' := by
  obtain ⟨w, s, hw⟩ := hdup (m.captureValue c) m.runtime
  refine ⟨w, { m with runtime := s }, ?_⟩
  rw [O.capturedOf_of_holds hc, Run.onRuntime, hw]

theorem allOrNothing_capturedOf (hdup : O.Duplicates) (function : Value) (index : Nat) :
    (O.capturedOf function index).AllOrNothing m := by
  rcases O.capturedOf_cases (m := m) function index with ⟨c, hc⟩ | ⟨v, hv, -⟩
  · exact .inl (O.capturedOf_answers hdup hc)
  · exact .inr ⟨v, hv⟩

end ObjectModel

/-- A transition goes through or is refused, by either route. -/
theorem LifecycleCall.allOrNothing (O : ObjectModel R) (hoff : m.journal = none)
    (c : LifecycleCall) : (c.perform O).AllOrNothing m := by
  refine .of_eq (c.perform_apply O m) ?_
  cases c with
  | enter held frame function args argCount =>
    have h := Chain.allOrNothing_enter hoff (frame.find m) function args argCount
    cases held with
    | false => exact h
    | true =>
      rcases O.enter_cases (m := m) (frame.find m) function args argCount with he | hr
      · exact .of_eq he h
      · exact .inr hr
  | attachLocals held frame locals count =>
    have h := Chain.allOrNothing_attachLocals (m := m) (frame.find m) locals count
    cases held with
    | false => exact h
    | true =>
      rcases O.attachLocals_cases (m := m) (frame.find m) locals count with he | hr
      · exact .of_eq he h
      · exact .inr hr
  | setPc frame code pc => exact Chain.allOrNothing_setPc (frame.find m) code pc
  | setHeldPc frame pc =>
    rcases O.setPc_cases (m := m) (frame.find m) pc with ⟨code, he⟩ | hr
    · exact .of_eq he (Chain.allOrNothing_setPc (frame.find m) code pc)
    · exact .inr hr
  | exit frame => exact Chain.allOrNothing_exit (frame.find m)

/-- A frame that is entered by either route is entered on the chain. -/
theorem LifecycleCall.chain_enter_of_ok {O : ObjectModel R} {held : Bool} {fr : FrameRef}
    {frame : Option FrameId} {function : Value} {args : Address} {argCount : Nat} {m' : Machine R}
    (h : (LifecycleCall.enter held fr function args argCount).performOn O frame m = .ok () m') :
    Chain.enter frame function args argCount m = .ok () m' := by
  cases held with
  | false => exact h
  | true =>
    rcases O.enter_cases (m := m) frame function args argCount with he | hr
    · exact he ▸ h
    · exact absurd h hr.not_ok

/-! ## Requests -/

/-- The operations on frames, by either route, and the reads of function objects. -/
def Request.OnFrames : Request R → Prop
  | .transition _ | .capture .. | .captureCurrent .. | .currentArg _ | .currentLocal _
  | .setCurrentLocal .. | .code _ | .constant .. | .captured .. => True
  | _ => False

/-- **Every operation on frames goes through, or it is refused and nothing happens.** -/
theorem Request.allOrNothing (I : Interpreter R) (hoff : m.journal = none) {r : Request R}
    (hr : r.OnFrames) (hdup : ∀ function index, r = .captured function index → I.Duplicates) :
    (r.perform I).AllOrNothing m := by
  cases r with
  | transition c => exact (c.allOrNothing I.toObjectModel hoff).respond fun _ => Response.done
  | capture frame index kind =>
    exact (Chain.allOrNothing_capture (frame.find m) index kind).respond Response.variable
  | captureCurrent index kind =>
    exact (Chain.allOrNothing_captureCurrent index kind).respond Response.variable
  | currentArg index => exact (Chain.allOrNothing_readCurrent ..).respond Response.value
  | currentLocal index => exact (Chain.allOrNothing_readCurrent ..).respond Response.value
  | setCurrentLocal index v =>
    exact (Chain.allOrNothing_setCurrentLocal index v).respond fun _ => Response.done
  | code function => exact (I.allOrNothing_codeOf function).respond Response.code
  | constant function index =>
    exact (I.allOrNothing_constantOf function index).respond Response.value
  | captured function index =>
    exact (I.allOrNothing_capturedOf (hdup function index rfl) function index).respond Response.value
  | _ => exact hr.elim

/-- What is refused while nothing is recorded leaves the very same machine. -/
theorem Refused.eq_of_silent (hoff : m.journal = none) {r : EStateM.Result Stop (Machine R) α}
    (h : Refused m r) : ∃ v, r = .error (.violation v) m := by
  obtain ⟨v, rfl⟩ := h
  exact ⟨v, by rw [Run.violate_apply, Machine.noted_of_silent hoff]⟩

/-- A caller that is told of a panic goes on in the machine that the request left. -/
theorem Caller.run_ask_of_panic (I : Interpreter R) {r : Request R} {p : Panic} {m' : Machine R}
    (h : r.perform I m = .error (.panic p) m') (next : Except Panic Response → Caller R) :
    (Caller.ask r next).run I m = (next (.error p)).run I m' := by
  have hasked : Run.attempted (r.perform I) m = .ok (.error p) m' := by
    rw [Run.attempted, h]
  exact Run.bind_of_ok hasked _

/-! ## The count of linked frames -/

namespace Represents

variable {recording : Bool} {s : CallStack}

/-- No more frames are linked than were set aside. -/
theorem depth_le (h : Represents recording m s) : m.chain.depth ≤ m.freshFrame := by
  have hsub : s.frames ⊆ List.range m.freshFrame := fun id hid =>
    List.mem_range.mpr (h.freshFrame ▸ h.setAside id hid)
  have hle := (List.subperm_of_subset h.once hsub).length_le
  rw [List.length_range] at hle
  rw [h.depth]
  simpa [CallStack.frames] using hle

end Represents

/-- What a frame that was entered does to the chain. -/
theorem Chain.chain_of_enter {frame : Option FrameId} {function : Value} {args : Address}
    {argCount : Nat} {m' : Machine R}
    (h : enter frame function args argCount m = .ok () m') :
    m'.chain = { current := frame, depth := m.chain.depth + 1 } := by
  by_cases hid : ∃ id, frame = some id ∧ (m.frames.get id).state ≠ .active
  · obtain ⟨id, rfl, hs⟩ := hid
    have hk := Run.keepsFrames_emit (.enter (m.chain.depth + 1) function)
      (m.entered id function args argCount)
    rw [← enter_idle hs, h] at hk
    exact hk.chain
  · exact absurd h (enter_refused hid ..).not_ok

theorem Represents.depth_of_exit {recording : Bool} {s : CallStack}
    (h : Represents recording m s) {frame : Option FrameId} {m' : Machine R}
    (he : Chain.exit frame m = .ok () m') : m.chain.depth = m'.chain.depth + 1 := by
  rcases h.leavable frame with ⟨a, rest, hl, rfl, hc, hs⟩ | ⟨hr, -⟩
  · rw [Chain.exit_innermost hs hc] at he
    cases he
    have hd := h.depth
    rw [hl, List.length_cons] at hd
    show m.chain.depth = (m.left a.frame).chain.depth + 1
    rw [Machine.chain_left]
    show m.chain.depth = m.chain.depth - 1 + 1
    omega
  · exact absurd he hr.not_ok

/-- A rejected request is as if it had not been made, and an accepted one counts right. -/
structure RejectedUnseen (I : Interpreter R) (m : Machine R) (r : Request R) : Prop where
  /-- What stops is rejected: it is a violation, and the machine is the very same. -/
  rejected : ∀ stop m', r.perform I m = .error stop m' → (∃ v, stop = .violation v) ∧ m' = m
  /-- A caller that catches it goes on as if it had only been told. -/
  goesOn : ∀ p m', r.perform I m = .error (.panic p) m' → ∀ next : Except Panic Response → Caller R,
    (Caller.ask r next).run I m = (next (.error p)).run I m
  /-- The linked frames are counted, none twice, and each was set aside. -/
  depth : m.chain.depth = (Chain.linked m).length ∧ (Chain.linked m).Nodup ∧
    m.chain.depth ≤ m.freshFrame
  /-- Leaving a frame does not count below zero. -/
  counted_down : ∀ frame a m', r = .transition (.exit frame) → r.perform I m = .ok a m' →
    m.chain.depth = m'.chain.depth + 1
  /-- Entering one does not count beyond the frames that were set aside. -/
  counted_up : ∀ held frame function args argCount a m',
    r = .transition (.enter held frame function args argCount) → r.perform I m = .ok a m' →
      m'.chain.depth = m.chain.depth + 1 ∧ m'.chain.depth ≤ m'.freshFrame
  /-- A closure is never asked for a variable it does not hold: an index is rejected only if the
  function declares no variable there. -/
  inside : ∀ function index f n m', r = .captured function index →
    r.perform I m = .error (.violation (.closureOutOfRange index f n)) m' → n ≤ index

/-- A machine that represents a stack and records nothing rejects without a trace. -/
theorem Represents.rejectedUnseen {s : CallStack} (hs : Represents false m s) (I : Interpreter R)
    {r : Request R} (hr : r.OnFrames)
    (hdup : ∀ function index, r = .captured function index → I.Duplicates) :
    RejectedUnseen I m r := by
  have hquiet : m.journal = none := by simpa using hs.recording
  have hstop : ∀ stop m', r.perform I m = .error stop m' → (∃ v, stop = .violation v) ∧ m' = m := by
    intro stop m' h
    rcases r.allOrNothing I hquiet hr hdup with ⟨a, n, hok⟩ | href
    · exact absurd (hok.symm.trans h) (by simp)
    · obtain ⟨v, hv⟩ := href.eq_of_silent hquiet
      cases hv.symm.trans h
      exact ⟨⟨v, rfl⟩, rfl⟩
  constructor
  case rejected => exact hstop
  case goesOn =>
    intro p m' h next
    obtain ⟨-, rfl⟩ := hstop _ _ h
    exact Caller.run_ask_of_panic I h next
  case depth =>
    rw [hs.linked]
    refine ⟨?_, hs.once, hs.depth_le⟩
    rw [hs.depth, CallStack.frames, List.length_map]
  case counted_down =>
    rintro frame a m' rfl h
    obtain ⟨_, n, hc, hn⟩ := Run.ok_of_bind h
    cases hn
    rw [LifecycleCall.perform_apply] at hc
    exact hs.depth_of_exit hc
  case counted_up =>
    rintro held frame function args argCount a m' rfl h
    have hmove : Moves I False m (Result.state
        ((Request.transition (.enter held frame function args argCount)).perform I m)) :=
      .request _ id False.elim
    rw [h] at hmove
    obtain ⟨s', hs'⟩ := (hmove.frameStep hs).represents hs
    obtain ⟨_, n, hc, hn⟩ := Run.ok_of_bind h
    cases hn
    rw [LifecycleCall.perform_apply] at hc
    have hchain := Chain.chain_of_enter (LifecycleCall.chain_enter_of_ok hc)
    exact ⟨congrArg Chain.depth hchain, hs'.depth_le⟩
  case inside =>
    rintro function index f n m' rfl h
    rcases I.capturedOf_cases (m := m) function index with ⟨c, hc⟩ | ⟨v, hv, hindex⟩
    · obtain ⟨w, k, hok⟩ := I.capturedOf_answers (hdup function index rfl) hc
      exact absurd ((Run.bind_of_ok hok _).symm.trans h) (by simp [Run.pure_apply])
    · cases (Run.bind_of_error (hv.trans (Run.violate_apply v m)) _).symm.trans h
      exact hindex f n rfl

/-- **A rejected call changes nothing.** Whatever ran before, with recording off, an operation on the
frames or a read of a function object that panics does so with a violation, before it changed anything. -/
theorem rejected_calls_unseen (I : Interpreter R) (start : Machine R) (hrest : start.AtRest)
    (hoff : start.journal = none) (m : Machine R)
    (hm : Relation.ReflTransGen (Moves I False) start m) (r : Request R) (hr : r.OnFrames)
    (hdup : ∀ function index, r = .captured function index → I.Duplicates) :
    RejectedUnseen I m r := by
  obtain ⟨s, hs⟩ := Moves.represents hrest.represents hm
  rw [hoff] at hs
  exact hs.rejectedUnseen I hr hdup

/-- The reference interpreter with two frames linked. -/
def Machine.twoLinked : Machine Reference.State :=
  runCalls Reference.objectModel
    [.enter true (.owned 1) .undefined 8 1, .enter false (.owned 2) .null 16 0,
      .enter true (.owned 1) .null 8 0]
    { runtime := {}, freshFrame := 3 }

/-- The lower of two frames cannot be left, and a reference to nothing holds no variable. -/
theorem rejected_calls_unseen_out_of_order :
    ({ runtime := {}, freshFrame := 3 } : Machine Reference.State).AtRest ∧
      Reference.interpreter.Duplicates ∧
      (Request.transition (.exit (.owned 1))).perform Reference.interpreter .twoLinked =
        .error (.violation (.exitOutOfOrder 2)) .twoLinked ∧
      RejectedUnseen Reference.interpreter .twoLinked (.transition (.exit (.owned 1))) ∧
      (Request.captured ⟨0xfff9000000000000⟩ 0).perform Reference.interpreter .twoLinked =
        .error (.violation (.nullPointer .object)) .twoLinked ∧
      RejectedUnseen Reference.interpreter .twoLinked (.captured ⟨0xfff9000000000000⟩ 0) := by
  have hrest : ({ runtime := {}, freshFrame := 3 } : Machine Reference.State).AtRest :=
    ⟨rfl, fun _ => (by decide : FrameState.unlinked ≠ .active), fun _ => rfl⟩
  have hdup : Reference.interpreter.Duplicates := fun v s => ⟨v, _, rfl⟩
  have hm : Relation.ReflTransGen (Moves Reference.interpreter False)
      { runtime := {}, freshFrame := 3 } .twoLinked := Moves.runCalls False.elim
  exact ⟨hrest, hdup, rfl,
    rejected_calls_unseen _ _ hrest rfl _ hm (.transition (.exit (.owned 1))) trivial
      (fun _ _ _ => hdup), rfl,
    rejected_calls_unseen _ _ hrest rfl _ hm (.captured ⟨0xfff9000000000000⟩ 0) trivial
      (fun _ _ _ => hdup)⟩

end TieredVm
