import TieredVm.Interpreter.Functions
import TieredVm.Operator.Apply
import TieredVm.Proofs.Frame.Transitions

/-!
# What the journal does not decide

Operations add lines to the journal and never read one back. All that counts is whether a journal is
kept: an event that cannot be shown is a violation then. `Machine.unwritten` is the machine with an
empty journal, and an operation is blind (`Run.Blind`) when it answers the same on a machine and on
the unwritten one, and leaves the same state but for the lines.

* `Blind.bind`, `Blind.get_bind`: sequencing.
* `blind_violate`, `blind_emit`, `blind_onRuntime`: the primitives.
* `Chain.blind_enter`, `Chain.blind_exit`, `ObjectModel.blind_setPc`: the frame transitions.
-/

namespace TieredVm

variable {R α β : Type}

/-! ## Machines without lines -/

/-- The machine with nothing written in its journal, if it keeps one. -/
def Machine.unwritten (m : Machine R) : Machine R := { m with journal := m.journal.map fun _ => [] }

theorem Machine.unwritten_unwritten (m : Machine R) : m.unwritten.unwritten = m.unwritten := by
  simp [unwritten, Function.comp_def]

theorem Machine.unwritten_noted (m : Machine R) (line : String) :
    (m.noted line).unwritten = m.unwritten := by
  simp [unwritten, noted, Function.comp_def]

theorem Machine.isSome_journal_unwritten (m : Machine R) :
    m.unwritten.journal.isSome = m.journal.isSome := Option.isSome_map

/-- The result with the lines left out of the state it leaves. -/
def Result.unwritten (r : EStateM.Result Stop (Machine R) α) : EStateM.Result Stop (Machine R) α :=
  leaving r (state r).unwritten

/-- The operation does not depend on the lines written before. -/
def Run.Blind (act : Run R α) : Prop :=
  ∀ m, Result.unwritten (act m.unwritten) = Result.unwritten (act m)

namespace Run

theorem Blind.congr {act : Run R α} (h : Blind act) {m n : Machine R}
    (hmn : m.unwritten = n.unwritten) : Result.unwritten (act m) = Result.unwritten (act n) := by
  rw [← h m, hmn, h n]

/-! ## Sequencing -/

/-- Operations that agree but for the lines, followed by ones that do, agree but for the lines. -/
theorem unwritten_bind {x y : Run R α} {f g : α → Run R β} {m n : Machine R}
    (hxy : Result.unwritten (x m) = Result.unwritten (y n))
    (hfg : ∀ a m' n', m'.unwritten = n'.unwritten →
      Result.unwritten (f a m') = Result.unwritten (g a n')) :
    Result.unwritten ((x >>= f) m) = Result.unwritten ((y >>= g) n) := by
  rw [bind_apply, bind_apply]
  cases hx : x m with
  | ok a m' =>
    cases hy : y n with
    | ok b n' =>
      rw [hx, hy] at hxy
      obtain ⟨rfl, hm⟩ := EStateM.Result.ok.inj hxy
      exact hfg a m' n' hm
    | error e n' => rw [hx, hy] at hxy; cases hxy
  | error e m' =>
    cases hy : y n with
    | ok b n' => rw [hx, hy] at hxy; cases hxy
    | error e' n' =>
      rw [hx, hy] at hxy
      obtain ⟨rfl, hm⟩ := EStateM.Result.error.inj hxy
      exact congrArg (EStateM.Result.error e) hm

theorem Blind.bind {x : Run R α} {f : α → Run R β} (hx : Blind x) (hf : ∀ a, Blind (f a)) :
    Blind (x >>= f) := fun m =>
  unwritten_bind (hx m) fun a _ _ h => (hf a).congr h

/-- What is done with a machine that was read may depend on all of it but the lines. -/
theorem Blind.get_bind {f : Machine R → Run R β} (hread : ∀ m, f m.unwritten = f m)
    (hf : ∀ m, Blind (f m)) : Blind (get >>= f) := fun m => by
  rw [bind_of_ok (get_apply _), bind_of_ok (get_apply _), hread m]
  exact hf m m

theorem blind_pure (a : α) : Blind (pure a : Run R α) := fun m =>
  congrArg (EStateM.Result.ok a) m.unwritten_unwritten

theorem blind_throw (e : Stop) : Blind (throw e : Run R α) := fun m =>
  congrArg (EStateM.Result.error e) m.unwritten_unwritten

theorem blind_modify {f : Machine R → Machine R}
    (hf : ∀ m, (f m.unwritten).unwritten = (f m).unwritten) : Blind (modify f : Run R PUnit) :=
  fun m => congrArg (EStateM.Result.ok PUnit.unit) (hf m)

theorem blind_violate (v : Violation) : Blind (violate v : Run R α) := fun m => by
  refine congrArg (EStateM.Result.error (Stop.violation v)) ?_
  exact (m.unwritten.unwritten_noted _).trans
    (m.unwritten_unwritten.trans (m.unwritten_noted _).symm)

theorem blind_expect (r : Except Violation α) : Blind (expect r : Run R α) := by
  cases r with
  | ok a => exact blind_pure a
  | error v => exact blind_violate v

/-- Events that can be shown alike leave the same behind. -/
theorem unwritten_emit {e e' : Event} {m n : Machine R}
    (he : (e.line.map fun _ => ()) = e'.line.map fun _ => ()) (hmn : m.unwritten = n.unwritten) :
    Result.unwritten (emit e m) = Result.unwritten (emit e' n) := by
  cases hl : e.line with
  | ok line =>
    cases hl' : e'.line with
    | ok line' =>
      rw [emit_of_line hl, emit_of_line hl']
      refine congrArg (EStateM.Result.ok ()) ?_
      exact (m.unwritten_noted line).trans (hmn.trans (n.unwritten_noted line').symm)
    | error v => rw [hl, hl'] at he; cases he
  | error v =>
    cases hl' : e'.line with
    | ok line' => rw [hl, hl'] at he; cases he
    | error v' =>
      rw [hl, hl'] at he
      obtain rfl : v = v' := Except.error.inj he
      have hj : m.journal.isSome = n.journal.isSome := by
        rw [← m.isSome_journal_unwritten, hmn, n.isSome_journal_unwritten]
      rw [emit_of_error hl, emit_of_error hl', hj]
      split
      · exact (blind_violate v).congr hmn
      · exact congrArg (EStateM.Result.ok ()) hmn

theorem blind_emit (e : Event) : Blind (emit e : Run R Unit) := fun m =>
  unwritten_emit rfl m.unwritten_unwritten

/-- An operation on the interpreter's state sees no journal. -/
theorem blind_onRuntime (act : Local R α) : Blind (onRuntime act) := fun m => by
  have hr : m.unwritten.runtime = m.runtime := rfl
  unfold onRuntime
  rw [hr]
  cases act m.runtime with
  | ok a r => exact congrArg (EStateM.Result.ok a) ({ m with runtime := r }).unwritten_unwritten
  | error s r =>
    have hsame : Result.unwritten (.error s { m.unwritten with runtime := r }) =
        (Result.unwritten (.error s { m with runtime := r }) : EStateM.Result Stop (Machine R) α) :=
      congrArg (EStateM.Result.error s) ({ m with runtime := r }).unwritten_unwritten
    cases s with
    | abort a => exact hsame
    | panic p =>
      cases p with
      | violation v => exact blind_violate v { m with runtime := r }
      | outOfBounds n i => exact hsame
      | message t => exact hsame

end Run

open Run

/-! ## The machine's own operations -/

theorem Machine.blind_newFrame : Blind (newFrame : Run R FrameId) := fun m =>
  congrArg (EStateM.Result.ok m.freshFrame) ({ m with freshFrame := _ }).unwritten_unwritten

theorem Machine.blind_takePending : Blind (takePending : Run R (Option Exception)) := fun m =>
  congrArg (EStateM.Result.ok m.pending) ({ m with pending := none }).unwritten_unwritten

theorem Machine.blind_raise (e : Exception) : Blind (raise e : Run R Value) :=
  (blind_emit _).bind fun _ => (blind_modify fun m =>
    ({ m with pending := some e }).unwritten_unwritten).bind fun _ => blind_pure _

/-! ## Frames -/

namespace Chain

theorem blind_active (use : FrameUse) (frame : Option FrameId) :
    Blind (active use frame : Run R (FrameId × Frame)) := by
  cases frame with
  | none => exact blind_violate _
  | some id =>
    refine Blind.get_bind (fun _ => rfl) fun m => ?_
    dsimp only
    split
    · exact blind_pure _
    · exact blind_violate _

theorem blind_putFrame (id : FrameId) (f : Frame) : Blind (putFrame id f : Run R Unit) :=
  blind_modify fun m => ({ m with frames := m.frames.set id f }).unwritten_unwritten

theorem blind_setPc (frame : Option FrameId) (code : Bytecode) (pc : Nat) :
    Blind (setPc frame code pc : Run R Unit) := by
  refine (blind_active _ frame).bind fun (id, f) => ?_
  dsimp only
  split
  · exact (blind_violate _).bind fun _ => blind_putFrame _ _
  · exact blind_putFrame _ _

theorem blind_enter (frame : Option FrameId) (function : Value) (args : Address) (argCount : Nat) :
    Blind (enter frame function args argCount : Run R Unit) := by
  cases frame with
  | none => exact blind_violate _
  | some id =>
    intro m
    by_cases h : (m.frames.get id).state = .active
    · have hrefused : ∀ n : Machine R, (n.frames.get id).state = .active →
          enter (some id) function args argCount n = violate .enterActive n := fun n hn => by
        simp [enter, bind_apply, get_apply, hn, violate_apply]
      rw [hrefused m h, hrefused m.unwritten h]
      exact blind_violate _ m
    · have hu : (m.unwritten.frames.get id).state ≠ .active := h
      rw [enter_idle h, enter_idle hu]
      exact blind_emit _ (m.entered id function args argCount)

theorem foldl_closeCapture_unwritten : ∀ (cs : List Capture) (m : Machine R),
    cs.foldl Machine.closeCapture m.unwritten = (cs.foldl Machine.closeCapture m).unwritten
  | [], _ => rfl
  | c :: cs, m => foldl_closeCapture_unwritten cs (m.closeCapture c)

theorem blind_exit (frame : Option FrameId) : Blind (exit frame : Run R Unit) := by
  refine (blind_active _ frame).bind fun (id, f) => ?_
  intro m
  have hchain : m.unwritten.chain = m.chain := rfl
  by_cases hc : m.chain.current = some id
  · simp only [bind_apply, get_apply, hchain, hc, set_apply, ne_eq, not_true_eq_false, if_false,
      foldl_closeCapture_unwritten]
    exact blind_emit _ { f.captured.foldl Machine.closeCapture m with
      frames := _
      chain := _ }
  · simp only [bind_apply, get_apply, hchain, ne_eq, hc, not_false_eq_true, if_true, violate_apply]
    exact (blind_violate _ : Blind (violate _ : Run R Unit)) m

end Chain

namespace ObjectModel

variable (O : ObjectModel R)

theorem blind_codeOf? (function : Value) : Blind (O.codeOf? function) :=
  (blind_expect _).bind fun _ => Blind.get_bind (fun _ => rfl) fun _ => blind_pure _

theorem blind_codeOf (function : Value) : Blind (O.codeOf function) := by
  have hobject : Blind (objectOf .bytecode function : Run R Pointer) :=
    (blind_expect _).bind fun p => by
      cases p with
      | none => exact blind_violate _
      | some p => exact blind_pure p
  refine hobject.bind fun p => Blind.get_bind (fun _ => rfl) fun m => ?_
  cases O.bytecode m.runtime p with
  | none => exact (blind_expect _).bind fun _ => blind_violate _
  | some code => exact blind_pure code

theorem blind_constantOf (function : Value) (index : Nat) : Blind (O.constantOf function index) :=
  (O.blind_codeOf function).bind fun _ => blind_expect _

theorem blind_enter (frame : Option FrameId) (function : Value) (args : Address) (argCount : Nat) :
    Blind (O.enter frame function args argCount) := by
  refine (O.blind_codeOf? function).bind fun code? => ?_
  cases code? with
  | none => exact Chain.blind_enter _ _ _ _
  | some code =>
    dsimp only
    split
    · exact (blind_violate _).bind fun _ => Chain.blind_enter _ _ _ _
    · exact Chain.blind_enter _ _ _ _

theorem blind_setPc (frame : Option FrameId) (pc : Nat) : Blind (O.setPc frame pc) := by
  cases frame with
  | none => exact blind_violate _
  | some id =>
    exact Blind.get_bind (fun _ => rfl) fun m => (O.blind_codeOf _).bind fun _ =>
      Chain.blind_setPc _ _ _

theorem blind_trace : Blind O.trace :=
  Blind.get_bind (fun _ => rfl) fun _ => blind_expect _

end ObjectModel

end TieredVm
