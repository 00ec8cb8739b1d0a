import TieredVm.Proofs.Journal
import TieredVm.Proofs.Reference.Inherited

/-!
# The reference interpreter and the journal

No entry of the reference interpreter depends on the lines written in the journal
(`blind_entry`): entries read the interpreter's own state, and the calls that an addition makes go
through operations that are blind themselves (`blind_call`).
-/

namespace TieredVm.Reference

open Run (Blind)

/-- The steps of entries do not depend on the lines written in the journal. -/
theorem inherited_blind : Inherited Blind where
  pure := Run.blind_pure
  bind := Blind.bind
  get_bind hread hf := Blind.get_bind (fun m => hread m.unwritten m rfl) hf
  expect := Run.blind_expect
  onRuntime _ _ _ := Run.blind_onRuntime _
  emit := Run.blind_emit
  raise := Machine.blind_raise
  tooDeep := Run.blind_throw _

theorem blind_call {plus : Value → Value → Run State Value} (hplus : ∀ x y, Blind (plus x y))
    (function : Value) : Blind (call plus function).run :=
  inherited_blind.call Machine.blind_takePending <| Machine.blind_newFrame.bind fun _ =>
    (objectModel.blind_enter _ _ _ _).bind fun _ => (objectModel.blind_setPc _ _).bind fun _ =>
    (objectModel.blind_constantOf _ _).bind fun a => (objectModel.blind_constantOf _ _).bind fun b =>
    (hplus a b).bind fun sum => objectModel.blind_trace.bind fun _ =>
    (Run.blind_onRuntime _).bind fun _ => (Chain.blind_exit _).bind fun _ => Run.blind_pure sum

/-- **No entry depends on the lines of the journal.** -/
theorem blind_entry (power : Double → Double → Double) (op : BinaryOp) (operands : Operands 2) :
    Blind (op.entry (interpreterWith power) operands).run :=
  inherited_blind.entry (fun _ => blind_call) power op operands

end TieredVm.Reference
