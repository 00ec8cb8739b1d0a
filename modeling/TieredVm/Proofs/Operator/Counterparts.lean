import TieredVm.Proofs.Operator.Integers
import TieredVm.Proofs.Operator.Shown

/-!
# Unary operators and their binary counterparts

Every unary operator is a binary one with a fixed integer on the right: a negation is a product with
minus one, an increment the difference to minus one. The two are written apart, for integers, for
doubles and in the interpreter, and have the same outcome on every operand that can be shown
(`SameOutcome`): the same number, up to which NaN it is, or the same exception. On an integer they are
even the same pattern, except that the plus sign gives its operand back as it is, with payload bits that
the difference does not keep.

* `UnaryOp.onNumber_eq`: the two on doubles.
* `UnaryOp.ofInt_eq`: the two on integers.
* `counterparts_agree`: both, on every machine on which no failure was prepared.
* `plus_keeps_pattern`: the exception.
-/

namespace TieredVm

open Reference

/-- The binary operator a unary one stands for. -/
def UnaryOp.counterpart : UnaryOp → BinaryOp
  | neg => .arith .mul
  | plus | inc | dec => .arith .sub
  | bitNot => .logic .xor

/-- The right operand of the counterpart. -/
def UnaryOp.constant : UnaryOp → Int32
  | plus => 0
  | dec => 1
  | neg | inc | bitNot => -1

/-- Two calls come out the same: with a number that is the same double, or a NaN on both sides, or with
the error sentinel and the same pending exception. -/
inductive SameOutcome : (r r' : EStateM.Result Stop (Machine Reference.State) Value) → Prop where
  | number {v w : Value} {m m' : Machine Reference.State} {a b : Double} (hv : v.IsNumber a)
      (hw : w.IsNumber b) (h : a = b ∨ a.isNaN = true ∧ b.isNaN = true) :
      SameOutcome (.ok v m) (.ok w m')
  | failed {m m' : Machine Reference.State} {e : Exception} (h : m.pending = some e)
      (h' : m'.pending = some e) : SameOutcome (.ok .exception m) (.ok .exception m')

/-- How unary operators and their counterparts agree on a machine. -/
structure Counterparts (I : Interpreter Reference.State) (m : Machine Reference.State) : Prop where
  outcome : ∀ op x, x.dangling = false →
    SameOutcome (I.unaryOp op x m) (I.binary op.counterpart x (.ofInt op.constant) m)
  /-- An integer operand gives the same pattern, the plus sign apart. -/
  pattern : ∀ op x, op ≠ .plus → x.asInt?.isSome = true →
    ∃ v, I.unaryOp op x m = .ok v m ∧ I.binary op.counterpart x (.ofInt op.constant) m = .ok v m
  /-- The plus sign keeps the pattern of an integer, its counterpart writes the canonical one. -/
  plus : ∀ x n, x.asInt? = some n → I.unaryOp .plus x m = .ok x m ∧
    I.binary (.arith .sub) x (.ofInt 0) m = .ok (.ofInt n) m ∧ (x = .ofInt n ↔ x.Canonical)

/-! ## On doubles -/

theorem Double.folded_nan : Double.nan.folded = Double.nan := by decide

theorem Double.folded_of_isNaN {d : Double} (h : d.isNaN = true) : d.folded = Double.nan := if_pos h

/-- Two doubles with the same folding are the same or both NaNs. -/
theorem Double.eq_or_isNaN_of_folded {a b : Double} (h : a.folded = b.folded) :
    a = b ∨ a.isNaN = true ∧ b.isNaN = true := by
  cases ha : a.isNaN <;> cases hb : b.isNaN
  · rw [folded_of_number ha, folded_of_number hb] at h
    exact .inl h
  · rw [folded_of_number ha, folded_of_isNaN hb] at h
    rw [h, isNaN_nan] at ha
    exact absurd ha nofun
  · rw [folded_of_isNaN ha, folded_of_number hb] at h
    rw [← h, isNaN_nan] at hb
    exact absurd hb nofun
  · exact .inr ⟨rfl, rfl⟩

theorem Double.datum_of_isNaN {d : Double} (h : d.isNaN = true) : d.datum = .nan :=
  (isNaN_iff_datum d).mp h

/-- The counterpart gives for a double what the operator gives. -/
theorem UnaryOp.onNumber_eq (power : Double → Double → Double) (op : UnaryOp) (a : Double) :
    op.onNumber a = op.counterpart.onNumbers power a (Double.ofInt32 op.constant) := by
  have hnan : ∀ {d : Double} {b : Double}, a.isNaN = true → d.isNaN = true → b = Double.nan →
      Seen.number d.folded = .number b.folded := fun _ hd hb => by
    rw [hb, Double.folded_of_isNaN hd, Double.folded_nan]
  cases op with
  | neg =>
    cases h : a.isNaN with
    | true =>
      refine hnan h ((Double.isNaN_neg a).trans h) ?_
      show Double.mul a _ = _
      rw [Double.mul, Double.datum_of_isNaN h]
    | false => exact congrArg (fun d => Seen.number d.folded) (Double.mul_ofInt_negOne h).symm
  | plus =>
    cases h : a.isNaN with
    | true =>
      refine hnan h h ?_
      show Double.sub a _ = _
      rw [Double.sub, Double.add, Double.datum_of_isNaN h]
    | false => exact congrArg (fun d => Seen.number d.folded) (Double.sub_ofInt_zero h).symm
  | bitNot =>
    show Seen.number _ = .number _
    rw [Double.toInt32_ofInt32]
    exact congrArg (fun n => Seen.number (Double.ofInt32 n)) Int32.xor_neg_one.symm
  | inc => exact congrArg (fun d => Seen.number d.folded) (Double.sub_ofInt_negOne a).symm
  | dec => rfl

/-! ## On integers -/

/-- The counterpart gives for an integer the pattern that the operator gives. -/
theorem UnaryOp.ofInt_eq (op : UnaryOp) (n : Int32) :
    op.counterpart.ofInts? n op.constant = some (op.ofInt n) := by
  cases op with
  | neg =>
    show some (ArithOp.mulInt n (-1)) = _
    have hone : (-1 : Int32).toInt = -1 := by decide
    have hproduct : n.toInt * -1 = -n.toInt := by omega
    have hzero : (-n.toInt = 0 ∧ (n < 0 ∨ (-1 : Int32) < 0)) ↔ n = 0 := by
      rw [← Int32.toInt_inj, Int32.toInt_zero]
      exact ⟨fun h => by omega, fun h => ⟨by omega, .inr (by decide)⟩⟩
    unfold ArithOp.mulInt ofInt
    simp only [hone, hproduct, hzero]
    by_cases h0 : n = 0
    · rw [if_pos h0, if_pos h0]
    · have hneg : (Double.ofInt32 n).neg = Double.ofInt (-n.toInt) :=
        Double.neg_ofInt fun h => h0 (Int32.toInt_inj.mp h)
      rw [if_neg h0, if_neg h0, hneg]
  | plus =>
    show ArithOp.ofInts? n 0 .sub = _
    rw [ArithOp.ofInts?, Int32.toInt_zero, Int.sub_zero, checkedInt32_toInt]
    rfl
  | bitNot => exact congrArg (fun r => some (Value.ofInt r)) Int32.xor_neg_one
  | inc =>
    show ArithOp.ofInts? n (-1) .sub = _
    have hone : Double.ofInt32 (-1) = Double.ofInt (-1) := rfl
    rw [ArithOp.ofInts?, show n.toInt - (-1 : Int32).toInt = n.toInt + 1 from rfl, hone,
      Double.sub_ofInt_negOne]
    unfold ofInt
    cases checkedInt32 (n.toInt + 1) <;> rfl
  | dec => rfl

/-! ## Outcomes -/

/-- An outcome seen as a number is one. -/
theorem exists_of_seen_number {r : EStateM.Result Stop (Machine Reference.State) Value} {d : Double}
    (h : seen r = .number d) : ∃ v m, r = .ok v m ∧ ∃ a, v.IsNumber a ∧ a.folded = d := by
  cases r with
  | error s m => exact absurd h nofun
  | ok v m =>
    unfold seen seenValue at h
    dsimp only at h
    split at h
    · rename_i a ha
      exact ⟨v, m, rfl, a, ha, Seen.number.inj h⟩
    · exact absurd h nofun
    · exact absurd h nofun
    · split at h <;> exact absurd h nofun

/-- An outcome seen as a failure is the error sentinel. -/
theorem exists_of_seen_failed {r : EStateM.Result Stop (Machine Reference.State) Value}
    {p : Option Exception} (h : seen r = .failed p) :
    ∃ m, r = .ok .exception m ∧ m.pending = p := by
  cases r with
  | error s m => exact absurd h nofun
  | ok v m =>
    unfold seen seenValue at h
    dsimp only at h
    split at h
    · exact absurd h nofun
    · exact absurd h nofun
    · exact absurd h nofun
    · split at h
      · rename_i hv
        obtain rfl : v = .exception := beq_iff_eq.mp hv
        exact ⟨m, rfl, Seen.failed.inj h⟩
      · exact absurd h nofun

/-- Outcomes that are seen alike, as a number or as a failure, are the same. -/
theorem sameOutcome_of_seen {r r' : EStateM.Result Stop (Machine Reference.State) Value}
    {n : Except Exception Double} {g : Double → Seen} (hg : ∀ a, ∃ d, g a = .number d)
    (h : seen r = .attempted g n) (h' : seen r' = .attempted g n) : SameOutcome r r' := by
  obtain ⟨d, hd⟩ | ⟨e, he⟩ : (∃ d, Seen.attempted g n = .number d) ∨
      ∃ e, Seen.attempted g n = .failed (some e) := by
    cases n with
    | ok a => exact .inl (hg a)
    | error e => exact .inr ⟨e, rfl⟩
  · rw [hd] at h h'
    obtain ⟨v, m, rfl, hv⟩ := exists_of_seen_number h
    obtain ⟨w, m', rfl, hw⟩ := exists_of_seen_number h'
    obtain ⟨a, ha, hfold⟩ := hv
    obtain ⟨b, hb, hfold'⟩ := hw
    exact .number ha hb (Double.eq_or_isNaN_of_folded (hfold.trans hfold'.symm))
  · rw [he] at h h'
    obtain ⟨m, rfl, hm⟩ := exists_of_seen_failed h
    obtain ⟨m', rfl, hm'⟩ := exists_of_seen_failed h'
    exact .failed hm hm'

theorem UnaryOp.exists_onNumber (op : UnaryOp) (a : Double) : ∃ d, op.onNumber a = .number d := by
  cases op <;> exact ⟨_, rfl⟩

theorem kind_of_asInt? {x : Value} {n : Int32} (h : x.asInt? = some n) : x.kind = .ok (.int n) := by
  rw [Value.asInt?, Option.ite_none_right_eq_some, Option.some.injEq] at h
  rw [Value.kind, h.1]
  exact congrArg (fun r => Except.ok (Kind.int r)) h.2

section

variable (power : Double → Double → Double) {m : Machine Reference.State}
  (hf : m.runtime.failNext = none) {x : Value}

include hf in
/-- The counterpart gives for any operand what the operator gives. -/
theorem seen_counterpart (hx : x.dangling = false) (op : UnaryOp) :
    seen ((interpreterWith power).binary op.counterpart x (.ofInt op.constant) m) =
      .attempted op.onNumber (m.runtime.numberOf x) := by
  have hnumber := Value.isNumber_ofInt op.constant
  have hy : (Value.ofInt op.constant).dangling = false := Value.shown_of_number hnumber.tag
  have hpair : seen ((interpreterWith power).binary op.counterpart x (.ofInt op.constant) m) =
      .attempted id (m.runtime.withNumbers (fun a b => op.counterpart.onNumbers power a b) x
        (.ofInt op.constant)) := by
    cases op with
    | bitNot => exact seen_logic_of_shown hx hy hf power .xor
    | _ => exact seen_arith_of_shown hx hy hf power fun h => absurd h.1 nofun
  rw [hpair, State.withNumbers, m.runtime.numberOf_of_isNumber hnumber]
  cases m.runtime.numberOf x with
  | ok a => exact (op.onNumber_eq power a).symm
  | error e => rfl

end

/-- **Unary operators agree with their counterparts**, on every machine on which no failure was
prepared. -/
theorem counterparts_agree (power : Double → Double → Double) (m : Machine Reference.State)
    (hf : m.runtime.failNext = none) : Counterparts (interpreterWith power) m where
  outcome op _ hx := sameOutcome_of_seen op.exists_onNumber (seen_unary_of_shown hx hf power op)
    (seen_counterpart power hf hx op)
  pattern op x hop hx := by
    obtain ⟨n, hn⟩ := Option.isSome_iff_exists.mp hx
    exact ⟨_, unary_answers _ hn hop, binary_answers _ hn
      (Value.asInt?_of_kind (Value.kind_ofInt _)) (op.ofInt_eq n)⟩
  plus x n hn := by
    have hplus : (interpreterWith power).unaryOp .plus x m = .ok x m := by
      rw [unaryOp_eq, UnaryOp.inline?, hn]
      rfl
    refine ⟨hplus, binary_answers _ hn (Value.asInt?_of_kind (Value.kind_ofInt _))
      (UnaryOp.plus.ofInt_eq n), fun h => ⟨.int n, h.symm⟩, fun h => ?_⟩
    exact (Value.ofKind_of_canonical h (kind_of_asInt? hn)).symm

/-- A machine that keeps a journal, with a text on its heap. -/
theorem counterparts_agree_text : textMachine.runtime.failNext = none ∧
    Counterparts (interpreterWith fun x _ => x) textMachine :=
  ⟨rfl, counterparts_agree (fun x _ => x) textMachine rfl⟩

/-- Five, with payload bits that no reader of integers looks at. -/
def paddedFive : Value := ⟨0x7ff9000100000005⟩

/-- On such a pattern the plus sign and the difference to zero are the same integer under different
patterns. -/
theorem plus_keeps_pattern : textMachine.runtime.failNext = none ∧
    paddedFive.dangling = false ∧ paddedFive.asInt? = some 5 ∧
    interpreter.unaryOp .plus paddedFive textMachine = .ok paddedFive textMachine ∧
    interpreter.binary (.arith .sub) paddedFive (.ofInt 0) textMachine = .ok (.ofInt 5) textMachine ∧
    paddedFive ≠ .ofInt 5 :=
  ⟨rfl, by decide, by decide, rfl, rfl, by decide⟩

end TieredVm
