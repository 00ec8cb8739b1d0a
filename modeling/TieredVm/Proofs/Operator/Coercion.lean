import TieredVm.Proofs.Operator.Bitwise
import TieredVm.Proofs.Operator.Numbers
import TieredVm.Proofs.Value.Normal

/-!
# Bitwise operators on numbers

A bitwise operator answers inline for two stored integers only. Any other pair of numbers goes to the
interpreter, which converts each to a 32-bit integer (`Coerces`) and combines those. What it writes back
is the value that the inline answer is for the converted operands, bit for bit: a double that the
zero-filling shift gives is normalised to the same form that promotion gives it.

* `number_ofInt_checked`: normalising and promoting an integer are the same.
* `BinaryOp.writes_bitwise`, `writes_bitNot`: what the interpreter's entries write.
* `bitwise_coercion`: the operators, for numbers however they are stored.
-/

namespace TieredVm

open Reference

/-! ## What the operators give -/

/-- A value is this number, and the interpreter converts it to this word. -/
structure Reference.Coerces (s : State) (v : Value) (d : Double) (r : Int32) : Prop where
  number : v.IsNumber d
  read : (s.toInt32 v).run = .ok (.ok r)
  converts : d.ConvertsTo r

/-- The binary operators that work on words. -/
def BinaryOp.isBitwise : BinaryOp → Bool
  | logic _ | shr => true
  | _ => false

/-- A call answers, with the number that another call answers inline. -/
def SameAsInline (m : Machine State) (call inline : Run State Value) : Prop :=
  ∃ v d m', v.IsNumber d ∧ call m = .ok v m' ∧ inline m = .ok v m

/-- Numbers are coerced to words, and bitwise operators give for them what they give inline for the
words. -/
structure WordCoercion (I : Interpreter State) : Prop where
  coerces : ∀ (s : State) (v : Value), v.tag = .int ∨ v.tag = .float64 → ∃ d r, Coerces s v d r
  binary : ∀ {op : BinaryOp} {m : Machine State} {x y : Value} {d e : Double} {a b : Int32},
    op.isBitwise = true → Coerces m.runtime x d a → Coerces m.runtime y e b →
    m.runtime.failNext = none →
    SameAsInline m (I.binary op x y) (I.binary op (.ofInt a) (.ofInt b))
  bitNot : ∀ {m : Machine State} {x : Value} {d : Double} {a : Int32},
    Coerces m.runtime x d a → m.runtime.failNext = none →
    SameAsInline m (I.unaryOp .bitNot x) (I.unaryOp .bitNot (.ofInt a))

/-! ## Conversions -/

theorem Value.IsNumber.run_toInt32 {v : Value} {d : Double} (h : v.IsNumber d) (s : State) :
    (s.toInt32 v).run = .ok (.ok d.toInt32) := by
  rw [State.toInt32, State.toNumber_of_isNumber s h]
  rfl

theorem Value.IsNumber.coerces {v : Value} {d : Double} (h : v.IsNumber d) (s : State) :
    Coerces s v d d.toInt32 :=
  ⟨h, h.run_toInt32 s, d.convertsTo_toInt32⟩

theorem Reference.Coerces.eq_toInt32 {s : State} {v : Value} {d : Double} {r : Int32}
    (h : Coerces s v d r) : r = d.toInt32 :=
  Except.ok.inj (Except.ok.inj (h.read.symm.trans (h.number.run_toInt32 s)))

/-! ## What is written back -/

/-- An integer is normalised as it is promoted. -/
theorem Value.number_ofInt_checked {z : Int} (hz : z.natAbs < 2 ^ 53) :
    number (Double.ofInt z) = match checkedInt32 z with
      | some r => ofInt r
      | none => ofDouble (Double.ofInt z) := by
  cases hc : checkedInt32 z with
  | some r =>
    rw [← toInt_of_checked hc]
    exact number_ofInt32 r
  | none =>
    refine number_eq_ofDouble fun n hn => toInt_ne_of_unchecked hc n ?_
    have hworth := Double.worth?_ofInt (Double.natAbs_toInt_lt n)
    rw [← Double.ofInt32, ← (number_eq_ofInt_iff n).mp hn, Double.worth?_ofInt hz] at hworth
    exact_mod_cast (Double.Extended.ofRat_inj.mp (Option.some.inj hworth)).symm

theorem BinaryOp.number_unsignedShift (a b : Int32) :
    Value.number (Double.ofInt (unsignedShift a b).toNat) = shrInt a b := by
  obtain ⟨z, hz, hshr⟩ := exists_shrInt a b
  have hlt := (unsignedShift a b).toNat_lt
  rw [hshr, ← hz]
  exact Value.number_ofInt_checked (by omega)

/-- An attempt answers its operands with a value written over the first. -/
def Writes {n : Nat} (act : Attempt State (Operands (n + 1))) (m : Machine State)
    (operands : Operands (n + 1)) (v : Value) : Prop :=
  ∃ m', act.run m = .ok (.ok (operands.withResult v)) m'

theorem writes_bind {n : Nat} {α : Type} {act : Attempt State α} {f : α → Attempt State (Operands (n + 1))}
    {m m' : Machine State} {operands : Operands (n + 1)} {v : Value} {r : α}
    (hact : act.run m = .ok (.ok r) m') (hf : Writes (f r) m' operands v) :
    Writes (act >>= f) m operands v := by
  obtain ⟨m'', hrun⟩ := hf
  exact ⟨m'', (Attempt.bind_of_ok hact f).trans hrun⟩

theorem writes_answer {n : Nat} (operands : Operands (n + 1)) (m : Machine State) (v : Value) :
    Writes (answer operands v) m operands v := ⟨m, rfl⟩

/-- What an entry writes is what the hand-off answers. -/
theorem handOff_writes {n : Nat} (label : String) {entry : Entry State (n + 1)}
    {operands : Operands (n + 1)} {m : Machine State} {v : Value}
    (hrecord : m.unrecordable operands.toList = false)
    (hentry : ∀ line, Writes (entry operands) (m.noted line) operands v) :
    ∃ m', handOff label entry operands m = .ok v m' := by
  obtain ⟨line, hands⟩ := handOff_hands label entry operands m hrecord
  obtain ⟨m', hrun⟩ := hentry line
  have hanswered := hands.answered _ m' hrun
  rw [Operands.result_withResult] at hanswered
  exact ⟨m', hanswered⟩

section

variable {x y : Value} {a b : Double} (hx : x.IsNumber a) (hy : y.IsNumber b) {m : Machine State}
  (hf : m.runtime.failNext = none)

include hx hf

theorem writes_bitNot : Writes (unary .bitNot (.single x)) m (.single x) (.ofInt (~~~a.toInt32)) :=
  writes_bind (entered_of_none hf _) <|
    writes_bind (Attempt.bind_of_ok (convert_int32 hx _) _) <| writes_answer _ _ _

include hy

/-- The interpreter writes what the inline answer is for the converted operands. -/
theorem BinaryOp.writes_bitwise (power : Double → Double → Double) {op : BinaryOp} {v : Value}
    (hop : op.isBitwise = true) (hv : op.ofInts? a.toInt32 b.toInt32 = some v) :
    Writes (op.entry (interpreterWith power) (.pair x y)) m (.pair x y) v := by
  cases op with
  | logic op =>
    cases hv
    exact writes_bind (entered_of_none hf _) <| writes_bind (convert_int32 hx _) <|
      writes_bind (convert_int32 hy _) <| writes_answer _ _ _
  | shr =>
    rw [← Option.some.inj hv, ← number_unsignedShift]
    exact writes_bind (entered_of_none hf _) <| writes_bind (convert_int32 hx _) <|
      writes_bind (convert_int32 hy _) <| writes_answer _ _ _
  | _ => exact absurd hop nofun

end

/-! ## The operators -/

section

variable {op : BinaryOp} (hop : op.isBitwise = true)

include hop

theorem BinaryOp.ofDoubles?_bitwise (a b : Double) : op.ofDoubles? a b = none := by
  cases op with
  | logic op => rfl
  | shr => rfl
  | _ => exact absurd hop nofun

/-- A bitwise operator answers inline for two stored integers only. -/
theorem BinaryOp.stored_of_inline_bitwise {x y v : Value} (h : op.inline? x y = some v) :
    ∃ a b, x.asInt? = some a ∧ y.asInt? = some b ∧ op.ofInts? a b = some v := by
  have hnone : Value.bothInt? x y ≠ none := fun hboth => by
    rw [inline?, hboth] at h
    cases hdouble : Value.bothDouble? x y with
    | none =>
      rw [hdouble] at h
      cases h
    | some p =>
      rw [hdouble] at h
      have hsome := h.symm.trans (ofDoubles?_bitwise hop p.1 p.2)
      cases hsome
  cases hx : x.asInt? with
  | none =>
    rw [Value.bothInt?, hx] at hnone
    exact absurd rfl hnone
  | some a =>
    cases hy : y.asInt? with
    | none =>
      rw [Value.bothInt?, hx, hy] at hnone
      exact absurd rfl hnone
    | some b =>
      rw [inline?, Value.bothInt?, hx, hy] at h
      exact ⟨a, b, rfl, rfl, h⟩

/-- What a bitwise operator gives for two words is a number. -/
theorem BinaryOp.exists_bitwise (a b : Int32) : ∃ v d, op.ofInts? a b = some v ∧ v.IsNumber d := by
  cases op with
  | logic op => exact ⟨_, _, rfl, Value.isNumber_ofInt _⟩
  | shr => exact ⟨_, _, rfl, isNumber_shrInt a b⟩
  | _ => exact absurd hop nofun

end

/-- A stored integer is its own word. -/
theorem Reference.Coerces.of_asInt {s : State} {v : Value} {d : Double} {r n : Int32}
    (h : Coerces s v d r) (hn : v.asInt? = some n) : r = n := by
  obtain ⟨k, hk, -, rfl⟩ | ⟨hnone, -⟩ := h.number.stored
  · rw [h.eq_toInt32, Double.toInt32_ofInt32, Option.some.inj (hk.symm.trans hn)]
  · exact absurd (hnone.symm.trans hn) nofun

theorem asInt?_ofInt (n : Int32) : (Value.ofInt n).asInt? = some n :=
  Value.asInt?_of_kind (Value.kind_ofInt n)

theorem Value.IsNumber.shown {v : Value} {d : Double} (h : v.IsNumber d) : v.dangling = false :=
  Value.shown_of_number h.tag

/-- **Bitwise operators coerce their operands to words**, for numbers however they are stored. -/
theorem bitwise_coercion (power : Double → Double → Double) : WordCoercion (interpreterWith power) where
  coerces s v hv := by
    obtain ⟨d, hd⟩ := Value.isNumber_iff_tag.mpr hv
    exact ⟨d, d.toInt32, hd.coerces s⟩
  binary {op m x y d e a b} hop hx hy hf := by
    obtain ⟨v, c, hv, hc⟩ := BinaryOp.exists_bitwise hop a b
    have hinline := binary_answers (interpreterWith power) (m := m) (asInt?_ofInt a)
      (asInt?_ofInt b) hv
    cases hanswer : op.inline? x y with
    | some w =>
      obtain ⟨n, k, hn, hk, hw⟩ := BinaryOp.stored_of_inline_bitwise hop hanswer
      rw [hx.of_asInt hn, hy.of_asInt hk] at hv
      exact ⟨v, c, m, hc, binary_answers _ hn hk hv, hinline⟩
    | none =>
      have hrecord : m.unrecordable [x, y] = false :=
        recordable_of_shown m (by simp [hx.number.shown, hy.number.shown])
      have hwrites : ∀ line, Writes (op.entry (interpreterWith power) (.pair x y)) (m.noted line)
          (.pair x y) v := fun line =>
        BinaryOp.writes_bitwise hx.number hy.number (m := m.noted line) hf power hop
          (hx.eq_toInt32 ▸ hy.eq_toInt32 ▸ hv)
      obtain ⟨m', hslow⟩ := handOff_writes op.label hrecord hwrites
      refine ⟨v, c, m', hc, ?_, hinline⟩
      rw [binary_eq, hanswer]
      exact hslow
  bitNot {m x d a} hx hf := by
    have hop : UnaryOp.bitNot ≠ .plus := nofun
    have hinline : (interpreterWith power).unaryOp .bitNot (.ofInt a) m = .ok (.ofInt (~~~a)) m :=
      unary_answers _ (asInt?_ofInt a) hop
    obtain ⟨n, hn, -, -⟩ | ⟨hint, hdouble⟩ := hx.number.stored
    · rw [hx.of_asInt hn] at hinline ⊢
      exact ⟨_, _, m, Value.isNumber_ofInt _, unary_answers _ hn hop, hinline⟩
    · have hrecord : m.unrecordable [x] = false :=
        recordable_of_shown m (by simp [hx.number.shown])
      have hwrites : ∀ line, Writes (unary .bitNot (.single x)) (m.noted line) (.single x)
          (.ofInt (~~~a)) := fun line => by
        rw [hx.eq_toInt32]
        exact writes_bitNot hx.number (m := m.noted line) hf
      obtain ⟨m', hslow⟩ := handOff_writes UnaryOp.bitNot.label hrecord hwrites
      refine ⟨_, _, m', Value.isNumber_ofInt _, ?_, hinline⟩
      rw [unaryOp_eq, UnaryOp.inline?, hint, hdouble]
      exact hslow

/-- A negative fraction, and a negative count, under the shift whose answer leaves the words. -/
theorem bitwise_coercion_fraction :
    SameAsInline { runtime := {} }
      (Reference.interpreter.binary .shr (.ofDouble (Double.ofRat (-7 / 2))) (.ofInt (-32)))
      (Reference.interpreter.binary .shr (.ofInt (-3)) (.ofInt (-32))) := by
  have hword : (Double.ofRat (-7 / 2)).folded.toInt32 = -3 := by decide +kernel
  have hleft := (Value.isNumber_ofDouble (Double.ofRat (-7 / 2))).coerces {}
  have hright := (Value.isNumber_ofInt (-32)).coerces {}
  rw [hword] at hleft
  rw [Double.toInt32_ofInt32] at hright
  exact (bitwise_coercion Double.power).binary rfl hleft hright rfl

end TieredVm
