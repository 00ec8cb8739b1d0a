import TieredVm.Proofs.Decimal.Integer
import TieredVm.Proofs.Reference.Conversions
import TieredVm.Proofs.Value.Number
import TieredVm.Reference.Entries

/-!
# Operands the interpreter cannot tell apart

The reference interpreter asks a number for its number, its text, its truth and its category, and gets
the same answer however the number is stored (`toText_of_isNumber` and its companions). Values are
interchangeable when they are the same value or the same number (`Value.Interchangeable`), and an entry
of the interpreter is the same program on interchangeable operands (`entry_congr`): not only do both
answer alike on each machine, they do the same steps.
-/

namespace TieredVm

/-- The same value or the same number. -/
def Value.Interchangeable (x y : Value) : Prop := x = y ∨ ∃ d, x.IsNumber d ∧ y.IsNumber d

theorem Value.Interchangeable.refl (x : Value) : x.Interchangeable x := .inl rfl

namespace Reference

/-! ## Conversions of a number -/

theorem asPointer?_of_isNumber {v : Value} {d : Double} (h : v.IsNumber d) (t : Tag) :
    v.asPointer? t = .ok none := by
  obtain ⟨n, hk, -⟩ | hk := h.kind <;> exact Value.asPointer?_of_kind hk t

namespace State

variable (s : State) {v w : Value} {d : Double}

theorem isNothing_of_isNumber (h : v.IsNumber d) : isNothing v = .ok false := by
  unfold isNothing
  obtain ⟨n, hk, -⟩ | hk := h.kind <;> rw [hk] <;> rfl

theorem toNumber_of_isNumber (h : v.IsNumber d) : s.toNumber v = pure d := by
  unfold toNumber
  obtain ⟨n, hk, rfl⟩ | hk := h.kind <;> rw [hk] <;> rfl

/-- An integer is written with the same digits either way. -/
theorem toText_of_isNumber (h : v.IsNumber d) : s.toText v = .ok d.plainText := by
  unfold toText
  obtain ⟨n, hk, rfl⟩ | hk := h.kind
  · rw [hk, Double.ofInt32, Double.plainText_ofInt (Double.natAbs_toInt_lt n)]
    rfl
  · rw [hk]
    rfl

theorem toCategory_of_isNumber (h : v.IsNumber d) : s.toCategory v = .ok .number := by
  unfold toCategory
  obtain ⟨n, hk, -⟩ | hk := h.kind <;> rw [hk] <;> rfl

theorem textOf?_of_isNumber (h : v.IsNumber d) : s.textOf? v = .ok none := by
  unfold textOf?
  rw [asPointer?_of_isNumber h]
  rfl

/-- Only a number can be equal to a number. -/
theorem beq_of_isNumber (h : v.IsNumber d) (hw : w.asNumber? = .ok none) : (v == w) = false := by
  rw [beq_eq_false_iff_ne]
  rintro rfl
  exact absurd (h.symm.trans hw) (by simp)

/-- What a number equals is decided by the number of the other side. -/
theorem strictEqual_of_isNumber_left (h : v.IsNumber d) (w : Value) :
    s.strictEqual v w = w.asNumber?.map fun o => o.any (d.numEq ·) := by
  unfold strictEqual
  rw [h]
  cases hw : w.asNumber? with
  | error e => rfl
  | ok o =>
    cases o with
    | some e => rfl
    | none =>
      rw [textOf?_of_isNumber s h]
      show Except.ok (v == w) = _
      rw [beq_of_isNumber h hw]
      rfl

theorem strictEqual_of_isNumber_right (v : Value) (h : w.IsNumber d) :
    s.strictEqual v w = v.asNumber?.map fun o => o.any (·.numEq d) := by
  unfold strictEqual
  rw [h]
  cases hv : v.asNumber? with
  | error e => rfl
  | ok o =>
    cases o with
    | some e => rfl
    | none =>
      have hne : (v == w) = false := by
        rw [BEq.comm]
        exact beq_of_isNumber h hv
      obtain ⟨k, hk⟩ := Value.exists_kind_of_asNumber? hv
      obtain ⟨t, ht⟩ := s.exists_textOf? (v := v) (by rw [Value.dangling, hk])
      rw [ht, textOf?_of_isNumber s h, hne]
      cases t <;> rfl

/-- Values of one tag are both numbers if one of them is. -/
theorem isSome_of_tag_eq (h : v.IsNumber d) (ht : v.tag = w.tag) :
    w.asNumber?.map Option.isSome = .ok true := by
  have hw : w.tag = .int ∨ w.tag = .float64 := ht ▸ h.tag
  obtain ⟨e, he⟩ := Value.isNumber_iff_tag.mpr hw
  rw [he]
  rfl

theorem comparable_of_isNumber_left (h : v.IsNumber d) (w : Value) :
    comparable v w = w.asNumber?.map Option.isSome := by
  unfold comparable
  split
  case isTrue ht => exact (isSome_of_tag_eq h ht).symm
  case isFalse =>
    rw [h]
    cases w.asNumber? <;> rfl

theorem comparable_of_isNumber_right (v : Value) (h : w.IsNumber d) :
    comparable v w = v.asNumber?.map Option.isSome := by
  unfold comparable
  split
  case isTrue ht => exact (isSome_of_tag_eq h ht.symm).symm
  case isFalse =>
    rw [h]
    cases v.asNumber? with
    | error e => rfl
    | ok o => cases o <;> rfl

end State

end Reference

/-! ## Conversions of interchangeable values -/

namespace Value.Interchangeable

open Reference

variable {x x' y y' : Value} (s : State)

section

variable (h : x.Interchangeable x')

include h

theorem asNumber? : x.asNumber? = x'.asNumber? := by
  obtain rfl | ⟨d, hx, hx'⟩ := h
  · rfl
  · exact hx.trans hx'.symm

theorem asPointer? (t : Tag) : x.asPointer? t = x'.asPointer? t := by
  obtain rfl | ⟨d, hx, hx'⟩ := h
  · rfl
  · rw [asPointer?_of_isNumber hx, asPointer?_of_isNumber hx']

theorem isNothing : State.isNothing x = State.isNothing x' := by
  obtain rfl | ⟨d, hx, hx'⟩ := h
  · rfl
  · rw [State.isNothing_of_isNumber hx, State.isNothing_of_isNumber hx']

theorem toNumber : s.toNumber x = s.toNumber x' := by
  obtain rfl | ⟨d, hx, hx'⟩ := h
  · rfl
  · rw [s.toNumber_of_isNumber hx, s.toNumber_of_isNumber hx']

theorem toInt32 : s.toInt32 x = s.toInt32 x' := by
  unfold State.toInt32
  rw [h.toNumber s]

theorem toText : s.toText x = s.toText x' := by
  obtain rfl | ⟨d, hx, hx'⟩ := h
  · rfl
  · rw [s.toText_of_isNumber hx, s.toText_of_isNumber hx']

theorem textOf? : s.textOf? x = s.textOf? x' := by
  obtain rfl | ⟨d, hx, hx'⟩ := h
  · rfl
  · rw [s.textOf?_of_isNumber hx, s.textOf?_of_isNumber hx']

theorem tag_heap (t : HeapTag) : x.tag = .heap t ↔ x'.tag = .heap t := by
  obtain rfl | ⟨d, hx, hx'⟩ := h
  · rfl
  · have hne : ∀ {v : Value}, v.IsNumber d → v.tag ≠ .heap t := fun hv ht => by
      rcases hv.tag with h | h <;> rw [ht] at h <;> exact absurd h nofun
    exact iff_of_false (hne hx) (hne hx')

end

variable (hx : x.Interchangeable x') (hy : y.Interchangeable y')

include hx hy

theorem comparable : State.comparable x y = State.comparable x' y' := by
  obtain rfl | ⟨d, hxd, hxd'⟩ := hx
  · obtain rfl | ⟨e, hye, hye'⟩ := hy
    · rfl
    · rw [State.comparable_of_isNumber_right x hye, State.comparable_of_isNumber_right x hye']
  · rw [State.comparable_of_isNumber_left hxd, State.comparable_of_isNumber_left hxd', hy.asNumber?]

theorem strictEqual : s.strictEqual x y = s.strictEqual x' y' := by
  obtain rfl | ⟨d, hxd, hxd'⟩ := hx
  · obtain rfl | ⟨e, hye, hye'⟩ := hy
    · rfl
    · rw [s.strictEqual_of_isNumber_right x hye, s.strictEqual_of_isNumber_right x hye']
  · rw [s.strictEqual_of_isNumber_left hxd, s.strictEqual_of_isNumber_left hxd', hy.asNumber?]

theorem looseEqual : s.looseEqual x y = s.looseEqual x' y' := by
  unfold State.looseEqual
  simp only [hx.isNothing, hy.isNothing, hx.comparable hy, hx.strictEqual s hy, hx.tag_heap,
    hy.tag_heap, hx.toNumber s, hy.toNumber s]

end Value.Interchangeable

/-! ## Entries -/

namespace Reference

open Attempt (lift)

variable {x x' y y' : Value}

theorem result_answer {n : Nat} (operands : Operands (n + 1)) (v : Value) :
    Operands.result <$> answer operands v = (pure v : Attempt State Value) := by
  rw [answer, map_pure, Operands.result_withResult]

theorem joinOrAdd_congr (hx : x.Interchangeable x') (hy : y.Interchangeable y') :
    joinOrAdd x y = joinOrAdd x' y' := by
  unfold joinOrAdd
  simp only [hx.tag_heap, hy.tag_heap, hx.toText, hy.toText, hx.toNumber, hy.toNumber]

/-- No function stands behind a number. -/
theorem operandValue_of_isNumber (plus : Value → Value → Run State Value) {d : Double}
    (h : x.IsNumber d) : operandValue plus x = pure x := by
  unfold operandValue
  rw [asPointer?_of_isNumber h]
  rfl

theorem operandValue_bind_congr {α : Type} (plus : Value → Value → Run State Value)
    (hx : x.Interchangeable x') {f g : Value → Attempt State α}
    (hfg : ∀ v v', v.Interchangeable v' → f v = g v') :
    operandValue plus x >>= f = operandValue plus x' >>= g := by
  obtain rfl | ⟨d, hxd, hxd'⟩ := hx
  · exact bind_congr fun v => hfg v v (.refl v)
  · rw [operandValue_of_isNumber plus hxd, operandValue_of_isNumber plus hxd', pure_bind, pure_bind]
    exact hfg x x' (.inr ⟨d, hxd, hxd'⟩)

theorem orderOf_congr (hx : x.Interchangeable x') (hy : y.Interchangeable y') :
    orderOf x y = orderOf x' y' := by
  unfold orderOf
  simp only [hx.textOf?, hy.textOf?, hx.toNumber, hy.toNumber]

theorem addEntry_congr (plus : Value → Value → Run State Value) (hx : x.Interchangeable x')
    (hy : y.Interchangeable y') :
    Operands.result <$> addEntry plus (.pair x y) =
      Operands.result <$> addEntry plus (.pair x' y') := by
  unfold addEntry
  simp only [map_bind, Operands.lhs_pair, Operands.rhs_pair, result_answer]
  refine bind_congr fun _ => operandValue_bind_congr plus hx fun v v' hv => ?_
  refine operandValue_bind_congr plus hy fun w w' hw => ?_
  rw [joinOrAdd_congr hv hw]

/-- A number makes nothing. -/
theorem instanceOf_of_isNumber (x : Value) {d : Double} (h : y.IsNumber d) :
    instanceOf (.pair x y) = (do
      entered .instanceOf
      throw (.typeError "right-hand side of 'instanceof' is not callable")) := by
  unfold instanceOf
  rw [Operands.rhs_pair, asPointer?_of_isNumber h]
  rfl

/-- A number holds nothing. -/
theorem contains_of_isNumber (x : Value) {d : Double} (h : y.IsNumber d) :
    contains (.pair x y) = (do
      entered .contains
      let _ ← lift (observe (·.toText x))
      throw (.typeError "cannot use 'in' operator to search for a key in a primitive")) := by
  unfold contains
  rw [Operands.rhs_pair, asPointer?_of_isNumber h]
  rfl

/-- An entry does the same on interchangeable operands. -/
theorem entry_congr (power : Double → Double → Double) (op : BinaryOp)
    (hx : x.Interchangeable x') (hy : y.Interchangeable y') :
    Operands.result <$> op.entry (interpreterWith power) (.pair x y) =
      Operands.result <$> op.entry (interpreterWith power) (.pair x' y') := by
  cases op with
  | add =>
    simp only [BinaryOp.entry, interpreterWith, add, map_bind, addEntry_congr _ hx hy]
  | arith op =>
    simp only [BinaryOp.entry, interpreterWith, arith, map_bind, result_answer, Operands.lhs_pair,
      Operands.rhs_pair, hx.toNumber, hy.toNumber]
  | logic op =>
    simp only [BinaryOp.entry, interpreterWith, logic, map_bind, result_answer, Operands.lhs_pair,
      Operands.rhs_pair, hx.toInt32, hy.toInt32]
  | shr =>
    simp only [BinaryOp.entry, interpreterWith, shr, map_bind, result_answer, Operands.lhs_pair,
      Operands.rhs_pair, hx.toInt32, hy.toInt32]
  | relational op =>
    simp only [BinaryOp.entry, interpreterWith, relational, map_bind, result_answer,
      Operands.lhs_pair, Operands.rhs_pair, orderOf_congr hx hy]
  | equal n =>
    simp only [BinaryOp.entry, interpreterWith, equal, map_bind, result_answer,
      Operands.lhs_pair, Operands.rhs_pair, hx.looseEqual _ hy]
  | strictEqual n =>
    simp only [BinaryOp.entry, interpreterWith, strictEqual, map_bind, result_answer,
      Operands.lhs_pair, Operands.rhs_pair, hx.strictEqual _ hy]
  | instanceOf =>
    obtain rfl | ⟨d, hyd, hyd'⟩ := hy
    · simp only [BinaryOp.entry, interpreterWith, instanceOf, map_bind, Operands.lhs_pair,
        Operands.rhs_pair, hx.asPointer?]
      refine bind_congr fun _ => bind_congr fun maker => bind_congr fun m => ?_
      split <;> simp only [map_bind, result_answer]
    · simp only [BinaryOp.entry, interpreterWith, instanceOf_of_isNumber _ hyd,
        instanceOf_of_isNumber _ hyd']
  | contains =>
    obtain rfl | ⟨d, hyd, hyd'⟩ := hy
    · simp only [BinaryOp.entry, interpreterWith, contains, map_bind, Operands.lhs_pair,
        Operands.rhs_pair, hx.toText]
      refine bind_congr fun _ => bind_congr fun key => bind_congr fun holder => bind_congr fun m => ?_
      cases holder.bind m.runtime.cellAt? with
      | none => rfl
      | some cell =>
        cases cell with
        | text t => rfl
        | object keys constructor => exact (result_answer _ _).trans (result_answer _ _).symm
        | function code captured => exact (result_answer _ _).trans (result_answer _ _).symm
    · simp only [BinaryOp.entry, interpreterWith, contains_of_isNumber _ hyd,
        contains_of_isNumber _ hyd', hx.toText]

end Reference

end TieredVm
