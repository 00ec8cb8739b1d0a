import TieredVm.Proofs.Canonical
import TieredVm.Recording

/-!
# Patterns that decode alike

Bits of a pattern that its decoding does not read are seen by two views only. The sentinel test compares
whole patterns, so it fails on a pattern of the sentinel's kind with other bits set. Truth, and with it
logical negation, is read from the low 32 bits of every small value, null and undefined among them.

Everything else goes by tag and decoded payload: on two patterns of one kind an operator takes the same
path, makes the same calls, and answers inline with values of one kind.

* `Value.Alike`, `Call.Alike`: two patterns of one kind, two calls up to operands of one kind.
* `BinaryOp.inline?_of_alike`, `UnaryOp.inline?_of_alike`: inline answers go by kinds.
* `toBool_answer_of_kind`: truth goes by kinds too, but of null and undefined, as far as the interpreter's
  answers do.
* `Interpreter.typeOfCalls_alike`: so do the calls that ask for a category, all of them in turn.
* `unread_bits_of_operands`: which views see the bits that decoding does not read.
-/

namespace TieredVm

variable {R α : Type}

namespace Value

variable {v w : Value} {k : Kind}

/-- Two patterns with one decoding. -/
def Alike (v w : Value) : Prop := ∃ k, v.kind = .ok k ∧ w.kind = .ok k

theorem dangling_of_kind (h : v.kind = .ok k) : v.dangling = false := by rw [dangling, h]

theorem Alike.dangling (h : v.Alike w) : v.dangling = false ∧ w.dangling = false := by
  obtain ⟨k, hv, hw⟩ := h
  exact ⟨dangling_of_kind hv, dangling_of_kind hw⟩

theorem Alike.tag (h : v.Alike w) : v.tag = w.tag := by
  obtain ⟨k, hv, hw⟩ := h
  rw [tag_of_kind hv, tag_of_kind hw]

/-! ## The sentinel test and the payload of truth -/

theorem isException_of_kind (h : v.kind = .ok k) (hk : k ≠ .exception) : v.isException = false := by
  refine beq_eq_false_iff_ne.mpr fun hv => hk ?_
  subst hv
  exact (Except.ok.inj h).symm

/-- Under the sentinel's tag the test asks for an empty payload. -/
theorem isException_iff_payload (h : v.kind = .ok .exception) :
    v.isException = true ↔ v.payload = 0 := by
  have hbox : v.box = 0x7fff := by
    have ht : Tag.ofBox v.box = .exception := tag_of_kind h
    simp only [Tag.ofBox, apply_ite (· = Tag.exception), reduceCtorEq] at ht
    simp_all
  rw [isException, beq_iff_eq]
  constructor
  · rintro rfl
    rfl
  · intro hp
    rw [← boxed_box_payload v, hbox, hp]
    rfl

theorem lowInt_eq_zero_iff : v.lowInt = 0 ↔ v.low = 0 := by
  have hlow : v.low < UInt32.size := Nat.mod_lt _ (by decide)
  constructor
  · intro h
    have hword : UInt32.ofNat v.low = 0 := (UInt32.toUInt32_toInt32 _).symm.trans (congrArg _ h)
    rw [← UInt32.toNat_ofNat_of_lt' hlow, hword]
    rfl
  · intro h
    rw [lowInt, h]
    rfl

/-- Null and undefined apart, the payload of truth is the truth of the kind. -/
theorem lowInt_of_truth {b : Bool} (h : v.kind = .ok k) (hb : k.truth? = some b) (hnull : k ≠ .null)
    (hundefined : k ≠ .undefined) : (v.lowInt != 0) = b := by
  obtain ⟨-, hint, hbool, -⟩ := fields_of_kind h
  cases k with
  | int n => exact hint n rfl ▸ Option.some.inj hb
  | bool c =>
    rw [← Option.some.inj hb, ← hbool c rfl, Bool.eq_iff_iff, bne_iff_ne, bne_iff_ne]
    exact not_congr lowInt_eq_zero_iff
  | null => exact absurd rfl hnull
  | undefined => exact absurd rfl hundefined
  | _ => exact absurd hb nofun

end Value

/-! ## Inline answers -/

section

variable {x x' y y' : Value}

/-- The inline answer of a binary operator is a function of the kinds of its operands. -/
theorem BinaryOp.inline?_of_alike (op : BinaryOp) (hx : x.Alike x') (hy : y.Alike y') :
    op.inline? x y = op.inline? x' y' := by
  obtain ⟨k, hx, hx'⟩ := hx
  obtain ⟨l, hy, hy'⟩ := hy
  have hi : Value.bothInt? x y = Value.bothInt? x' y' := by
    rw [(Value.readsAs_of_kind hx).bothInt? y l hy, (Value.readsAs_of_kind hx').bothInt? y' l hy']
  have hd : Value.bothDouble? x y = Value.bothDouble? x' y' := by
    rw [(Value.readsAs_of_kind hx).bothDouble? y l hy, (Value.readsAs_of_kind hx').bothDouble? y' l hy']
  rw [inline?, inline?, hi, hd]

/-- The kind of the inline answer of a unary operator is one of the kind of its operand. The answer
itself need not be: the plus sign gives its operand back. -/
theorem UnaryOp.inline?_of_alike (op : UnaryOp) (h : x.Alike x') :
    (∃ v v', op.inline? x = some v ∧ op.inline? x' = some v' ∧ v.Alike v') ∨
      op.inline? x = none ∧ op.inline? x' = none := by
  have ⟨k, hk, hk'⟩ := h
  unfold inline?
  rw [Value.asInt?_of_kind hk, Value.asInt?_of_kind hk', Value.asDouble?_of_kind hk,
    Value.asDouble?_of_kind hk']
  by_cases hop : op = .plus
  · subst hop
    cases k with
    | int n => exact .inl ⟨x, x', rfl, rfl, h⟩
    | float64 d => exact .inl ⟨x, x', rfl, rfl, h⟩
    | _ => exact .inr ⟨rfl, rfl⟩
  · have hself : ∀ {v : Value}, v.Scalar → v.Alike v := fun hv => by
      obtain ⟨l, hl⟩ := Value.exists_kind_of_canonical hv.canonical
      exact ⟨l, hl, hl⟩
    cases k with
    | int n =>
      have hv := op.scalar_ofInt n
      simp only [Kind.int?, if_neg hop]
      exact .inl ⟨_, _, rfl, rfl, hself hv⟩
    | float64 d =>
      simp only [Kind.int?, Kind.double?, if_neg hop]
      cases hd : op.ofDouble? d with
      | some v => exact .inl ⟨v, v, rfl, rfl, hself (scalar_ofDouble? hd)⟩
      | none => exact .inr ⟨rfl, rfl⟩
    | _ => exact .inr ⟨rfl, rfl⟩

end

/-! ## Calls -/

/-- Two calls of one entry, up to operands that decode alike. -/
inductive Call.Alike : Call → Call → Prop where
  | entry (e : EntryPoint) {operands operands' : List Value} :
    List.Forall₂ Value.Alike operands operands' → Call.Alike (.entry e operands) (.entry e operands')
  | truth {v v' : Value} : v.Alike v' → Call.Alike (.truth v) (.truth v')
  | category {v v' : Value} : v.Alike v' → Call.Alike (.category v) (.category v')
  | release {v v' : Value} : v.Alike v' → Call.Alike (.release v) (.release v')
  | categoryText (c : Category) : Call.Alike (.categoryText c) (.categoryText c)

/-- Two operations make the same calls from a machine, up to operands that decode alike. Next to each
stands the same operation on the interpreter whose calls are listed. -/
def CallsAlike (m : Machine R) (run run' : Run R α) (listed listed' : Run (Observed R) α) : Prop :=
  ∃ made made', List.Forall₂ Call.Alike made made' ∧ ∀ calls,
    listed (m.observed calls) = Result.observed (calls ++ made) (run m) ∧
    listed' (m.observed calls) = Result.observed (calls ++ made') (run' m)

section

variable {x x' y y' : Value}

theorem BinaryOp.calls_alike (op : BinaryOp) (m : Machine R) (hx : x.Alike x') (hy : y.Alike y') :
    List.Forall₂ Call.Alike (op.calls m x y) (op.calls m x' y') := by
  have hinline : op.answersInline x.tag y.tag = op.answersInline x'.tag y'.tag := by
    rw [← op.inline?_isSome, ← op.inline?_isSome, op.inline?_of_alike hx hy]
  have hshown : m.unrecordable [x, y] = m.unrecordable [x', y'] := by
    simp only [Machine.unrecordable, List.any_cons, List.any_nil, hx.dangling, hy.dangling]
  rw [calls, calls, hinline, hshown]
  split
  · exact .nil
  · exact .cons (.entry _ (.cons hx (.cons hy .nil))) .nil

theorem UnaryOp.calls_alike (op : UnaryOp) (m : Machine R) (h : x.Alike x') :
    List.Forall₂ Call.Alike (op.calls m x) (op.calls m x') := by
  have hshown : m.unrecordable [x] = m.unrecordable [x'] := by
    simp only [Machine.unrecordable, List.any_cons, List.any_nil, h.dangling]
  rw [calls, calls, h.tag, hshown]
  split
  · exact .nil
  · exact .cons (.entry _ (.cons h .nil)) .nil

theorem Value.truthCalls_alike (h : x.Alike x') :
    List.Forall₂ Call.Alike x.truthCalls x'.truthCalls := by
  rw [truthCalls, truthCalls, h.tag]
  split
  · exact .nil
  · exact .cons (.truth h) .nil

/-- What an interpreter is asked before the text of a category: which one it is, and to release the
value. -/
def Interpreter.categoryReleased (I : Interpreter R) (x : Value) : Local R Category := do
  let category ← I.category x
  I.release x
  return category

theorem Interpreter.categoryReleased_of_ok (I : Interpreter R) {r r₁ : R} {c : Category}
    (h : I.category x r = .ok c r₁) :
    I.categoryReleased x r = ((fun _ => c) <$> I.release x) r₁ :=
  (Result.bind_of_ok h _).trans (by rw [map_eq_pure_bind])

/-- **What is asked about the category of a value goes by its kind**, as long as the interpreter answers
the same: the category, and whether the value can be released, which may be asked in another state. -/
theorem Interpreter.typeOfCalls_alike (I : Interpreter R) {r : R} (h : x.Alike x')
    (hcategory : Result.answer (I.category x r) = Result.answer (I.category x' r))
    (hreleased : Result.answer (I.categoryReleased x r) = Result.answer (I.categoryReleased x' r)) :
    List.Forall₂ Call.Alike (I.typeOfCalls x r) (I.typeOfCalls x' r) := by
  unfold typeOfCalls
  rcases Result.cases_of_answer_eq hcategory with ⟨c, r₁, r₁', hc, hc'⟩ | ⟨e, r₁, r₁', hc, hc'⟩
  · rw [I.categoryReleased_of_ok hc, I.categoryReleased_of_ok hc'] at hreleased
    rcases Result.cases_of_answer_eq hreleased with ⟨_, r₂, r₂', hr, hr'⟩ | ⟨e, r₂, r₂', hr, hr'⟩
    · obtain ⟨_, hr, -⟩ := Result.ok_of_map hr
      obtain ⟨_, hr', -⟩ := Result.ok_of_map hr'
      simp only [hc, hc', hr, hr']
      exact .cons (.category h) (.cons (.release h) (.cons (.categoryText c) .nil))
    · simp only [hc, hc', Result.error_of_map hr, Result.error_of_map hr']
      exact .cons (.category h) (.cons (.release h) .nil)
  · simp only [hc, hc']
    exact .cons (.category h) .nil

end

/-! ## Truth -/

section

variable (I : Interpreter R) (x : Value) {x' : Value} {k : Kind} (m : Machine R)

theorem Run.answer_onRuntime (act : Local R α) :
    Result.answer (onRuntime act m) = Result.answer (act m.runtime) := by
  rw [onRuntime]
  cases act m.runtime with
  | ok a r => rfl
  | error s r =>
    cases s with
    | abort a => rfl
    | panic p => cases p <;> rfl

/-- The machine that reading the truth of a value leaves. -/
def Interpreter.afterTruth : Machine R :=
  if x.tag.isSmall then m else Result.state (Run.onRuntime (I.truth x) m)

theorem toBool_state : Result.state (I.toBool x m) = I.afterTruth x m := by
  cases h : x.tag.isSmall with
  | true =>
    rw [Interpreter.afterTruth, if_pos h, toBool_small I h]
    rfl
  | false => rw [Interpreter.afterTruth, if_neg (by simp [h]), toBool_not_small I h]

/-- A negation is read off a truth value, or else it is the negation of a truth. -/
theorem logicalNot_eq : I.logicalNot x = match x.asBool? with
    | some b => pure (.ofBool !b)
    | none => (fun b => .ofBool !b) <$> I.toBool x := by
  rw [Interpreter.logicalNot]
  cases x.asBool? with
  | some b => rfl
  | none => exact bind_pure_comp _ _

theorem logicalNot_state : Result.state (I.logicalNot x m) = I.afterTruth x m := by
  rw [logicalNot_eq]
  cases hb : x.asBool? with
  | some b =>
    rw [Interpreter.afterTruth, if_pos (isSmall_of_asBool? hb)]
    rfl
  | none => exact (Result.state_map _ _ m).trans (toBool_state I x m)

variable {x m}

/-- The kinds with a truth of their own are the small ones. -/
theorem Kind.tag_isSmall (k : Kind) : k.tag.isSmall = k.truth?.isSome := by cases k <;> rfl

/-- **Truth goes by kinds** but of null and undefined, as far as the interpreter's answers do. -/
theorem toBool_answer_of_kind (hx : x.kind = .ok k) (hx' : x'.kind = .ok k) (hnull : k ≠ .null)
    (hundefined : k ≠ .undefined) (hI : k.tag.isSmall = false →
      Result.answer (I.truth x m.runtime) = Result.answer (I.truth x' m.runtime)) :
    Result.answer (I.toBool x m) = Result.answer (I.toBool x' m) := by
  cases hb : k.truth? with
  | some b =>
    have hsmall : k.tag.isSmall = true := by rw [k.tag_isSmall, hb]; rfl
    rw [toBool_small I ((Value.tag_of_kind hx).symm ▸ hsmall),
      toBool_small I ((Value.tag_of_kind hx').symm ▸ hsmall),
      Value.lowInt_of_truth hx hb hnull hundefined, Value.lowInt_of_truth hx' hb hnull hundefined]
  | none =>
    have hsmall : k.tag.isSmall = false := by rw [k.tag_isSmall, hb]; rfl
    rw [toBool_not_small I ((Value.tag_of_kind hx).symm ▸ hsmall),
      toBool_not_small I ((Value.tag_of_kind hx').symm ▸ hsmall), Run.answer_onRuntime,
      Run.answer_onRuntime]
    exact hI hsmall

/-- A negation goes by kinds where truth does. -/
theorem logicalNot_answer_of_kind (hx : x.kind = .ok k) (hx' : x'.kind = .ok k)
    (h : Result.answer (I.toBool x m) = Result.answer (I.toBool x' m)) :
    Result.answer (I.logicalNot x m) = Result.answer (I.logicalNot x' m) := by
  rw [logicalNot_eq, logicalNot_eq, Value.asBool?_of_kind hx, Value.asBool?_of_kind hx']
  cases k.bool? with
  | some b => rfl
  | none =>
    dsimp only
    rw [Result.answer_map, Result.answer_map, h]

end

/-! ## What the operators see -/

/-- Which views of two patterns that decode alike tell them apart. -/
structure UnreadBits (I : Interpreter R) : Prop where
  /-- The sentinel test does not, but under the sentinel's own tag, -/
  isException_same : ∀ (x x' : Value) k, x.kind = .ok k → x'.kind = .ok k → k ≠ .exception →
    x.isException = x'.isException
  /-- where only the empty payload passes it. -/
  isException_iff : ∀ x : Value, x.kind = .ok .exception → (x.isException = true ↔ x.payload = 0)
  /-- Truth and negation make the same calls, -/
  toBool_calls : ∀ x x' m, x.Alike x' →
    CallsAlike m (I.toBool x) (I.toBool x') (I.observed.toBool x) (I.observed.toBool x')
  logicalNot_calls : ∀ x x' m, x.Alike x' → CallsAlike m (I.logicalNot x) (I.logicalNot x')
    (I.observed.logicalNot x) (I.observed.logicalNot x')
  /-- and answer the same, where the interpreter is asked as long as it does, -/
  truth_same : ∀ (x x' : Value) k m, x.kind = .ok k → x'.kind = .ok k → k ≠ .null → k ≠ .undefined →
    (k.tag.isSmall = false →
      Result.answer (I.truth x m.runtime) = Result.answer (I.truth x' m.runtime)) →
    Result.answer (I.toBool x m) = Result.answer (I.toBool x' m) ∧
      Result.answer (I.logicalNot x m) = Result.answer (I.logicalNot x' m)
  /-- but of null and undefined, which are true if one of their low 32 bits is set. -/
  truth_of_low : ∀ (x : Value) k m, x.kind = .ok k → k = .null ∨ k = .undefined →
    I.toBool x m = .ok (x.low != 0) m ∧ I.logicalNot x m = .ok (.ofBool !(x.low != 0)) m
  /-- Nothing changes but in the interpreter, where it is asked. -/
  truth_left : ∀ x m, Result.state (I.toBool x m) = I.afterTruth x m ∧
    Result.state (I.logicalNot x m) = I.afterTruth x m
  /-- A binary operator answers both inline, with one value, or hands both off. -/
  binary_path : ∀ (op : BinaryOp) x x' y y', x.Alike x' → y.Alike y' →
    (∃ v l, v.kind = .ok l ∧ ∀ m, I.binary op x y m = .ok v m ∧ I.binary op x' y' m = .ok v m) ∨
      I.binary op x y = handOff op.label (op.entry I) (.pair x y) ∧
      I.binary op x' y' = handOff op.label (op.entry I) (.pair x' y')
  binary_calls : ∀ (op : BinaryOp) x x' y y' m, x.Alike x' → y.Alike y' →
    CallsAlike m (I.binary op x y) (I.binary op x' y') (I.observed.binary op x y)
      (I.observed.binary op x' y')
  /-- A unary operator answers both inline, with values of one kind, or hands both off. -/
  unary_path : ∀ (op : UnaryOp) x x', x.Alike x' →
    (∃ v v', v.Alike v' ∧ ∀ m, I.unaryOp op x m = .ok v m ∧ I.unaryOp op x' m = .ok v' m) ∨
      I.unaryOp op x = handOff op.label (I.unary op) (.single x) ∧
      I.unaryOp op x' = handOff op.label (I.unary op) (.single x')
  unary_calls : ∀ (op : UnaryOp) x x' m, x.Alike x' → CallsAlike m (I.unaryOp op x) (I.unaryOp op x')
    (I.observed.unaryOp op x) (I.observed.unaryOp op x')
  /-- Categories are always asked for, -/
  typeOf_asks : ∀ x m, ∃ rest, ∀ calls, I.observed.typeOf x (m.observed calls) =
    Result.observed (calls ++ .category x :: rest) (I.typeOf x m)
  /-- with the same calls to the last, as long as the interpreter answers the same. -/
  typeOf_calls : ∀ x x' m, x.Alike x' →
    Result.answer (I.category x m.runtime) = Result.answer (I.category x' m.runtime) →
    Result.answer (I.categoryReleased x m.runtime) = Result.answer (I.categoryReleased x' m.runtime) →
    CallsAlike m (I.typeOf x) (I.typeOf x') (I.observed.typeOf x) (I.observed.typeOf x')

/-- The inline answer of a binary operator has a kind. -/
theorem BinaryOp.exists_kind_of_inline {op : BinaryOp} {x y v : Value} (h : op.inline? x y = some v) :
    ∃ l, v.kind = .ok l := by
  by_cases hzero : op.IntRemainderByZero x y
  · obtain rfl := Option.some.inj ((inline?_of_intRemainderByZero hzero).symm.trans h)
    exact ⟨.exception, rfl⟩
  · exact Value.exists_kind_of_canonical (scalar_of_inline h hzero).canonical

/-- **What two patterns that decode alike have apart**, for every interpreter. -/
theorem unread_bits_of_operands (I : Interpreter R) : UnreadBits I where
  isException_same x x' k hx hx' hk := by
    rw [Value.isException_of_kind hx hk, Value.isException_of_kind hx' hk]
  isException_iff x hx := Value.isException_iff_payload hx
  toBool_calls x x' m h := ⟨_, _, Value.truthCalls_alike h, fun calls =>
    ⟨toBool_observed I m calls x, toBool_observed I m calls x'⟩⟩
  logicalNot_calls x x' m h := ⟨_, _, Value.truthCalls_alike h, fun calls =>
    ⟨logicalNot_observed I m calls x, logicalNot_observed I m calls x'⟩⟩
  truth_same x x' k m hx hx' hnull hundefined hI :=
    have htruth := toBool_answer_of_kind I hx hx' hnull hundefined hI
    ⟨htruth, logicalNot_answer_of_kind I hx hx' htruth⟩
  truth_left x m := ⟨toBool_state I x m, logicalNot_state I x m⟩
  truth_of_low x k m hx hk := by
    have hsmall : x.tag.isSmall = true := by
      rw [Value.tag_of_kind hx]
      obtain rfl | rfl := hk <;> rfl
    have hbool : x.asBool? = none := by
      rw [Value.asBool?_of_kind hx]
      obtain rfl | rfl := hk <;> rfl
    have hlow : (x.lowInt != 0) = (x.low != 0) := by
      rw [Bool.eq_iff_iff, bne_iff_ne, bne_iff_ne]
      exact not_congr Value.lowInt_eq_zero_iff
    rw [Interpreter.logicalNot, hbool, toBool_small I hsmall, hlow]
    exact ⟨rfl, rfl⟩
  binary_path op x x' y y' hx hy := by
    rw [binary_eq, binary_eq, ← op.inline?_of_alike hx hy]
    cases hv : op.inline? x y with
    | some v =>
      obtain ⟨l, hl⟩ := BinaryOp.exists_kind_of_inline hv
      exact .inl ⟨v, l, hl, fun m => ⟨rfl, rfl⟩⟩
    | none => exact .inr ⟨rfl, rfl⟩
  binary_calls op x x' y y' m hx hy := ⟨_, _, op.calls_alike m hx hy, fun calls =>
    ⟨(operators_hand_off I m).binary_calls op x y calls,
      (operators_hand_off I m).binary_calls op x' y' calls⟩⟩
  unary_path op x x' h := by
    obtain ⟨v, v', hv, hv', hkind⟩ | ⟨hv, hv'⟩ := op.inline?_of_alike h
    · rw [unaryOp_eq, unaryOp_eq, hv, hv']
      exact .inl ⟨v, v', hkind, fun m => ⟨rfl, rfl⟩⟩
    · rw [unaryOp_eq, unaryOp_eq, hv, hv']
      exact .inr ⟨rfl, rfl⟩
  unary_calls op x x' m h := ⟨_, _, op.calls_alike m h, fun calls =>
    ⟨(operators_hand_off I m).unary_calls op x calls, (operators_hand_off I m).unary_calls op x' calls⟩⟩
  typeOf_asks x m := by
    have hfirst : ∃ rest, I.typeOfCalls x m.runtime = .category x :: rest := by
      unfold Interpreter.typeOfCalls
      split
      · exact ⟨_, rfl⟩
      · split <;> exact ⟨_, rfl⟩
    obtain ⟨rest, hrest⟩ := hfirst
    exact ⟨rest, fun calls => hrest ▸ typeOf_observed I m calls x⟩
  typeOf_calls x x' m h hcategory hreleased :=
    ⟨_, _, I.typeOfCalls_alike h hcategory hreleased, fun calls =>
      ⟨typeOf_observed I m calls x, typeOf_observed I m calls x'⟩⟩

/-- Two patterns of null of which one is true, and one of the sentinel's kind that is not the sentinel. -/
theorem unread_bits_seen :
    (⟨0x7ffb000000000000⟩ : Value).kind = .ok .null ∧ (⟨0x7ffb000000000001⟩ : Value).kind = .ok .null ∧
      Recording.interpreter.toBool ⟨0x7ffb000000000000⟩ { runtime := {} } =
        .ok false { runtime := {} } ∧
      Recording.interpreter.toBool ⟨0x7ffb000000000001⟩ { runtime := {} } =
        .ok true { runtime := {} } ∧
      Value.exception.kind = .ok .exception ∧ Value.exception.isException = true ∧
      (⟨0x7fff000000000001⟩ : Value).kind = .ok .exception ∧
      (⟨0x7fff000000000001⟩ : Value).isException = false :=
  ⟨rfl, rfl, rfl, rfl, rfl, rfl, rfl, rfl⟩

end TieredVm
