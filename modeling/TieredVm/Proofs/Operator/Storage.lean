import TieredVm.Proofs.Operator.Numbers
import TieredVm.Proofs.Reference.Blind

/-!
# The storage of a number is not seen

An integer operand can be stored as an integer or as a double, and the storage decides who computes.
What is seen of the outcome does not depend on it.

* `seen_slow_congr`: next to an operand that is no number, the interpreter does the same for an
  integer and for its double, but for the lines it writes to the journal.
* `seen_binary_iff`: the storage is not seen in what a binary operator gives, up to one exception. The
  remainder of two stored integers by zero fails, where with doubles it is a NaN.
* `toTruth_ofDouble`, `typeOf_of_toCategory`: the truth and the category of a number.
* `numeric_storage_unseen`: all operators, on every machine.
-/

namespace TieredVm

open Reference

/-! ## Operators on interchangeable operands -/

/-- The journal is not seen. -/
theorem seen_unwritten (r : EStateM.Result Stop (Machine Reference.State) Value) :
    seen (Result.unwritten r) = seen r := by
  cases r <;> rfl

theorem seen_congr {r r' : EStateM.Result Stop (Machine Reference.State) Value}
    (h : Result.unwritten r = Result.unwritten r') : seen r = seen r' := by
  rw [← seen_unwritten r, h, seen_unwritten]

section

variable {x x' y y' : Value} (power : Double → Double → Double)

/-- Interchangeable values can be shown alike. -/
theorem text_congr (h : x.Interchangeable x') :
    (x.text.map fun _ => ()) = x'.text.map fun _ => () := by
  obtain rfl | ⟨d, hx, hx'⟩ := h
  · rfl
  · obtain ⟨t, ht⟩ := Value.text_of_shown (Value.shown_of_number hx.tag)
    obtain ⟨t', ht'⟩ := Value.text_of_shown (Value.shown_of_number hx'.tag)
    rw [ht, ht']
    rfl

theorem slowPath_congr (label : String) (hx : x.Interchangeable x') (hy : y.Interchangeable y') :
    ((Event.slowPath label [x, y]).line.map fun _ => ()) =
      (Event.slowPath label [x', y']).line.map fun _ => () := by
  have hline : ∀ u v : Value, ((Event.slowPath label [u, v]).line.map fun _ => ()) =
      (u.text.map fun _ => ()).bind fun _ => v.text.map fun _ => () := fun u v => by
    simp only [Event.line, Value.listText, List.mapM_cons, List.mapM_nil]
    cases u.text with
    | error e => rfl
    | ok s => cases v.text <;> rfl
  rw [hline, hline, text_congr hx, text_congr hy]

/-- Entries with the same result serve the same to whoever only looks at the result. -/
theorem run_bind_congr {n : Nat} {α : Type} {entry entry' : Attempt Reference.State (Operands (n + 1))}
    (h : Operands.result <$> entry = Operands.result <$> entry')
    {k : Except Exception (Operands (n + 1)) → Run Reference.State α}
    (hk : ∀ o o' : Operands (n + 1), o.result = o'.result → k (.ok o) = k (.ok o')) :
    entry.run >>= k = entry'.run >>= k := by
  funext m
  have hrun : EStateM.map (Except.map Operands.result) entry.run m =
      EStateM.map (Except.map Operands.result) entry'.run m := by
    have hmap := congrArg (fun attempt : Attempt Reference.State Value => attempt.run m) h
    simp only [ExceptT.run_map] at hmap
    exact hmap
  rw [Run.bind_apply, Run.bind_apply]
  unfold EStateM.map at hrun
  cases he : entry.run m with
  | error s n =>
    cases he' : entry'.run m with
    | error s' n' => rw [he, he'] at hrun; cases hrun; rfl
    | ok r' n' => rw [he, he'] at hrun; cases hrun
  | ok r n =>
    cases he' : entry'.run m with
    | error s' n' => rw [he, he'] at hrun; cases hrun
    | ok r' n' =>
      rw [he, he'] at hrun
      obtain ⟨hr, rfl⟩ := EStateM.Result.ok.inj hrun
      cases r with
      | error e => cases r' <;> cases hr; rfl
      | ok o =>
        cases r' with
        | error e => cases hr
        | ok o' => exact congrFun (hk o o' (Except.ok.inj hr)) n

/-- The interpreter's answer to interchangeable operands is the same, and so is the machine it
leaves, but for the lines that show the operands. -/
theorem unwritten_handOff_congr (op : BinaryOp) (hx : x.Interchangeable x')
    (hy : y.Interchangeable y') (m : Machine Reference.State) :
    Result.unwritten (handOff op.label (op.entry (interpreterWith power)) (.pair x y) m) =
      Result.unwritten (handOff op.label (op.entry (interpreterWith power)) (.pair x' y') m) := by
  refine Run.unwritten_bind (Run.unwritten_emit (slowPath_congr op.label hx hy) rfl) ?_
  intro _ m₁ m₂ hm
  have hresult : ∀ o o' : Operands 2, o.result = o'.result →
      (pure o.result : Run Reference.State Value) = pure o'.result := fun o o' h => by rw [h]
  rw [run_bind_congr (entry_congr power op hx hy) hresult]
  refine Run.Blind.congr (Run.Blind.bind (blind_entry power op (.pair x' y')) fun r => ?_) hm
  cases r with
  | ok answered => exact Run.blind_pure _
  | error e => exact Machine.blind_raise e

theorem seen_slow_congr {op : BinaryOp} (hx : x.Interchangeable x') (hy : y.Interchangeable y')
    (hxy : op.inline? x y = none) (hxy' : op.inline? x' y' = none) (m : Machine Reference.State) :
    seen ((interpreterWith power).binary op x y m) =
      seen ((interpreterWith power).binary op x' y' m) := by
  rw [binary_eq, binary_eq, hxy, hxy']
  exact seen_congr (unwritten_handOff_congr power op hx hy m)

/-- Next to an operand that is no number, nothing is answered inline. -/
theorem inline?_of_not_numbers (op : BinaryOp)
    (h : ¬ ((∃ a, x.IsNumber a) ∧ ∃ b, y.IsNumber b)) : op.inline? x y = none := by
  rw [Value.isNumber_iff_tag, Value.isNumber_iff_tag] at h
  have hnone : op.answersInline x.tag y.tag = false :=
    op.answersInline_of_ne (fun ht => h ⟨.inl ht.1, .inl ht.2⟩) fun ht => h ⟨.inr ht.1, .inr ht.2⟩
  exact Option.isNone_iff_eq_none.mp (by
    rw [← Option.not_isSome, op.inline?_isSome, hnone, Bool.not_false])

end

section

variable {x x' y y' : Value} {m : Machine Reference.State} (hf : m.runtime.failNext = none)
  (power : Double → Double → Double)

include hf

/-- Interchangeable operands are not told apart, up to the one exception. -/
theorem seen_binary_congr {op : BinaryOp} (hx : x.Interchangeable x') (hy : y.Interchangeable y')
    (hxy : ¬ op.IntRemainderByZero x y) (hxy' : ¬ op.IntRemainderByZero x' y') :
    seen ((interpreterWith power).binary op x y m) =
      seen ((interpreterWith power).binary op x' y' m) := by
  by_cases hn : (∃ a, x.IsNumber a) ∧ ∃ b, y.IsNumber b
  · obtain ⟨⟨a, ha⟩, b, hb⟩ := hn
    have ha' : x'.IsNumber a := hx.asNumber?.symm.trans ha
    have hb' : y'.IsNumber b := hy.asNumber?.symm.trans hb
    rw [seen_binary_of_numbers ha hb hf power hxy, seen_binary_of_numbers ha' hb' hf power hxy']
  · have hn' : ¬ ((∃ a, x'.IsNumber a) ∧ ∃ b, y'.IsNumber b) := by
      unfold Value.IsNumber at hn ⊢
      rwa [← hx.asNumber?, ← hy.asNumber?]
    exact seen_slow_congr power hx hy (inline?_of_not_numbers op hn) (inline?_of_not_numbers op hn') m

omit hf in
theorem seen_intRemainderByZero {op : BinaryOp} (h : op.IntRemainderByZero x y) :
    seen ((interpreterWith power).binary op x y m) = .failed m.pending := by
  obtain ⟨rfl, hx, hy⟩ := h
  obtain ⟨n, hn⟩ := Option.isSome_iff_exists.mp hx
  have hinline : (BinaryOp.arith .mod).inline? x y = some .exception := by
    unfold BinaryOp.inline? Value.bothInt?
    rw [hn, hy]
    rfl
  rw [binary_eq, hinline]
  rfl

/-- The exception is one: with one of the integers stored as a double, the remainder is a number. -/
theorem seen_binary_iff {op : BinaryOp} (hx : x.Interchangeable x') (hy : y.Interchangeable y')
    (hxy' : ¬ op.IntRemainderByZero x' y') :
    seen ((interpreterWith power).binary op x y m) =
      seen ((interpreterWith power).binary op x' y' m) ↔ ¬ op.IntRemainderByZero x y := by
  constructor
  · intro heq h
    have hnumber : ∀ {v v' : Value}, v.Interchangeable v' → v.asInt?.isSome = true →
        ∃ a, v'.IsNumber a := fun {v v'} hv hint => by
      have htag : v.tag = .int := by
        unfold Value.asInt? at hint
        by_contra hne
        rw [if_neg hne] at hint
        exact absurd hint nofun
      obtain ⟨a, ha⟩ := Value.isNumber_iff_tag.mpr (.inl htag)
      exact ⟨a, hv.asNumber?.symm.trans ha⟩
    obtain ⟨a, ha⟩ := hnumber hx h.2.1
    obtain ⟨b, hb⟩ := hnumber hy (by rw [h.2.2]; rfl)
    rw [seen_intRemainderByZero power h, seen_binary_of_numbers ha hb hf power hxy', h.1] at heq
    exact absurd heq nofun
  · exact fun h => seen_binary_congr hf power hx hy h hxy'

end

/-! ## Truth and category of a number -/

section

variable (power : Double → Double → Double) (m : Machine Reference.State)

/-- An integer is true when its double is. -/
theorem toTruth_ofDouble (n : Int32) (s : Reference.State) :
    s.toTruth (.ofDouble (Double.ofInt32 n)) = .ok (n != 0) := by
  have heq : (Double.ofInt32 n).numEq (Double.zero false) = (n == 0) := by
    rw [← Double.ofInt_zero, Double.ofInt32, Double.numEq_ofInt (Double.natAbs_toInt_lt n) (by decide),
      Bool.eq_iff_iff, beq_iff_eq, beq_iff_eq, ← Int32.toInt_inj, Int32.toInt_zero]
  have hnan : (Double.ofInt32 n).isNaN = false := Double.isNaN_ofInt (Double.natAbs_toInt_lt n)
  unfold Reference.State.toTruth
  rw [Value.kind_ofDouble, Double.folded_ofInt32]
  show Except.ok (!(Double.ofInt32 n).isNaN && !(Double.ofInt32 n).numEq (Double.zero false)) = _
  rw [hnan, heq]
  rfl

theorem toBool_ofInt (n : Int32) :
    (interpreterWith power).toBool (.ofInt n) m = .ok (n != 0) m := by
  have hlow : (Value.ofInt n).lowInt = n := Value.lowInt_boxed (by decide) n
  rw [toBool_small _ (by rw [Value.tag_ofInt]; rfl), hlow]
  rfl

theorem toBool_ofDouble (n : Int32) :
    ∃ m', (interpreterWith power).toBool (.ofDouble (Double.ofInt32 n)) m = .ok (n != 0) m' := by
  have hrun : ∃ s, truth (.ofDouble (Double.ofInt32 n)) m.runtime = .ok (n != 0) s := by
    rw [truth, Result.bind_of_ok (noteCall_apply _ _),
      Result.bind_of_ok (observeLocal_of_ok (toTruth_ofDouble n _)),
      Result.bind_of_ok (release_apply _ _)]
    exact ⟨_, rfl⟩
  obtain ⟨s, hs⟩ := hrun
  refine ⟨{ m with runtime := s }, ?_⟩
  rw [toBool_not_small _ (by rw [Value.tag_ofDouble]; rfl)]
  show Run.onRuntime (truth _) m = _
  rw [Run.onRuntime, hs]

theorem seen_logicalNot {x : Value} {b : Bool} {m' : Machine Reference.State}
    (hx : x.asBool? = none) (h : (interpreterWith power).toBool x m = .ok b m') :
    seen ((interpreterWith power).logicalNot x m) = .boolean (!b) := by
  unfold Interpreter.logicalNot
  rw [hx]
  dsimp only
  rw [Run.bind_of_ok h]
  exact seenValue_ofBool (!b) m'

/-- The text of a category is kept, or made when it is first asked for. -/
theorem categoryText_apply (c : Category) (s : Reference.State) : categoryText c s =
    match s.categoryTexts c, Pointer.ofAddr? (cellAddress s.cells.size) with
    | some v, _ => .ok v s
    | none, none => .error (.abort .outOfMemory) s
    | none, some p => .ok (.ofPointer .string p) { s with
        cells := s.cells.push (.text c.label)
        categoryTexts := fun d => if d = c then some (.ofPointer .string p) else s.categoryTexts d } := by
  rw [categoryText, Result.bind_of_ok (Result.get_apply s)]
  cases s.categoryTexts c with
  | some v => rfl
  | none =>
    cases hp : Pointer.ofAddr? (cellAddress s.cells.size) with
    | none =>
      show EStateM.bind (newText c.label) _ s = _
      rw [EStateM.bind, newText_of_full hp]
    | some p => exact Result.bind_of_ok (newText_of_room hp c.label) _

/-- What was released is not seen in the text of a category. -/
theorem seen_categoryText (c : Category) (s : Reference.State) (l l' : List Value) :
    seen (Run.onRuntime (categoryText c) { m with runtime := { s with released := l } }) =
      seen (Run.onRuntime (categoryText c) { m with runtime := { s with released := l' } }) := by
  simp only [Run.onRuntime, categoryText_apply]
  cases s.categoryTexts c with
  | some v => rfl
  | none => cases Pointer.ofAddr? (cellAddress s.cells.size) <;> rfl

/-- Whoever asks for a category has the value released, and is answered the category's text. -/
theorem typeOf_of_toCategory {x : Value} {c : Category} (h : m.runtime.toCategory x = .ok c) :
    (interpreterWith power).typeOf x m =
      Run.onRuntime (categoryText c) { m with runtime := { m.runtime with
        calls := m.runtime.calls ++ ["typeof_kind"], released := m.runtime.released ++ [x] } } := by
  have hcategory : category x m.runtime =
      .ok c { m.runtime with calls := m.runtime.calls ++ ["typeof_kind"] } := by
    rw [category, Result.bind_of_ok (noteCall_apply _ _)]
    exact observeLocal_of_ok h
  show Run.onRuntime (do
    let c ← category x
    release x
    categoryText c) m = _
  unfold Run.onRuntime
  rw [Result.bind_of_ok hcategory, Result.bind_of_ok (release_apply _ _)]

theorem seen_typeOf_congr {x x' : Value} {d d' : Double} (hx : x.IsNumber d) (hx' : x'.IsNumber d') :
    seen ((interpreterWith power).typeOf x m) = seen ((interpreterWith power).typeOf x' m) := by
  rw [typeOf_of_toCategory power m (State.toCategory_of_isNumber _ hx),
    typeOf_of_toCategory power m (State.toCategory_of_isNumber _ hx')]
  exact seen_categoryText m .number
    { m.runtime with calls := m.runtime.calls ++ ["typeof_kind"] } _ _

end

/-! ## All operators -/

/-- Whether an integer operand is stored as an integer or as a double is not seen in the outcome of
any operator. -/
structure StorageUnseen (I : Interpreter Reference.State) (m : Machine Reference.State) : Prop where
  binary_left : ∀ (op : BinaryOp) (n : Int32) (z : Value),
    seen (I.binary op (.ofInt n) z m) = seen (I.binary op (.ofDouble (Double.ofInt32 n)) z m) ↔
      ¬ op.IntRemainderByZero (.ofInt n) z
  binary_right : ∀ (op : BinaryOp) (n : Int32) (z : Value),
    seen (I.binary op z (.ofInt n) m) = seen (I.binary op z (.ofDouble (Double.ofInt32 n)) m) ↔
      ¬ op.IntRemainderByZero z (.ofInt n)
  unary : ∀ (op : UnaryOp) (n : Int32),
    seen (I.unaryOp op (.ofInt n) m) = seen (I.unaryOp op (.ofDouble (Double.ofInt32 n)) m)
  toBool : ∀ n : Int32, ∃ b m₁ m₂, I.toBool (.ofInt n) m = .ok b m₁ ∧
    I.toBool (.ofDouble (Double.ofInt32 n)) m = .ok b m₂
  logicalNot : ∀ n : Int32,
    seen (I.logicalNot (.ofInt n) m) = seen (I.logicalNot (.ofDouble (Double.ofInt32 n)) m)
  typeOf : ∀ n : Int32,
    seen (I.typeOf (.ofInt n) m) = seen (I.typeOf (.ofDouble (Double.ofInt32 n)) m)

theorem isNumber_ofDouble_ofInt32 (n : Int32) :
    (Value.ofDouble (Double.ofInt32 n)).IsNumber (Double.ofInt32 n) := by
  have h := Value.isNumber_ofDouble (Double.ofInt32 n)
  rwa [Double.folded_ofInt32] at h

/-- The storage of an integer operand is unseen, on every machine on which no failure was prepared
and whatever powers are. -/
theorem numeric_storage_unseen (power : Double → Double → Double) (m : Machine Reference.State)
    (hf : m.runtime.failNext = none) : StorageUnseen (interpreterWith power) m := by
  have hsame : ∀ n : Int32,
      (Value.ofInt n).Interchangeable (.ofDouble (Double.ofInt32 n)) := fun n =>
    .inr ⟨_, Value.isNumber_ofInt n, isNumber_ofDouble_ofInt32 n⟩
  have hdouble : ∀ n : Int32, (Value.ofDouble (Double.ofInt32 n)).asInt? = none := fun n =>
    Value.asInt?_of_kind (Value.kind_ofDouble _)
  constructor
  case binary_left =>
    intro op n z
    refine seen_binary_iff hf power (hsame n) (.refl z) fun h => ?_
    rw [BinaryOp.IntRemainderByZero, hdouble] at h
    exact absurd h.2.1 nofun
  case binary_right =>
    intro op n z
    refine seen_binary_iff hf power (.refl z) (hsame n) fun h => ?_
    rw [BinaryOp.IntRemainderByZero, hdouble] at h
    exact absurd h.2.2 nofun
  case unary =>
    intro op n
    rw [seen_unary_of_number (Value.isNumber_ofInt n) hf power,
      seen_unary_of_number (isNumber_ofDouble_ofInt32 n) hf power]
  case toBool =>
    intro n
    obtain ⟨m', h⟩ := toBool_ofDouble power m n
    exact ⟨_, m, m', toBool_ofInt power m n, h⟩
  case logicalNot =>
    intro n
    obtain ⟨m', h⟩ := toBool_ofDouble power m n
    rw [seen_logicalNot power m (Value.asBool?_of_kind (Value.kind_ofInt n)) (toBool_ofInt power m n),
      seen_logicalNot power m (Value.asBool?_of_kind (Value.kind_ofDouble _)) h]
  case typeOf =>
    intro n
    exact seen_typeOf_congr power m (Value.isNumber_ofInt n) (isNumber_ofDouble_ofInt32 n)

/-- The text `ab`, on a heap that holds nothing else. -/
def storedText : Value := .ofPointer .string ⟨cellAddress 0, by decide, by decide⟩

/-- A machine that keeps a journal, with one text on its heap. -/
def textMachine : Machine Reference.State :=
  { runtime := { cells := #[.text "ab"] }, journal := some [] }

/-- Seven stored as a double is joined to a text as seven. -/
theorem numeric_storage_unseen_joined : textMachine.runtime.failNext = none ∧
    seen ((interpreterWith fun x _ => x).binary .add (.ofDouble (Double.ofInt32 7)) storedText
      textMachine) = .text "7ab" := by
  refine ⟨rfl, ?_⟩
  have hunseen := (numeric_storage_unseen (fun x _ => x) textMachine rfl).binary_left .add 7 storedText
  rw [← hunseen.mpr (by rintro ⟨h, -⟩; exact absurd h nofun)]
  decide

end TieredVm
