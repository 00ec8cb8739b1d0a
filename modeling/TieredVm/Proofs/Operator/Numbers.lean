import TieredVm.Proofs.Operator.HandOff
import TieredVm.Proofs.Reference.Interchangeable
import TieredVm.Proofs.Reference.Steps

/-!
# What operators give for numbers

Two integers and two doubles are mostly answered inline, by different code, and any other pair of
numbers is handed to the interpreter. What the running program sees of the outcome (`Seen`) is the
same for all three: it follows from the values of the operands.

* `BinaryOp.onNumbers`, `UnaryOp.onNumber`: what an operator gives for numbers, whoever computes.
* `BinaryOp.seen_ofInts?`, `BinaryOp.seen_ofDoubles?`: the inline answers.
* `gives_entry`, `gives_unary`: the interpreter's answers.
* `seen_binary_of_numbers`, `seen_unary_of_number`: all of them together. The remainder of two stored
  integers by zero is left out: it answers the error sentinel, where the doubles give a NaN.
-/

namespace TieredVm.Reference

/-! ## What is seen of an outcome -/

/-- What the running program, or whoever reports a panic, can tell of an outcome. Every NaN looks
the same. -/
inductive Seen where
  | number (d : Double)
  | boolean (b : Bool)
  | text (t : String)
  /-- The error sentinel, with the pending exception. -/
  | failed (pending : Option Exception)
  | other (v : Value)
  | stopped (s : Stop)
deriving DecidableEq

/-- What is seen of a value. -/
def seenValue (m : Machine State) (v : Value) : Seen :=
  match v.asNumber?, v.asBool?, m.runtime.textOf? v with
  | .ok (some d), _, _ => .number d.folded
  | _, some b, _ => .boolean b
  | _, _, .ok (some t) => .text t
  | _, _, _ => if v.isException then .failed m.pending else .other v

/-- What is seen of an outcome. -/
def seen : EStateM.Result Stop (Machine State) Value → Seen
  | .ok v m => seenValue m v
  | .error s _ => .stopped s

theorem seenValue_of_isNumber {v : Value} {d : Double} (h : v.IsNumber d) (m : Machine State) :
    seenValue m v = .number d.folded := by
  unfold seenValue
  rw [h]

theorem seenValue_of_folded {v : Value} {d : Double} (h : v.IsNumber d.folded) (m : Machine State) :
    seenValue m v = .number d.folded := by
  rw [seenValue_of_isNumber h, Double.folded_folded]

theorem seenValue_ofInt (n : Int32) (m : Machine State) :
    seenValue m (.ofInt n) = .number (Double.ofInt32 n) := by
  rw [seenValue_of_isNumber (Value.isNumber_ofInt n), Double.folded_ofInt32]

theorem seenValue_ofBool (b : Bool) (m : Machine State) : seenValue m (.ofBool b) = .boolean b := by
  have hk := Value.kind_ofBool b
  unfold seenValue
  rw [Value.asNumber?_of_kind hk, Value.asBool?_of_kind hk]
  rfl

end TieredVm.Reference

namespace TieredVm

open Reference

/-! ## What operators give for numbers -/

/-- What a binary operator gives for two numbers, with powers computed by the given function. -/
def BinaryOp.onNumbers (power : Double → Double → Double) (a b : Double) : BinaryOp → Seen
  | add => .number (a.add b).folded
  | arith op => .number (arithValue power a b op).folded
  | logic op => .number (Double.ofInt32 (op.ofInts a.toInt32 b.toInt32))
  | shr => .number (Double.ofInt (unsignedShift a.toInt32 b.toInt32).toNat).folded
  | relational op => .boolean ((a.compare? b).any op.holds)
  | equal n | strictEqual n => .boolean (a.numEq b != n)
  | instanceOf => .failed (some (.typeError "right-hand side of 'instanceof' is not callable"))
  | contains => .failed
      (some (.typeError "cannot use 'in' operator to search for a key in a primitive"))

/-- What a unary operator gives for a number. -/
def UnaryOp.onNumber (a : Double) : UnaryOp → Seen
  | neg => .number a.neg.folded
  | plus => .number a.folded
  | bitNot => .number (Double.ofInt32 (~~~a.toInt32))
  | inc => .number (a.add (Double.ofInt 1)).folded
  | dec => .number (a.sub (Double.ofInt 1)).folded

/-! ### Inline -/

theorem BinaryOp.seen_ofInts? {op : BinaryOp} {n k : Int32} {v : Value}
    (h : op.ofInts? n k = some v) (hzero : ¬ (op = .arith .mod ∧ k = 0))
    (power : Double → Double → Double) (m : Machine State) :
    seenValue m v = op.onNumbers power (Double.ofInt32 n) (Double.ofInt32 k) := by
  cases op with
  | add =>
    cases h
    exact seenValue_of_folded (isNumber_addInt n k) m
  | arith op =>
    cases op with
    | sub => exact seenValue_of_folded (ArithOp.isNumber_subInt n k h) m
    | mul =>
      cases h
      exact seenValue_of_folded (ArithOp.isNumber_mulInt n k) m
    | div =>
      cases h
      exact seenValue_of_folded (Value.isNumber_ofDouble _) m
    | mod =>
      cases h
      have hk : k ≠ 0 := fun h0 => hzero ⟨rfl, h0⟩
      exact seenValue_of_folded (ArithOp.isNumber_modInt n k hk) m
    | pow => cases h
  | logic op =>
    cases h
    rw [seenValue_ofInt, onNumbers, Double.toInt32_ofInt32, Double.toInt32_ofInt32]
  | shr =>
    have hv : v = shrInt n k := (Option.some.inj h).symm
    have hshift := seenValue_of_folded (isNumber_shrInt n k) m
    rw [← hv] at hshift
    rw [onNumbers, Double.toInt32_ofInt32, Double.toInt32_ofInt32]
    exact hshift
  | relational op =>
    cases h
    rw [seenValue_ofBool, onNumbers, Double.ofInt32, Double.ofInt32,
      Double.compare?_ofInt (Double.natAbs_toInt_lt n) (Double.natAbs_toInt_lt k)]
    rfl
  | equal negate | strictEqual negate =>
    cases h
    have heq : (n == k) = (n.toInt == k.toInt) := by
      rw [Bool.eq_iff_iff, beq_iff_eq, beq_iff_eq, Int32.toInt_inj]
    rw [seenValue_ofBool, onNumbers, Double.ofInt32, Double.ofInt32,
      Double.numEq_ofInt (Double.natAbs_toInt_lt n) (Double.natAbs_toInt_lt k), heq]
  | instanceOf => cases h
  | contains => cases h

theorem BinaryOp.seen_ofDoubles? {op : BinaryOp} {a b : Double} {v : Value}
    (h : op.ofDoubles? a b = some v) (power : Double → Double → Double) (m : Machine State) :
    seenValue m v = op.onNumbers power a b := by
  have hwritten := fun d => seenValue_of_folded (Value.isNumber_ofDouble d) m
  cases op with
  | add => cases h; exact hwritten _
  | arith op =>
    cases op with
    | pow => exact absurd h nofun
    | _ => cases h; exact hwritten _
  | _ => exact absurd h nofun

theorem UnaryOp.seen_ofInt {op : UnaryOp} (hop : op ≠ .plus) (n : Int32) (m : Machine State) :
    seenValue m (op.ofInt n) = op.onNumber (Double.ofInt32 n) := by
  cases op with
  | neg => exact seenValue_of_folded (isNumber_negInt n) m
  | plus => exact absurd rfl hop
  | bitNot => rw [UnaryOp.ofInt, seenValue_ofInt, onNumber, Double.toInt32_ofInt32]
  | inc => exact seenValue_of_folded (isNumber_incInt n) m
  | dec => exact seenValue_of_folded (isNumber_decInt n) m

theorem UnaryOp.seen_ofDouble? {op : UnaryOp} {d : Double} {v : Value} (h : op.ofDouble? d = some v)
    (m : Machine State) : seenValue m v = op.onNumber d := by
  have hwritten := fun e => seenValue_of_folded (Value.isNumber_ofDouble e) m
  cases op with
  | bitNot => exact absurd h nofun
  | _ => cases h; exact hwritten _

/-! ### Handed to the interpreter -/

namespace Reference

/-- The answer of an entry comes to be seen as this. -/
def Gives {n : Nat} (r : EStateM.Result Stop (Machine State) (Except Exception (Operands (n + 1))))
    (s : Seen) : Prop :=
  (∃ operands m, r = .ok (.ok operands) m ∧ seenValue m operands.result = s) ∨
    ∃ e m, r = .ok (.error e) m ∧ e.dangling = false ∧ s = .failed (some e)

theorem seen_handOff {n : Nat} (label : String) {entry : Entry State (n + 1)}
    {operands : Operands (n + 1)} {m : Machine State} {s : Seen}
    (hrecord : m.unrecordable operands.toList = false)
    (hentry : ∀ line, Gives ((entry operands).run (m.noted line)) s) :
    seen (handOff label entry operands m) = s := by
  obtain ⟨line, hands⟩ := handOff_hands label entry operands m hrecord
  rcases hentry line with ⟨answered, m', hrun, hseen⟩ | ⟨e, m', hrun, hshown, rfl⟩
  · rw [hands.answered answered m' hrun]
    exact hseen
  · obtain ⟨line', hraised⟩ := hands.raised e m' hrun (by rw [hshown, Bool.and_false])
    rw [hraised]
    rfl

section

variable {n : Nat} {α : Type} {m m' : Machine State} {s : Seen}

theorem gives_bind {act : Attempt State α} {f : α → Attempt State (Operands (n + 1))} {v : α}
    (hact : act.run m = .ok (.ok v) m') (hf : Gives ((f v).run m') s) :
    Gives ((act >>= f).run m) s := by
  rw [Attempt.bind_of_ok hact]
  exact hf

theorem gives_answer (operands : Operands (n + 1)) {v : Value} (h : seenValue m v = s) :
    Gives ((answer operands v).run m) s :=
  .inl ⟨_, m, rfl, by rw [Operands.result_withResult, h]⟩

theorem gives_throw {e : Exception} (h : e.dangling = false) :
    Gives ((throw e : Attempt State (Operands (n + 1))).run m) (.failed (some e)) :=
  .inr ⟨e, m, rfl, h, rfl⟩

end

section

variable {x y : Value} {a b : Double} (hx : x.IsNumber a) (hy : y.IsNumber b) (m : Machine State)

theorem seenValue_number (d : Double) : seenValue m (.number d) = .number d.folded :=
  seenValue_of_folded (Value.isNumber_number d) m

include hx

theorem convert_number : (convert (·.toNumber x)).run m = .ok (.ok a) m :=
  convert_of_run (by rw [State.toNumber_of_isNumber _ hx]; rfl)

theorem convert_int32 : (convert (·.toInt32 x)).run m = .ok (.ok a.toInt32) m :=
  convert_of_run (by rw [State.toInt32, State.toNumber_of_isNumber _ hx]; rfl)

theorem operandValue_number (plus : Value → Value → Run State Value) :
    (operandValue plus x).run m = .ok (.ok x) m := by
  rw [operandValue_of_isNumber plus hx]
  rfl

theorem unaryValue_number (op : UnaryOp) :
    ∃ v, (unaryValue x op).run m = .ok (.ok v) m ∧ seenValue m v = op.onNumber a := by
  cases op with
  | bitNot =>
    refine ⟨_, Attempt.bind_of_ok (convert_int32 hx m) _, ?_⟩
    rw [seenValue_ofInt]
    rfl
  | _ => exact ⟨_, Attempt.bind_of_ok (convert_number hx m) _, seenValue_number m _⟩

theorem noText_number : (Attempt.lift (observe (·.textOf? x))).run m = .ok (.ok none) m :=
  Attempt.lift_of_ok (observe_of_ok (State.textOf?_of_isNumber _ hx))

include hy

theorem joinOrAdd_numbers : (joinOrAdd x y).run m = .ok (.ok (.number (a.add b))) m := by
  have htag : ∀ {v : Value} {d : Double}, v.IsNumber d → v.tag ≠ .heap .string := fun h ht => by
    rcases h.tag with h | h <;> rw [ht] at h <;> exact absurd h nofun
  unfold joinOrAdd
  rw [if_neg (by rintro (h | h); exacts [htag hx h, htag hy h]),
    Attempt.bind_of_ok (convert_number hx m), Attempt.bind_of_ok (convert_number hy m)]
  rfl

theorem orderOf_numbers : (orderOf x y).run m = .ok (.ok (a.compare? b)) m := by
  rw [orderOf, Attempt.bind_of_ok (noText_number hx m), Attempt.bind_of_ok (noText_number hy m)]
  dsimp only
  rw [Attempt.bind_of_ok (convert_number hx m), Attempt.bind_of_ok (convert_number hy m)]
  rfl

theorem looseEqual_numbers (s : State) : (s.looseEqual x y).run = .ok (.ok (a.numEq b)) := by
  unfold State.looseEqual
  rw [State.isNothing_of_isNumber hx, State.isNothing_of_isNumber hy,
    State.comparable_of_isNumber_left hx, s.strictEqual_of_isNumber_left hx, hy]
  rfl

theorem strictEqual_numbers (s : State) : s.strictEqual x y = .ok (a.numEq b) := by
  rw [s.strictEqual_of_isNumber_left hx, hy]
  rfl

end

variable {x y : Value} {a b : Double} (hx : x.IsNumber a) (hy : y.IsNumber b) {m : Machine State}
  (hf : m.runtime.failNext = none)

include hx hf

/-- The interpreter gives for a number what its value says. -/
theorem gives_unary (op : UnaryOp) : Gives ((unary op (.single x)).run m) (op.onNumber a) := by
  obtain ⟨v, hrun, hseen⟩ := unaryValue_number hx _ op
  exact gives_bind (entered_of_none hf _) <| gives_bind hrun <| gives_answer _ hseen

include hy

/-- The interpreter gives for two numbers what their values say. -/
theorem gives_entry (power : Double → Double → Double) (op : BinaryOp) :
    Gives ((op.entry (interpreterWith power) (.pair x y)).run m) (op.onNumbers power a b) := by
  have hentered := fun point => entered_of_none hf point
  cases op with
  | add =>
    have hget : (get : Attempt State (Machine State)).run m = .ok (.ok m) m := rfl
    exact gives_bind hget <| gives_bind (hentered _) <|
      gives_bind (operandValue_number hx _ _) <| gives_bind (operandValue_number hy _ _) <|
      gives_bind (joinOrAdd_numbers hx hy _) <| gives_answer _ (seenValue_number _ _)
  | arith op =>
    exact gives_bind (hentered _) <| gives_bind (convert_number hx _) <|
      gives_bind (convert_number hy _) <| gives_answer _ (seenValue_number _ _)
  | logic op =>
    refine gives_bind (hentered _) <| gives_bind (convert_int32 hx _) <|
      gives_bind (convert_int32 hy _) <| gives_answer _ ?_
    rw [seenValue_ofInt]
    rfl
  | shr =>
    exact gives_bind (hentered _) <| gives_bind (convert_int32 hx _) <|
      gives_bind (convert_int32 hy _) <| gives_answer _ (seenValue_number _ _)
  | relational op =>
    exact gives_bind (hentered _) <| gives_bind (orderOf_numbers hx hy _) <|
      gives_answer _ (seenValue_ofBool _ _)
  | equal n =>
    exact gives_bind (hentered _) <| gives_bind (convert_of_run (looseEqual_numbers hx hy _)) <|
      gives_answer _ (seenValue_ofBool _ _)
  | strictEqual n =>
    exact gives_bind (hentered _) <|
      gives_bind (Attempt.lift_of_ok (observe_of_ok (strictEqual_numbers hx hy _))) <|
      gives_answer _ (seenValue_ofBool _ _)
  | instanceOf =>
    show Gives ((instanceOf (.pair x y)).run m) _
    rw [instanceOf_of_isNumber x hy]
    exact gives_bind (hentered _) (gives_throw rfl)
  | contains =>
    show Gives ((contains (.pair x y)).run m) _
    rw [contains_of_isNumber x hy]
    exact gives_bind (hentered _) <|
      gives_bind (Attempt.lift_of_ok (observe_of_ok (State.toText_of_isNumber _ hx))) <|
      gives_throw rfl

end Reference

/-! ## Operators on numbers -/

theorem recordable_of_shown (m : Machine Reference.State) {vs : List Value}
    (h : ∀ v ∈ vs, v.dangling = false) : m.unrecordable vs = false := by
  have hany : vs.any Value.dangling = false :=
    List.any_eq_false.mpr fun v hv => by rw [h v hv]; simp
  rw [Machine.unrecordable, hany, Bool.and_false]

/-- The remainder of two stored integers by zero. -/
def BinaryOp.IntRemainderByZero (op : BinaryOp) (x y : Value) : Prop :=
  op = .arith .mod ∧ x.asInt?.isSome ∧ y.asInt? = some 0

/-- An inline answer and the interpreter's are seen alike. -/
theorem seen_inlineOr {n : Nat} {label : String} {entry : Entry Reference.State (n + 1)}
    {operands : Operands (n + 1)} {m : Machine Reference.State} {answer? : Option Value} {s : Seen}
    (hinline : ∀ v, answer? = some v → seenValue m v = s)
    (hslow : seen (handOff label entry operands m) = s) :
    seen (inlineOr label entry operands answer? m) = s := by
  cases answer? with
  | none => exact hslow
  | some v => exact hinline v rfl

section

variable {x y : Value} {a b : Double} (hx : x.IsNumber a) (hy : y.IsNumber b)
  {m : Machine Reference.State} (hf : m.runtime.failNext = none)
  (power : Double → Double → Double)

include hx hf

/-- An operator gives for a number what its value says, inline or not. -/
theorem seen_unary_of_number (op : UnaryOp) :
    seen ((interpreterWith power).unaryOp op x m) = op.onNumber a := by
  have hrecord : m.unrecordable [x] = false :=
    recordable_of_shown m (by simp [Value.shown_of_number hx.tag])
  rw [unaryOp_eq]
  refine seen_inlineOr (fun v hv => ?_) <| seen_handOff op.label hrecord fun line =>
    gives_unary (m := m.noted line) hx hf op
  unfold UnaryOp.inline? at hv
  obtain ⟨n, hint, -, rfl⟩ | ⟨hint, hdouble⟩ := hx.stored
  · rw [hint] at hv
    dsimp only at hv
    split at hv
    case isTrue hplus =>
      obtain rfl := hplus
      cases hv
      exact seenValue_of_isNumber hx m
    case isFalse hplus =>
      cases hv
      exact UnaryOp.seen_ofInt hplus n m
  · rw [hint, hdouble] at hv
    dsimp only at hv
    split at hv
    case isTrue hplus =>
      obtain rfl := hplus
      cases hv
      exact seenValue_of_isNumber hx m
    case isFalse => exact UnaryOp.seen_ofDouble? hv m

include hy

/-- Integers inline, doubles inline and the interpreter give the same for two numbers. Only the
remainder of two integers by zero is not what the doubles give. -/
theorem seen_binary_of_numbers {op : BinaryOp} (hzero : ¬ op.IntRemainderByZero x y) :
    seen ((interpreterWith power).binary op x y m) = op.onNumbers power a b := by
  have hrecord : m.unrecordable [x, y] = false :=
    recordable_of_shown m (by simp [Value.shown_of_number hx.tag, Value.shown_of_number hy.tag])
  rw [binary_eq]
  refine seen_inlineOr (fun v hv => ?_) <| seen_handOff op.label hrecord fun line =>
    gives_entry (m := m.noted line) hx hy hf power op
  unfold BinaryOp.inline? Value.bothInt? Value.bothDouble? at hv
  unfold BinaryOp.IntRemainderByZero at hzero
  obtain ⟨n, hxi, hxd, rfl⟩ | ⟨hxi, hxd⟩ := hx.stored
  · rw [hxi] at hv hzero
    obtain ⟨k, hyi, -, rfl⟩ | ⟨hyi, hyd⟩ := hy.stored
    · rw [hyi] at hv hzero
      exact BinaryOp.seen_ofInts? hv (by rintro ⟨rfl, rfl⟩; exact hzero ⟨rfl, rfl, rfl⟩) power m
    · rw [hyi, hxd] at hv
      exact absurd hv nofun
  · rw [hxi, hxd] at hv
    obtain ⟨k, -, hyd, rfl⟩ | ⟨-, hyd⟩ := hy.stored
    · rw [hyd] at hv
      exact absurd hv nofun
    · rw [hyd] at hv
      exact BinaryOp.seen_ofDoubles? hv power m

end

end TieredVm
