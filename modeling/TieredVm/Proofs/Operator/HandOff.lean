import TieredVm.Proofs.Interpreter.Observed

/-!
# The hand-off of operators

Which operand tags an operator answers inline (`answersInline`), and what it does on all others: it
makes one call, to its own entry with its own selector, with the operands in slot order, and takes
the result from the first slot; an exception becomes the pending one, and the result is the error
sentinel (`HandsOff`).

There is one exception. While events are recorded, the hand-off of an operand that is a reference to
nothing cannot be recorded, and neither can such a value thrown: the operator panics before the entry
is called, or before the exception is pending.

* `BinaryOp.inline?_isSome`, `UnaryOp.inline?_isSome`: the tables are those of the inline answers.
* `handOff_hands`, `handOff_unrecorded`, `handOff_observed`: one hand-off.
* `operators_hand_off`: all operators, for every interpreter, machine and operands.
-/

namespace TieredVm

variable {R : Type}

/-! ## Inline answers -/

/-- The tags of two operands that a binary operator answers inline. -/
def BinaryOp.answersInline : BinaryOp → Tag → Tag → Bool
  | arith .pow, _, _ | instanceOf, _, _ | contains, _, _ => false
  | _, .int, .int => true
  | add, .float64, .float64 | arith _, .float64, .float64 => true
  | _, _, _ => false

/-- The tags of an operand that a unary operator answers inline. -/
def UnaryOp.answersInline : UnaryOp → Tag → Bool
  | _, .int => true
  | bitNot, _ => false
  | _, .float64 => true
  | _, _ => false

theorem BinaryOp.ofInts?_isSome (op : BinaryOp) (a b : Int32) :
    (op.ofInts? a b).isSome = op.answersInline .int .int := by
  cases op with
  | arith op => cases op <;> rfl
  | _ => rfl

theorem BinaryOp.ofDoubles?_isSome (op : BinaryOp) (a b : Double) :
    (op.ofDoubles? a b).isSome = op.answersInline .float64 .float64 := by
  cases op with
  | arith op => cases op <;> rfl
  | _ => rfl

theorem BinaryOp.answersInline_of_ne {s t : Tag} (op : BinaryOp) (hi : ¬ (s = .int ∧ t = .int))
    (hd : ¬ (s = .float64 ∧ t = .float64)) : op.answersInline s t = false := by
  unfold answersInline
  split <;> simp_all

/-- A binary operator has an inline answer at the tags of its table and at no other. -/
theorem BinaryOp.inline?_isSome (op : BinaryOp) (x y : Value) :
    (op.inline? x y).isSome = op.answersInline x.tag y.tag := by
  by_cases hi : x.tag = .int ∧ y.tag = .int
  · have hb : Value.bothInt? x y = some (x.lowInt, y.lowInt) := by
      simp [Value.bothInt?, Value.asInt?, hi]
    rw [inline?, hb, hi.1, hi.2]
    exact op.ofInts?_isSome _ _
  · have hb : Value.bothInt? x y = none := by
      by_cases hx : x.tag = .int
      · simp_all [Value.bothInt?, Value.asInt?]
      · simp [Value.bothInt?, Value.asInt?, hx]
    by_cases hd : x.tag = .float64 ∧ y.tag = .float64
    · have he : Value.bothDouble? x y = some (x.double, y.double) := by
        simp [Value.bothDouble?, Value.asDouble?, hd]
      rw [inline?, hb, he, hd.1, hd.2]
      exact op.ofDoubles?_isSome _ _
    · have he : Value.bothDouble? x y = none := by
        by_cases hx : x.tag = .float64
        · simp_all [Value.bothDouble?, Value.asDouble?]
        · simp [Value.bothDouble?, Value.asDouble?, hx]
      rw [inline?, hb, he, op.answersInline_of_ne hi hd]
      rfl

theorem UnaryOp.answersInline_of_ne {t : Tag} (op : UnaryOp) (hi : t ≠ .int)
    (hd : t ≠ .float64) : op.answersInline t = false := by
  unfold answersInline
  split <;> simp_all

/-- A unary operator has an inline answer at the tags of its table and at no other. -/
theorem UnaryOp.inline?_isSome (op : UnaryOp) (x : Value) :
    (op.inline? x).isSome = op.answersInline x.tag := by
  unfold inline? Value.asInt? Value.asDouble?
  by_cases hi : x.tag = .int
  · rw [if_pos hi, hi]
    cases op <;> rfl
  · rw [if_neg hi]
    by_cases hd : x.tag = .float64
    · rw [if_pos hd, hd]
      cases op <;> rfl
    · rw [if_neg hd, op.answersInline_of_ne hi hd]
      rfl

/-! ## One hand-off -/

/-- What a hand-off makes of what the entry answers. -/
structure HandsOff {n : Nat}
    (answer : EStateM.Result Stop (Machine R) (Except Exception (Operands (n + 1))))
    (out : EStateM.Result Stop (Machine R) Value) : Prop where
  /-- The result is the first slot, and nothing else is touched. -/
  answered : ∀ operands m, answer = .ok (.ok operands) m → out = .ok operands.result m
  /-- An exception becomes the pending one, in place of any older. -/
  raised : ∀ e m, answer = .ok (.error e) m → (m.journal.isSome && e.dangling) = false →
    ∃ line, out = .ok .exception ({ m with pending := some e }.noted line)
  /-- What cannot be recorded is not pending either. -/
  unrecorded : ∀ e m, answer = .ok (.error e) m → (m.journal.isSome && e.dangling) = true →
    ∃ t, out = Run.violate (.nullPointer t) m
  stopped : ∀ s m, answer = .error s m → out = .error s m

theorem Machine.raise_of_shown {e : Exception} {m : Machine R}
    (h : (m.journal.isSome && e.dangling) = false) :
    ∃ line, raise e m = .ok .exception ({ m with pending := some e }.noted line) := by
  have hline : m.journal.isSome = true → ∃ line, (Event.raised e).line = .ok line := fun hj => by
    rw [hj, Bool.true_and] at h
    obtain ⟨s, hs⟩ := Exception.report_of_shown h
    exact ⟨_, by rw [Event.line, hs]; rfl⟩
  obtain ⟨line, hl⟩ := Run.emit_of_shown hline
  exact ⟨line, by rw [raise, Run.bind_of_ok hl]; rfl⟩

theorem Machine.raise_of_dangling {e : Exception} {m : Machine R}
    (h : (m.journal.isSome && e.dangling) = true) :
    ∃ t, raise e m = Run.violate (.nullPointer t) m := by
  rw [Bool.and_eq_true] at h
  obtain ⟨t, ht⟩ := Exception.report_of_dangling h.2
  have hl : (Event.raised e).line = .error (.nullPointer t) := by rw [Event.line, ht]; rfl
  refine ⟨t, ?_⟩
  rw [raise, Run.bind_apply, Run.emit_of_error hl, if_pos h.1]
  rfl

/-- Can an event that shows the values not be recorded? -/
def Machine.unrecordable (m : Machine R) (vs : List Value) : Bool :=
  m.journal.isSome && vs.any Value.dangling

theorem Value.mapM_text_of_shown : ∀ {vs : List Value}, vs.any dangling = false →
    ∃ ss, vs.mapM text = .ok ss
  | [], _ => ⟨[], rfl⟩
  | v :: rest, h => by
    rw [List.any_cons, Bool.or_eq_false_iff] at h
    obtain ⟨s, hs⟩ := text_of_shown h.1
    obtain ⟨ss, hss⟩ := mapM_text_of_shown h.2
    exact ⟨s :: ss, by rw [List.mapM_cons, hs, hss]; rfl⟩

theorem Value.mapM_text_of_dangling : ∀ {vs : List Value}, vs.any dangling = true →
    ∃ t, vs.mapM text = .error (.nullPointer t)
  | [], h => absurd h (by simp)
  | v :: rest, h => by
    cases hv : v.dangling with
    | true =>
      obtain ⟨t, ht⟩ := text_of_dangling hv
      exact ⟨t, by rw [List.mapM_cons, ht]; rfl⟩
    | false =>
      rw [List.any_cons, hv, Bool.false_or] at h
      obtain ⟨s, hs⟩ := text_of_shown hv
      obtain ⟨t, ht⟩ := mapM_text_of_dangling h
      exact ⟨t, by rw [List.mapM_cons, hs, ht]; rfl⟩

section

variable {n : Nat} (label : String) (e : EntryPoint) (entry : Entry R (n + 1))
  (operands : Operands (n + 1)) (m : Machine R)

theorem slowPath_of_recordable (h : m.unrecordable operands.toList = false) :
    ∃ line, Run.emit (.slowPath label operands.toList) m = .ok () (m.noted line) := by
  refine Run.emit_of_shown fun hj => ?_
  rw [Machine.unrecordable, hj, Bool.true_and] at h
  obtain ⟨ss, hs⟩ := Value.mapM_text_of_shown h
  exact ⟨_, by rw [Event.line, Value.listText, hs]; rfl⟩

theorem slowPath_of_unrecordable (h : m.unrecordable operands.toList = true) :
    ∃ t, Run.emit (.slowPath label operands.toList) m = Run.violate (.nullPointer t) m := by
  rw [Machine.unrecordable, Bool.and_eq_true] at h
  obtain ⟨t, ht⟩ := Value.mapM_text_of_dangling h.2
  have hl : (Event.slowPath label operands.toList).line = .error (.nullPointer t) := by
    rw [Event.line, Value.listText, ht]
    rfl
  exact ⟨t, (Run.emit_of_error hl m).trans (if_pos h.1)⟩

/-- A hand-off that can be recorded goes to the entry. -/
theorem handOff_hands (h : m.unrecordable operands.toList = false) :
    ∃ line, HandsOff ((entry operands).run (m.noted line)) (handOff label entry operands m) := by
  obtain ⟨line, hl⟩ := slowPath_of_recordable label operands m h
  refine ⟨line, ?_⟩
  rw [handOff, Run.bind_of_ok hl]
  constructor
  case answered =>
    intro answered m' ha
    rw [Run.bind_of_ok ha]
    rfl
  case raised =>
    intro e m' ha hd
    rw [Run.bind_of_ok ha]
    exact Machine.raise_of_shown hd
  case unrecorded =>
    intro e m' ha hd
    rw [Run.bind_of_ok ha]
    exact Machine.raise_of_dangling hd
  case stopped =>
    intro s m' ha
    exact Run.bind_of_error ha _

/-- One that cannot panics. -/
theorem handOff_unrecorded (h : m.unrecordable operands.toList = true) :
    ∃ t, handOff label entry operands m = Run.violate (.nullPointer t) m := by
  obtain ⟨t, ht⟩ := slowPath_of_unrecordable label operands m h
  exact ⟨t, by rw [handOff, Run.bind_apply, ht]; rfl⟩

/-- A hand-off makes one call, or none if it cannot be recorded. -/
theorem handOff_observed (calls : List Call) :
    handOff label (Entry.observed e entry) operands (m.observed calls) =
      Result.observed
        (if m.unrecordable operands.toList then calls else calls ++ [.entry e operands.toList])
        (handOff label entry operands m) := by
  have he := Run.emit_observed m calls (.slowPath label operands.toList)
  cases h : m.unrecordable operands.toList with
  | true =>
    obtain ⟨t, ht⟩ := slowPath_of_unrecordable label operands m h
    rw [ht] at he
    rw [if_pos rfl, handOff, handOff, Run.bind_apply, Run.bind_apply, he, ht]
    rfl
  | false =>
    obtain ⟨line, hl⟩ := slowPath_of_recordable label operands m h
    rw [hl] at he
    rw [if_neg (by simp), handOff, handOff, Run.bind_of_ok hl, Run.bind_of_ok he]
    refine Run.bind_observed (m.noted line) calls rfl fun answer m' => ?_
    cases answer with
    | ok answered => rfl
    | error e => exact m'.raise_observed _ e

/-- An inline answer, or else a hand-off. -/
def inlineOr (answer? : Option Value) : Run R Value :=
  match answer? with
  | some v => pure v
  | none => handOff label entry operands

/-- An inline answer is given, and nothing is touched. -/
theorem inlineOr_some {answer? : Option Value} (h : answer?.isSome = true) :
    ∃ v, inlineOr label entry operands answer? m = .ok v m := by
  obtain ⟨v, rfl⟩ := Option.isSome_iff_exists.mp h
  exact ⟨v, rfl⟩

theorem inlineOr_none {answer? : Option Value} (h : answer?.isSome = false) :
    inlineOr label entry operands answer? = handOff label entry operands := by
  cases answer? with
  | some v => exact absurd h (by simp)
  | none => rfl

/-- No call is made for an inline answer. -/
theorem inlineOr_observed (answer? : Option Value) (calls : List Call) :
    inlineOr label (Entry.observed e entry) operands answer? (m.observed calls) =
      Result.observed
        (calls ++ if answer?.isSome || m.unrecordable operands.toList then []
          else [.entry e operands.toList])
        (inlineOr label entry operands answer? m) := by
  cases answer? with
  | some v =>
    rw [Option.isSome_some, Bool.true_or, if_pos rfl, List.append_nil]
    rfl
  | none =>
    rw [Option.isSome_none, Bool.false_or]
    refine (handOff_observed label e entry operands m calls).trans ?_
    split
    · rw [List.append_nil]
      rfl
    · rfl

end

theorem binary_eq (I : Interpreter R) (op : BinaryOp) (x y : Value) :
    I.binary op x y = inlineOr op.label (op.entry I) (.pair x y) (op.inline? x y) := rfl

theorem unaryOp_eq (I : Interpreter R) (op : UnaryOp) (x : Value) :
    I.unaryOp op x = inlineOr op.label (I.unary op) (.single x) (op.inline? x) := rfl

/-! ## Calls of each operator -/

/-- The calls of a binary operator. -/
def BinaryOp.calls (op : BinaryOp) (m : Machine R) (x y : Value) : List Call :=
  if op.answersInline x.tag y.tag || m.unrecordable [x, y] then []
  else [.entry op.entryPoint [x, y]]

/-- The calls of a unary operator. -/
def UnaryOp.calls (op : UnaryOp) (m : Machine R) (x : Value) : List Call :=
  if op.answersInline x.tag || m.unrecordable [x] then [] else [.entry (.unary op) [x]]

/-- The calls of reading a truth, negated or not. -/
def Value.truthCalls (x : Value) : List Call := if x.tag.isSmall then [] else [.truth x]

/-- The calls of asking for a category, in order, up to the first that stops. -/
def Interpreter.typeOfCalls (I : Interpreter R) (x : Value) (r : R) : List Call :=
  match I.category x r with
  | .error _ _ => [.category x]
  | .ok c r =>
    match I.release x r with
    | .error _ _ => [.category x, .release x]
    | .ok _ _ => [.category x, .release x, .categoryText c]

/-- What the operators do on a machine, and the calls they make of an interpreter. -/
structure HandOffContract (I : Interpreter R) (m : Machine R) : Prop where
  binary_calls : ∀ op x y calls, I.observed.binary op x y (m.observed calls) =
    Result.observed (calls ++ op.calls m x y) (I.binary op x y m)
  binary_inline : ∀ op x y, op.answersInline x.tag y.tag = true → ∃ v, I.binary op x y m = .ok v m
  binary_handed : ∀ op x y, op.answersInline x.tag y.tag = false → m.unrecordable [x, y] = false →
    ∃ line, HandsOff ((op.entry I (.pair x y)).run (m.noted line)) (I.binary op x y m)
  binary_unrecorded : ∀ op x y, op.answersInline x.tag y.tag = false →
    m.unrecordable [x, y] = true → ∃ t, I.binary op x y m = Run.violate (.nullPointer t) m
  unary_calls : ∀ op x calls, I.observed.unaryOp op x (m.observed calls) =
    Result.observed (calls ++ op.calls m x) (I.unaryOp op x m)
  unary_inline : ∀ op x, op.answersInline x.tag = true → ∃ v, I.unaryOp op x m = .ok v m
  unary_handed : ∀ op x, op.answersInline x.tag = false → m.unrecordable [x] = false →
    ∃ line, HandsOff ((I.unary op (.single x)).run (m.noted line)) (I.unaryOp op x m)
  unary_unrecorded : ∀ op x, op.answersInline x.tag = false → m.unrecordable [x] = true →
    ∃ t, I.unaryOp op x m = Run.violate (.nullPointer t) m
  toBool_calls : ∀ x calls, I.observed.toBool x (m.observed calls) =
    Result.observed (calls ++ x.truthCalls) (I.toBool x m)
  toBool_inline : ∀ x, x.tag.isSmall = true → ∃ b, I.toBool x m = .ok b m
  toBool_asked : ∀ x, x.tag.isSmall = false → I.toBool x m = Run.onRuntime (I.truth x) m
  logicalNot_calls : ∀ x calls, I.observed.logicalNot x (m.observed calls) =
    Result.observed (calls ++ x.truthCalls) (I.logicalNot x m)
  logicalNot_inline : ∀ x, x.tag.isSmall = true → ∃ b, I.logicalNot x m = .ok (.ofBool b) m
  logicalNot_asked : ∀ x, x.tag.isSmall = false →
    I.logicalNot x m = (do return .ofBool (!(← Run.onRuntime (I.truth x))) : Run R Value) m
  typeOf_calls : ∀ x calls, I.observed.typeOf x (m.observed calls) =
    Result.observed (calls ++ I.typeOfCalls x m.runtime) (I.typeOf x m)
  typeOf_answered : ∀ x c r₁ r₂ v r₃, I.category x m.runtime = .ok c r₁ →
    I.release x r₁ = .ok () r₂ → I.categoryText c r₂ = .ok v r₃ →
    I.typeOf x m = .ok v { m with runtime := r₃ }

section

variable (I : Interpreter R) (m : Machine R) (calls : List Call)

theorem Value.small?_of_small {x : Value} (h : x.tag.isSmall = true) : x.small? = some x.lowInt :=
  if_pos h

theorem Value.small?_of_not_small {x : Value} (h : x.tag.isSmall = false) : x.small? = none :=
  if_neg (by simp [h])

theorem toBool_small {x : Value} (h : x.tag.isSmall = true) :
    I.toBool x = pure (x.lowInt != 0) := by
  rw [Interpreter.toBool, Value.small?_of_small h]

theorem toBool_not_small {x : Value} (h : x.tag.isSmall = false) :
    I.toBool x = Run.onRuntime (I.truth x) := by
  rw [Interpreter.toBool, Value.small?_of_not_small h]

theorem asBool?_of_not_small {x : Value} (h : x.tag.isSmall = false) : x.asBool? = none := by
  refine if_neg fun ht => ?_
  rw [ht] at h
  exact absurd h (by simp [Tag.isSmall])

/-- A truth value is small. -/
theorem isSmall_of_asBool? {x : Value} {b : Bool} (h : x.asBool? = some b) : x.tag.isSmall = true := by
  cases ht : x.tag.isSmall with
  | true => rfl
  | false =>
    rw [asBool?_of_not_small ht] at h
    cases h

theorem toBool_observed (x : Value) : I.observed.toBool x (m.observed calls) =
    Result.observed (calls ++ x.truthCalls) (I.toBool x m) := by
  cases h : x.tag.isSmall with
  | true =>
    rw [toBool_small _ h, toBool_small _ h, Value.truthCalls, if_pos h, List.append_nil]
    rfl
  | false =>
    rw [toBool_not_small _ h, toBool_not_small _ h, Value.truthCalls, if_neg (by simp [h])]
    exact Run.onRuntime_observed m calls rfl

theorem logicalNot_observed (x : Value) : I.observed.logicalNot x (m.observed calls) =
    Result.observed (calls ++ x.truthCalls) (I.logicalNot x m) := by
  unfold Interpreter.logicalNot
  cases hb : x.asBool? with
  | some b =>
    rw [Value.truthCalls, if_pos (isSmall_of_asBool? hb), List.append_nil]
    rfl
  | none => exact Run.bind_observed m calls (toBool_observed I m calls x) fun _ _ => rfl

theorem typeOf_observed (x : Value) : I.observed.typeOf x (m.observed calls) =
    Result.observed (calls ++ I.typeOfCalls x m.runtime) (I.typeOf x m) := by
  refine Run.onRuntime_observed m calls ?_
  have hc : I.observed.category x (m.runtime, calls) =
      Result.listing (calls ++ [.category x]) (I.category x m.runtime) := rfl
  unfold Interpreter.typeOfCalls
  show EStateM.bind _ _ _ = Result.listing _ (EStateM.bind _ _ _)
  rw [EStateM.bind, EStateM.bind, hc]
  cases I.category x m.runtime with
  | error s r => rfl
  | ok c r =>
    have hr : I.observed.release x (r, calls ++ [.category x]) =
        Result.listing (calls ++ [.category x] ++ [.release x]) (I.release x r) := rfl
    show EStateM.bind _ _ _ = Result.listing _ (EStateM.bind _ _ _)
    rw [EStateM.bind, EStateM.bind, hr]
    simp only
    cases I.release x r with
    | error s r => rw [List.append_assoc]; rfl
    | ok _ r =>
      have ht : I.observed.categoryText c (r, calls ++ [.category x] ++ [.release x]) =
          Result.listing (calls ++ [.category x] ++ [.release x] ++ [.categoryText c])
            (I.categoryText c r) := rfl
      refine ht.trans ?_
      rw [List.append_assoc, List.append_assoc]
      rfl

/-- **The hand-off of operators**, for every interpreter and every machine. -/
theorem operators_hand_off : HandOffContract I m where
  binary_calls op x y calls := by
    rw [binary_eq, op.entry_observed, inlineOr_observed, op.inline?_isSome]
    rfl
  binary_inline op x y h := inlineOr_some _ _ _ m ((op.inline?_isSome x y).trans h)
  binary_handed op x y h hr := by
    rw [binary_eq, inlineOr_none _ _ _ ((op.inline?_isSome x y).trans h)]
    exact handOff_hands op.label (op.entry I) (.pair x y) m hr
  binary_unrecorded op x y h hr := by
    rw [binary_eq, inlineOr_none _ _ _ ((op.inline?_isSome x y).trans h)]
    exact handOff_unrecorded op.label (op.entry I) (.pair x y) m hr
  unary_calls op x calls := by
    rw [unaryOp_eq, unaryOp_eq, UnaryOp.calls, ← op.inline?_isSome]
    exact inlineOr_observed op.label (.unary op) (I.unary op) (.single x) m _ calls
  unary_inline op x h := inlineOr_some _ _ _ m ((op.inline?_isSome x).trans h)
  unary_handed op x h hr := by
    rw [unaryOp_eq, inlineOr_none _ _ _ ((op.inline?_isSome x).trans h)]
    exact handOff_hands op.label (I.unary op) (.single x) m hr
  unary_unrecorded op x h hr := by
    rw [unaryOp_eq, inlineOr_none _ _ _ ((op.inline?_isSome x).trans h)]
    exact handOff_unrecorded op.label (I.unary op) (.single x) m hr
  toBool_calls x calls := toBool_observed I m calls x
  toBool_inline x h := ⟨_, congrFun (toBool_small I h) m⟩
  toBool_asked x h := congrFun (toBool_not_small I h) m
  logicalNot_calls x calls := logicalNot_observed I m calls x
  logicalNot_inline x h := by
    rw [Interpreter.logicalNot, toBool_small I h]
    cases x.asBool? <;> exact ⟨_, rfl⟩
  logicalNot_asked x h := by
    rw [Interpreter.logicalNot, asBool?_of_not_small h, toBool_not_small I h]
  typeOf_calls x calls := typeOf_observed I m calls x
  typeOf_answered x c r₁ r₂ v r₃ h₁ h₂ h₃ := by
    have hl : (do
        let category ← I.category x
        I.release x
        I.categoryText category : Local R Value) m.runtime = .ok v r₃ := by
      show EStateM.bind _ _ _ = _
      rw [EStateM.bind, h₁]
      show EStateM.bind _ _ _ = _
      rw [EStateM.bind, h₂]
      exact h₃
    rw [Interpreter.typeOf, Run.onRuntime, hl]

end

end TieredVm
