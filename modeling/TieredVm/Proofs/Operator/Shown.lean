import TieredVm.Proofs.Operator.Storage
import TieredVm.Proofs.Reference.Equality

/-!
# What operators give for any operands

Operands that can be shown are converted one after the other, and an operator that converts gives what
its operands' numbers give, or fails with what the first refusal says. Comparisons look at texts and
identities first. Inline or not, what is seen of the outcome depends on the heap alone: not on the
context, and not on who computes.

* `Seen.attempted`: an outcome that a conversion may have failed before.
* `gives_attempted`: a conversion in an entry of the interpreter.
* `seen_unary_of_shown`, `seen_arith_of_shown`, `seen_logic_of_shown`: operators that convert.
* `seen_relational_of_shown`, `seen_equal_of_shown`, `seen_strictEqual_of_shown`: comparisons.
-/

namespace TieredVm.Reference

/-- What is seen where a conversion may have failed. -/
def Seen.attempted {α : Type} (f : α → Seen) : Except Exception α → Seen
  | .ok a => f a
  | .error e => .failed (some e)

/-! ## Readings of the heap -/

section

variable {s s' : State} (h : s.cells = s'.cells)

include h

theorem State.numberOf_congr (v : Value) : s.numberOf v = s'.numberOf v := by
  cases s
  cases s'
  cases h
  rfl

theorem State.identityOf_congr (v : Value) : s.identityOf v = s'.identityOf v := by
  cases s
  cases s'
  cases h
  rfl

theorem State.contentOf_congr (v : Value) : s.contentOf v = s'.contentOf v := by
  cases s
  cases s'
  cases h
  rfl

theorem State.withNumbers_congr {α : Type} (f : Double → Double → α) (x y : Value) :
    s.withNumbers f x y = s'.withNumbers f x y := by
  rw [withNumbers, withNumbers, numberOf_congr h, numberOf_congr h]

theorem State.looselyEqual_congr (x y : Value) : s.looselyEqual x y = s'.looselyEqual x y := by
  rw [looselyEqual, looselyEqual, identityOf_congr h, identityOf_congr h, withNumbers_congr h]

theorem State.orderBetween_congr (x y : Value) : s.orderBetween x y = s'.orderBetween x y := by
  rw [orderBetween, orderBetween, contentOf_congr h, contentOf_congr h, withNumbers_congr h]

end

/-- An entry is counted, and the heap stays. -/
theorem exists_entered {m : Machine State} (hf : m.runtime.failNext = none) (point : EntryPoint) :
    ∃ m', (entered point).run m = .ok (.ok ()) m' ∧ m'.runtime.cells = m.runtime.cells :=
  ⟨_, entered_of_none hf point, rfl⟩

/-! ## Conversions in an entry -/

section

variable {n : Nat} {α : Type} {m m' : Machine State}

/-- An entry goes on with what a conversion gives, or fails as it does. -/
theorem gives_attempted {act : Attempt State α} {f : α → Attempt State (Operands (n + 1))}
    {r : Except Exception α} {g : α → Seen} (hact : act.run m = .ok r m')
    (hshown : ∀ e, r = .error e → e.dangling = false)
    (hf : ∀ a, r = .ok a → Gives ((f a).run m') (g a)) :
    Gives ((act >>= f).run m) (.attempted g r) := by
  cases r with
  | ok a => exact gives_bind hact (hf a rfl)
  | error e => exact .inr ⟨e, m', Attempt.bind_of_error hact f, hshown e rfl, rfl⟩

/-- What is computed from a conversion. -/
theorem map_of_run {β : Type} {act : Attempt State α} {r : Except Exception α}
    (h : act.run m = .ok r m') (f : α → β) :
    (do return f (← act) : Attempt State β).run m = .ok (r.map f) m' := by
  cases r with
  | ok a => exact Attempt.bind_of_ok h _
  | error e => exact Attempt.bind_of_error h _

end

/-- The value a unary operator computes from a number. -/
def unaryResult (d : Double) : UnaryOp → Value
  | .neg => .number d.neg
  | .plus => .number d
  | .bitNot => .ofInt (~~~d.toInt32)
  | .inc => .number (d.add (Double.ofInt 1))
  | .dec => .number (d.sub (Double.ofInt 1))

theorem seenValue_unaryResult (m : Machine State) (d : Double) (op : UnaryOp) :
    seenValue m (unaryResult d op) = op.onNumber d := by
  cases op with
  | bitNot => exact seenValue_ofInt _ m
  | _ => exact seenValue_number m _

variable {x y : Value} (hx : x.dangling = false) (hy : y.dangling = false) (m : Machine State)

section

include hx

theorem convert_shown : (convert (·.toNumber x)).run m = .ok (m.runtime.numberOf x) m :=
  convert_of_run (m.runtime.toNumber_of_shown hx).1

theorem convert_int32_shown :
    (convert (·.toInt32 x)).run m = .ok ((m.runtime.numberOf x).map Double.toInt32) m := by
  refine convert_of_run ?_
  rw [State.toInt32, ExceptT.run_bind, (m.runtime.toNumber_of_shown hx).1]
  cases m.runtime.numberOf x <;> rfl

theorem unaryValue_shown (op : UnaryOp) :
    (unaryValue x op).run m = .ok ((m.runtime.numberOf x).map (unaryResult · op)) m := by
  cases op with
  | bitNot =>
    refine (map_of_run (convert_int32_shown hx m) _).trans ?_
    cases m.runtime.numberOf x <;> rfl
  | _ => exact map_of_run (convert_shown hx m) _

end

/-! ## The interpreter's answers -/

variable {m}

section

variable (hf : m.runtime.failNext = none)

include hx hf

theorem gives_unary_shown (op : UnaryOp) : Gives ((unary op (.single x)).run m)
    (.attempted op.onNumber (m.runtime.numberOf x)) := by
  obtain ⟨m₁, hentered, hcells⟩ := exists_entered hf (.unary op)
  have hshown := (m₁.runtime.toNumber_of_shown hx).2
  have hrun := unaryValue_shown hx m₁ op
  refine gives_bind hentered ?_
  rw [← State.numberOf_congr hcells]
  cases hn : m₁.runtime.numberOf x with
  | ok d =>
    rw [hn] at hrun
    exact gives_bind hrun (gives_answer _ (seenValue_unaryResult m₁ d op))
  | error e =>
    rw [hn] at hrun
    exact .inr ⟨e, m₁, Attempt.bind_of_error hrun _, hshown e hn, rfl⟩

include hy

/-- Two conversions, and the answer computed from both. -/
theorem gives_withNumbers {α : Type} {c : Value → Attempt State α} {u : Double → α}
    {point : EntryPoint} {f : α → α → Value} {g : Double → Double → Seen}
    (hc : ∀ {v : Value}, v.dangling = false → ∀ m : Machine State,
      (c v).run m = .ok ((m.runtime.numberOf v).map u) m)
    (hseen : ∀ a b m', seenValue m' (f (u a) (u b)) = g a b) :
    Gives ((do
      entered point
      let a ← c x
      let b ← c y
      answer (.pair x y) (f a b) : Attempt State (Operands 2)).run m)
      (.attempted id (m.runtime.withNumbers g x y)) := by
  obtain ⟨m₁, hentered, hcells⟩ := exists_entered hf point
  have hrunx := hc hx m₁
  have hruny := hc hy m₁
  refine gives_bind hentered ?_
  rw [← State.withNumbers_congr hcells, State.withNumbers]
  cases hnx : m₁.runtime.numberOf x with
  | error e =>
    rw [hnx] at hrunx
    have hshown := (m₁.runtime.toNumber_of_shown hx).2 e hnx
    have hfails : Gives ((c x >>= fun a => c y >>= fun b => answer (.pair x y) (f a b)).run m₁)
        (.failed (some e)) := .inr ⟨e, m₁, Attempt.bind_of_error hrunx _, hshown, rfl⟩
    cases m₁.runtime.numberOf y <;> exact hfails
  | ok a =>
    rw [hnx] at hrunx
    refine gives_bind hrunx ?_
    cases hny : m₁.runtime.numberOf y with
    | error e =>
      rw [hny] at hruny
      have hshown := (m₁.runtime.toNumber_of_shown hy).2 e hny
      exact .inr ⟨e, m₁, Attempt.bind_of_error hruny _, hshown, rfl⟩
    | ok b =>
      rw [hny] at hruny
      exact gives_bind hruny (gives_answer _ (hseen a b m₁))

theorem gives_arith_shown (power : Double → Double → Double) (op : ArithOp) :
    Gives ((arith power op (.pair x y)).run m) (.attempted id
      (m.runtime.withNumbers (fun a b => (BinaryOp.arith op).onNumbers power a b) x y)) :=
  gives_withNumbers hx hy hf (u := id)
    (fun h m => (convert_shown h m).trans (by cases m.runtime.numberOf _ <;> rfl))
    fun a b m' => seenValue_number m' _

theorem gives_logic_shown (power : Double → Double → Double) (op : LogicOp) :
    Gives ((logic op (.pair x y)).run m) (.attempted id
      (m.runtime.withNumbers (fun a b => (BinaryOp.logic op).onNumbers power a b) x y)) :=
  gives_withNumbers hx hy hf (fun h m => convert_int32_shown h m)
    fun _ _ m' => seenValue_ofInt _ m'

omit hf in
/-- The order of two operands, as the interpreter finds it. -/
theorem orderOf_shown : (orderOf x y).run m = .ok (m.runtime.orderBetween x y) m := by
  obtain ⟨o, ho⟩ := m.runtime.exists_textOf? hx
  obtain ⟨o', ho'⟩ := m.runtime.exists_textOf? hy
  have hcx : m.runtime.contentOf x = o := by rw [State.contentOf, ho]; rfl
  have hcy : m.runtime.contentOf y = o' := by rw [State.contentOf, ho']; rfl
  have hrunx := convert_shown hx m
  have hruny := convert_shown hy m
  have hnumbers : (do
      let a ← convert (·.toNumber x)
      let b ← convert (·.toNumber y)
      return a.compare? b : Attempt State (Option Ordering)).run m =
        .ok (m.runtime.withNumbers Double.compare? x y) m := by
    unfold State.withNumbers
    cases hnx : m.runtime.numberOf x with
    | error e =>
      rw [hnx] at hrunx
      rw [Attempt.bind_of_error hrunx]
    | ok a =>
      rw [hnx] at hrunx
      rw [Attempt.bind_of_ok hrunx]
      refine (map_of_run hruny _).trans ?_
      cases m.runtime.numberOf y <;> rfl
  rw [orderOf, Attempt.bind_of_ok (Attempt.lift_of_ok (observe_of_ok ho)),
    Attempt.bind_of_ok (Attempt.lift_of_ok (observe_of_ok ho')), State.orderBetween, hcx, hcy]
  cases o with
  | none => cases o' <;> exact hnumbers
  | some t =>
    cases o' with
    | none => exact hnumbers
    | some u => rfl

theorem gives_relational_shown (op : RelOp) : Gives ((relational op (.pair x y)).run m)
    (.attempted (fun o => .boolean (o.any op.holds)) (m.runtime.orderBetween x y)) := by
  obtain ⟨m₁, hentered, hcells⟩ := exists_entered hf (.relational op)
  refine gives_bind hentered ?_
  rw [← State.orderBetween_congr hcells]
  exact gives_attempted (orderOf_shown hx hy)
    (fun e he => m₁.runtime.orderBetween_error he ▸ State.refusal_shown)
    fun o _ => gives_answer _ (seenValue_ofBool _ m₁)

theorem gives_equal_shown (negate : Bool) : Gives ((equal negate (.pair x y)).run m)
    (.attempted (fun b => .boolean (b != negate)) (m.runtime.looselyEqual x y)) := by
  obtain ⟨m₁, hentered, hcells⟩ := exists_entered hf (.equal negate)
  refine gives_bind hentered ?_
  rw [← State.looselyEqual_congr hcells]
  exact gives_attempted (convert_of_run (m₁.runtime.looseEqual_of_shown hx hy))
    (fun e he => m₁.runtime.looselyEqual_error he ▸ State.refusal_shown)
    fun b _ => gives_answer _ (seenValue_ofBool _ m₁)

theorem gives_strictEqual_shown (negate : Bool) : Gives ((strictEqual negate (.pair x y)).run m)
    (.boolean ((m.runtime.identityOf x).same (m.runtime.identityOf y) != negate)) := by
  obtain ⟨m₁, hentered, hcells⟩ := exists_entered hf (.strictEqual negate)
  refine gives_bind hentered ?_
  rw [← State.identityOf_congr hcells, ← State.identityOf_congr hcells]
  exact gives_bind
    (Attempt.lift_of_ok (observe_of_ok (m₁.runtime.strictEqual_of_shown hx hy)))
    (gives_answer _ (seenValue_ofBool _ m₁))

end

end TieredVm.Reference

namespace TieredVm

open Reference

/-! ## Outcomes -/

variable {x y : Value} (hx : x.dangling = false) (hy : y.dangling = false)
  {m : Machine Reference.State} (hf : m.runtime.failNext = none)
  (power : Double → Double → Double)

include hx hf

/-- Inline or not, a unary operator gives what the number of its operand gives. -/
theorem seen_unary_of_shown (op : UnaryOp) : seen ((interpreterWith power).unaryOp op x m) =
    .attempted op.onNumber (m.runtime.numberOf x) := by
  by_cases hn : ∃ a, x.IsNumber a
  · obtain ⟨a, ha⟩ := hn
    rw [seen_unary_of_number ha hf, State.numberOf_of_isNumber _ ha]
    rfl
  · have hnone : op.inline? x = none := by
      rw [Value.isNumber_iff_tag, not_or] at hn
      rw [← Option.not_isSome_iff_eq_none, op.inline?_isSome, op.answersInline_of_ne hn.1 hn.2]
      exact Bool.false_ne_true
    have hrecord : m.unrecordable [x] = false := recordable_of_shown m (by simp [hx])
    rw [unaryOp_eq, hnone]
    exact seen_handOff op.label hrecord fun line => gives_unary_shown (m := m.noted line) hx hf op

include hy

/-- Two operands that are not both numbers are handed to the interpreter. -/
theorem seen_binary_of_gives {op : BinaryOp} {s : Seen} (hzero : ¬ op.IntRemainderByZero x y)
    (hnumbers : ∀ a b, x.IsNumber a → y.IsNumber b → op.onNumbers power a b = s)
    (hgives : ∀ line, Gives ((op.entry (interpreterWith power) (.pair x y)).run (m.noted line)) s) :
    seen ((interpreterWith power).binary op x y m) = s := by
  by_cases hn : (∃ a, x.IsNumber a) ∧ ∃ b, y.IsNumber b
  · obtain ⟨⟨a, ha⟩, b, hb⟩ := hn
    rw [seen_binary_of_numbers ha hb hf power hzero, hnumbers a b ha hb]
  · have hrecord : m.unrecordable [x, y] = false := recordable_of_shown m (by simp [hx, hy])
    rw [binary_eq, inline?_of_not_numbers op hn]
    exact seen_handOff op.label hrecord hgives

theorem seen_arith_of_shown {op : ArithOp} (hzero : ¬ (BinaryOp.arith op).IntRemainderByZero x y) :
    seen ((interpreterWith power).binary (.arith op) x y m) = .attempted id
      (m.runtime.withNumbers (fun a b => (BinaryOp.arith op).onNumbers power a b) x y) :=
  seen_binary_of_gives hx hy hf power hzero
    (fun a b ha hb => by rw [m.runtime.withNumbers_of_isNumber _ ha hb]; rfl)
    fun line => gives_arith_shown (m := m.noted line) hx hy hf power op

theorem seen_logic_of_shown (op : LogicOp) :
    seen ((interpreterWith power).binary (.logic op) x y m) = .attempted id
      (m.runtime.withNumbers (fun a b => (BinaryOp.logic op).onNumbers power a b) x y) :=
  seen_binary_of_gives hx hy hf power (fun h => absurd h.1 nofun)
    (fun a b ha hb => by rw [m.runtime.withNumbers_of_isNumber _ ha hb]; rfl)
    fun line => gives_logic_shown (m := m.noted line) hx hy hf power op

/-- An order comparison reads the order between its operands, and is false where there is none. -/
theorem seen_relational_of_shown (op : RelOp) :
    seen ((interpreterWith power).binary (.relational op) x y m) =
      .attempted (fun o => .boolean (o.any op.holds)) (m.runtime.orderBetween x y) :=
  seen_binary_of_gives hx hy hf power (fun h => absurd h.1 nofun)
    (fun a b ha hb => by rw [m.runtime.orderBetween_of_isNumber ha hb]; rfl)
    fun line => gives_relational_shown (m := m.noted line) hx hy hf op

theorem seen_equal_of_shown (negate : Bool) :
    seen ((interpreterWith power).binary (.equal negate) x y m) =
      .attempted (fun b => .boolean (b != negate)) (m.runtime.looselyEqual x y) :=
  seen_binary_of_gives hx hy hf power (fun h => absurd h.1 nofun)
    (fun a b ha hb => by rw [m.runtime.looselyEqual_of_isNumber ha hb]; rfl)
    fun line => gives_equal_shown (m := m.noted line) hx hy hf negate

/-- Equality without conversions never fails. -/
theorem seen_strictEqual_of_shown (negate : Bool) :
    seen ((interpreterWith power).binary (.strictEqual negate) x y m) =
      .boolean ((m.runtime.identityOf x).same (m.runtime.identityOf y) != negate) :=
  seen_binary_of_gives hx hy hf power (fun h => absurd h.1 nofun)
    (fun a b ha hb => by
      rw [m.runtime.identityOf_of_isNumber ha, m.runtime.identityOf_of_isNumber hb]
      rfl)
    fun line => gives_strictEqual_shown (m := m.noted line) hx hy hf negate

end TieredVm
