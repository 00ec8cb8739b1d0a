import TieredVm.Proofs.Operator.Shown

/-!
# Comparisons

Two integers are compared inline and every other pair by the interpreter, with conversions and by
reference where need be. All of it is one system: a comparison reads the same from both sides and is the
opposite of its negation, numbers compare as what they are worth however they are stored, equality
without conversions is an equivalence, and it implies equality with conversions.

* `RelOp.swapped`, `seen_relational_swapped`: an order comparison read from the other side.
* `orderedTests`, `unorderedTests`: the tests of two numbers.
* `strictEqual_equivalence`: equality without conversions, away from the NaNs.
* `comparisons_coherent`: all of it, on every machine on which no failure was prepared.
-/

namespace TieredVm

open Reference
open Double (Extended)

/-- The comparison that says the same with its operands exchanged. -/
def RelOp.swapped : RelOp → RelOp
  | lt => gt
  | le => ge
  | gt => lt
  | ge => le

theorem RelOp.holds_swap (op : RelOp) (o : Ordering) : op.swapped.holds o.swap = op.holds o := by
  cases op <;> cases o <;> rfl

section

variable {α : Type} [LinearOrder α] (p q : α)

theorem RelOp.holds_lt_cmp : lt.holds (cmp p q) = decide (p < q) := by
  rw [Bool.eq_iff_iff, decide_eq_true_iff, ← cmp_eq_lt_iff]
  exact beq_iff_eq

theorem RelOp.holds_gt_cmp : gt.holds (cmp p q) = decide (q < p) := by
  rw [Bool.eq_iff_iff, decide_eq_true_iff, ← cmp_eq_gt_iff]
  exact beq_iff_eq

theorem RelOp.holds_le_cmp : le.holds (cmp p q) = decide (p ≤ q) := by
  rw [Bool.eq_iff_iff, decide_eq_true_iff, ← not_lt, ← cmp_eq_gt_iff]
  exact bne_iff_ne

theorem RelOp.holds_ge_cmp : ge.holds (cmp p q) = decide (q ≤ p) := by
  rw [Bool.eq_iff_iff, decide_eq_true_iff, ← not_lt, ← cmp_eq_lt_iff]
  exact bne_iff_ne

end

/-- The operators that answer whether two values compare. -/
def BinaryOp.isComparison : BinaryOp → Bool
  | relational _ | equal _ | strictEqual _ => true
  | _ => false

namespace Value

/-- The value is a number. -/
def Numeric (v : Value) : Prop := ∃ d, v.IsNumber d

/-- The value is one of the NaNs. -/
def IsNaN (v : Value) : Prop := ∃ d, v.IsNumber d ∧ d.isNaN = true

end Value

/-! ## What comparisons say -/

section

variable (I : Interpreter Reference.State) (m : Machine Reference.State)

/-- The tests of two numbers that are worth `p` and `q`. -/
structure OrderedTests (x y : Value) (p q : Extended) : Prop where
  lt : seen (I.binary (.relational .lt) x y m) = .boolean (decide (p < q))
  le : seen (I.binary (.relational .le) x y m) = .boolean (decide (p ≤ q))
  gt : seen (I.binary (.relational .gt) x y m) = .boolean (decide (q < p))
  ge : seen (I.binary (.relational .ge) x y m) = .boolean (decide (q ≤ p))
  eq : seen (I.binary (.equal false) x y m) = .boolean (decide (p = q))
  strictEq : seen (I.binary (.strictEqual false) x y m) = .boolean (decide (p = q))

/-- The tests of two numbers of which one is a NaN. -/
structure UnorderedTests (x y : Value) : Prop where
  relational : ∀ op, seen (I.binary (.relational op) x y m) = .boolean false
  eq : seen (I.binary (.equal false) x y m) = .boolean false
  strictEq : seen (I.binary (.strictEqual false) x y m) = .boolean false

/-- A comparison of two operands comes out true. -/
def Holds (op : BinaryOp) (x y : Value) : Prop := seen (I.binary op x y m) = .boolean true

/-- The comparisons of a machine are one system. Operands are any that can be shown. -/
structure CoherentComparisons : Prop where
  /-- A comparison answers, or it fails with an exception. -/
  settled : ∀ op x y, op.isComparison = true → x.dangling = false → y.dangling = false →
    (∃ b, seen (I.binary op x y m) = .boolean b) ∨ ∃ e, seen (I.binary op x y m) = .failed (some e)
  lt_gt : ∀ x y, x.dangling = false → y.dangling = false →
    seen (I.binary (.relational .lt) x y m) = seen (I.binary (.relational .gt) y x m)
  le_ge : ∀ x y, x.dangling = false → y.dangling = false →
    seen (I.binary (.relational .le) x y m) = seen (I.binary (.relational .ge) y x m)
  eq_comm : ∀ x y, x.dangling = false → y.dangling = false →
    seen (I.binary (.equal false) x y m) = seen (I.binary (.equal false) y x m)
  strictEq_comm : ∀ x y, x.dangling = false → y.dangling = false →
    seen (I.binary (.strictEqual false) x y m) = seen (I.binary (.strictEqual false) y x m)
  ne : ∀ x y, x.dangling = false → y.dangling = false →
    (∃ b, seen (I.binary (.equal false) x y m) = .boolean b ∧
      seen (I.binary (.equal true) x y m) = .boolean (!b)) ∨
    ∃ e, seen (I.binary (.equal false) x y m) = .failed (some e) ∧
      seen (I.binary (.equal true) x y m) = .failed (some e)
  /-- Equality without conversions never fails. -/
  strictNe : ∀ x y, x.dangling = false → y.dangling = false →
    ∃ b, seen (I.binary (.strictEqual false) x y m) = .boolean b ∧
      seen (I.binary (.strictEqual true) x y m) = .boolean (!b)
  ordered : ∀ x y a b p q, x.IsNumber a → y.IsNumber b → a.worth? = some p → b.worth? = some q →
    OrderedTests I m x y p q
  unordered : ∀ x y a b, x.IsNumber a → y.IsNumber b → a.isNaN = true ∨ b.isNaN = true →
    UnorderedTests I m x y
  lt_trans : ∀ x y z, x.Numeric → y.Numeric → z.Numeric → Holds I m (.relational .lt) x y →
    Holds I m (.relational .lt) y z → Holds I m (.relational .lt) x z
  le_trans : ∀ x y z, x.Numeric → y.Numeric → z.Numeric → Holds I m (.relational .le) x y →
    Holds I m (.relational .le) y z → Holds I m (.relational .le) x z
  eq_trans : ∀ x y z, x.Numeric → y.Numeric → z.Numeric → Holds I m (.equal false) x y →
    Holds I m (.equal false) y z → Holds I m (.equal false) x z
  /-- Any two numbers that are no NaN are in order. -/
  total : ∀ x y, x.Numeric → y.Numeric → ¬ x.IsNaN → ¬ y.IsNaN →
    Holds I m (.relational .le) x y ∨ Holds I m (.relational .le) y x
  strictEq_equivalence : Equivalence fun x y : { v : Value // v.dangling = false ∧ ¬ v.IsNaN } =>
    Holds I m (.strictEqual false) x y
  strictEq_nan : ∀ x y, x.dangling = false → y.dangling = false → x.IsNaN ∨ y.IsNaN →
    seen (I.binary (.strictEqual false) x y m) = .boolean false
  eq_of_strictEq : ∀ x y, x.dangling = false → y.dangling = false →
    Holds I m (.strictEqual false) x y → Holds I m (.equal false) x y

end

/-! ## Outcomes -/

theorem attempted_map {α β : Type} (f : β → Seen) (g : α → β) (r : Except Exception α) :
    Seen.attempted f (r.map g) = Seen.attempted (f ∘ g) r := by
  cases r <;> rfl

/-- A comparison that was attempted answers or fails. -/
theorem attempted_settled {α : Type} (f : α → Bool) (r : Except Exception α) :
    (∃ b, Seen.attempted (fun a => .boolean (f a)) r = .boolean b) ∨
      ∃ e, Seen.attempted (fun a => .boolean (f a)) r = .failed (some e) := by
  cases r with
  | ok a => exact .inl ⟨_, rfl⟩
  | error e => exact .inr ⟨e, rfl⟩

section

variable {m : Machine Reference.State} (hf : m.runtime.failNext = none)
  (power : Double → Double → Double)

include hf

section

variable {x y : Value} (hx : x.dangling = false) (hy : y.dangling = false)

include hx hy

theorem comparison_settled {op : BinaryOp} (h : op.isComparison = true) :
    (∃ b, seen ((interpreterWith power).binary op x y m) = .boolean b) ∨
      ∃ e, seen ((interpreterWith power).binary op x y m) = .failed (some e) := by
  cases op with
  | relational op =>
    rw [seen_relational_of_shown hx hy hf]
    exact attempted_settled (fun o : Option Ordering => o.any op.holds) _
  | equal negate =>
    rw [seen_equal_of_shown hx hy hf]
    exact attempted_settled (· != negate) _
  | strictEqual negate =>
    rw [seen_strictEqual_of_shown hx hy hf]
    exact .inl ⟨_, rfl⟩
  | _ => exact absurd h nofun

/-! ### Read from the other side -/

theorem seen_relational_swapped (op : RelOp) :
    seen ((interpreterWith power).binary (.relational op) x y m) =
      seen ((interpreterWith power).binary (.relational op.swapped) y x m) := by
  rw [seen_relational_of_shown hx hy hf, seen_relational_of_shown hy hx hf,
    m.runtime.orderBetween_swap x y, attempted_map]
  congr 1
  funext o
  cases o with
  | none => rfl
  | some o => exact congrArg Seen.boolean (op.holds_swap o).symm

theorem seen_equal_comm (negate : Bool) :
    seen ((interpreterWith power).binary (.equal negate) x y m) =
      seen ((interpreterWith power).binary (.equal negate) y x m) := by
  rw [seen_equal_of_shown hx hy hf, seen_equal_of_shown hy hx hf, State.looselyEqual_comm]

theorem seen_strictEqual_comm (negate : Bool) :
    seen ((interpreterWith power).binary (.strictEqual negate) x y m) =
      seen ((interpreterWith power).binary (.strictEqual negate) y x m) := by
  rw [seen_strictEqual_of_shown hx hy hf, seen_strictEqual_of_shown hy hx hf, Identity.same_comm]

/-! ### Negated -/

theorem seen_equal_negated :
    (∃ b, seen ((interpreterWith power).binary (.equal false) x y m) = .boolean b ∧
      seen ((interpreterWith power).binary (.equal true) x y m) = .boolean (!b)) ∨
    ∃ e, seen ((interpreterWith power).binary (.equal false) x y m) = .failed (some e) ∧
      seen ((interpreterWith power).binary (.equal true) x y m) = .failed (some e) := by
  rw [seen_equal_of_shown hx hy hf, seen_equal_of_shown hx hy hf]
  cases m.runtime.looselyEqual x y with
  | ok b => exact .inl ⟨b, congrArg Seen.boolean (Bool.bne_false b),
      congrArg Seen.boolean (Bool.bne_true b)⟩
  | error e => exact .inr ⟨e, rfl, rfl⟩

theorem seen_strictEqual_negated :
    ∃ b, seen ((interpreterWith power).binary (.strictEqual false) x y m) = .boolean b ∧
      seen ((interpreterWith power).binary (.strictEqual true) x y m) = .boolean (!b) := by
  rw [seen_strictEqual_of_shown hx hy hf, seen_strictEqual_of_shown hx hy hf]
  exact ⟨_, congrArg Seen.boolean (Bool.bne_false _), congrArg Seen.boolean (Bool.bne_true _)⟩

/-! ### Equality without conversions -/

theorem holds_strictEqual_iff : Holds (interpreterWith power) m (.strictEqual false) x y ↔
    (m.runtime.identityOf x).same (m.runtime.identityOf y) = true := by
  rw [Holds, seen_strictEqual_of_shown hx hy hf, Bool.bne_false, Seen.boolean.injEq]

/-- Equality without conversions implies equality with conversions. -/
theorem holds_equal_of_strictEqual (h : Holds (interpreterWith power) m (.strictEqual false) x y) :
    Holds (interpreterWith power) m (.equal false) x y := by
  rw [holds_strictEqual_iff hf power hx hy] at h
  rw [Holds, seen_equal_of_shown hx hy hf, m.runtime.looselyEqual_of_same hx hy h]
  rfl

omit hf hy in
/-- The NaNs are the values identified by one. -/
theorem isNaN_identityOf (s : Reference.State) : (s.identityOf x).isNaN = true ↔ x.IsNaN := by
  constructor
  · intro h
    obtain ⟨d, hd, -, hid⟩ | ⟨t, -, -, -, hid⟩ | ⟨-, -, hid⟩ := s.identityOf_cases hx <;> rw [hid] at h
    · exact ⟨d, hd, h⟩
    · exact absurd h nofun
    · exact absurd h nofun
  · rintro ⟨d, hd, hnan⟩
    rw [s.identityOf_of_isNumber hd]
    exact hnan

theorem seen_strictEqual_of_isNaN (h : x.IsNaN ∨ y.IsNaN) :
    seen ((interpreterWith power).binary (.strictEqual false) x y m) = .boolean false := by
  have hsame : (m.runtime.identityOf x).same (m.runtime.identityOf y) = false := by
    rcases h with h | h
    · exact Identity.same_of_isNaN ((isNaN_identityOf hx _).mpr h) _
    · rw [Identity.same_comm]
      exact Identity.same_of_isNaN ((isNaN_identityOf hy _).mpr h) _
  rw [seen_strictEqual_of_shown hx hy hf, hsame, Bool.bne_false]

end

/-- **Equality without conversions is an equivalence** on the values other than the NaNs. -/
theorem strictEqual_equivalence :
    Equivalence fun x y : { v : Value // v.dangling = false ∧ ¬ v.IsNaN } =>
      Holds (interpreterWith power) m (.strictEqual false) x y where
  refl x := by
    have hnan : (m.runtime.identityOf x).isNaN = false :=
      Bool.eq_false_iff.mpr fun h => x.2.2 ((isNaN_identityOf x.2.1 _).mp h)
    rw [holds_strictEqual_iff hf power x.2.1 x.2.1, Identity.same_self, hnan, Bool.not_false]
  symm {x y} h := by
    rw [holds_strictEqual_iff hf power x.2.1 y.2.1] at h
    rwa [holds_strictEqual_iff hf power y.2.1 x.2.1, Identity.same_comm]
  trans {x y z} hxy hyz := by
    rw [holds_strictEqual_iff hf power x.2.1 y.2.1] at hxy
    rw [holds_strictEqual_iff hf power y.2.1 z.2.1] at hyz
    rw [holds_strictEqual_iff hf power x.2.1 z.2.1]
    exact Identity.same_trans hxy hyz

/-! ### Two numbers -/

section

variable {x y : Value} {a b : Double} (hx : x.IsNumber a) (hy : y.IsNumber b)

include hx hy

theorem seen_relational_of_isNumber (op : RelOp) :
    seen ((interpreterWith power).binary (.relational op) x y m) =
      .boolean ((a.compare? b).any op.holds) :=
  seen_binary_of_numbers hx hy hf power fun h => absurd h.1 nofun

theorem seen_equal_of_isNumber :
    seen ((interpreterWith power).binary (.equal false) x y m) = .boolean (a.numEq b) := by
  have hzero : ¬ (BinaryOp.equal false).IntRemainderByZero x y := fun h => absurd h.1 nofun
  rw [seen_binary_of_numbers hx hy hf power hzero, BinaryOp.onNumbers, Bool.bne_false]

theorem seen_strictEqual_of_isNumber :
    seen ((interpreterWith power).binary (.strictEqual false) x y m) = .boolean (a.numEq b) := by
  have hzero : ¬ (BinaryOp.strictEqual false).IntRemainderByZero x y := fun h => absurd h.1 nofun
  rw [seen_binary_of_numbers hx hy hf power hzero, BinaryOp.onNumbers, Bool.bne_false]

/-- Numbers compare as what they are worth. -/
theorem orderedTests {p q : Extended} (hp : a.worth? = some p) (hq : b.worth? = some q) :
    OrderedTests (interpreterWith power) m x y p q := by
  have hcompare := Double.compare?_of_worth hp hq
  have heq : a.numEq b = decide (p = q) := by
    rw [Double.numEq, hcompare, Bool.eq_iff_iff, beq_iff_eq, Option.some.injEq, cmp_eq_eq_iff,
      decide_eq_true_iff]
  have htest : ∀ op : RelOp, seen ((interpreterWith power).binary (.relational op) x y m) =
      .boolean (op.holds (cmp p q)) := fun op => by
    rw [seen_relational_of_isNumber hf power hx hy, hcompare]
    rfl
  constructor
  case lt => rw [htest, RelOp.holds_lt_cmp]
  case le => rw [htest, RelOp.holds_le_cmp]
  case gt => rw [htest, RelOp.holds_gt_cmp]
  case ge => rw [htest, RelOp.holds_ge_cmp]
  case eq => rw [seen_equal_of_isNumber hf power hx hy, heq]
  case strictEq => rw [seen_strictEqual_of_isNumber hf power hx hy, heq]

/-- A NaN is in no order and equals nothing. -/
theorem unorderedTests (h : a.isNaN = true ∨ b.isNaN = true) :
    UnorderedTests (interpreterWith power) m x y := by
  have hcompare := (Double.compare?_eq_none_iff a b).mpr h
  have heq : a.numEq b = false := by
    rw [Double.numEq, hcompare]
    rfl
  constructor
  case relational =>
    intro op
    rw [seen_relational_of_isNumber hf power hx hy, hcompare]
    rfl
  case eq => rw [seen_equal_of_isNumber hf power hx hy, heq]
  case strictEq => rw [seen_strictEqual_of_isNumber hf power hx hy, heq]

/-- A test of two numbers holds when both are worth something and their worths are so related. -/
theorem holds_iff_worth {op : BinaryOp} {rel : Extended → Extended → Prop} [DecidableRel rel]
    (hordered : ∀ {p q}, OrderedTests (interpreterWith power) m x y p q →
      seen ((interpreterWith power).binary op x y m) = .boolean (decide (rel p q)))
    (hunordered : UnorderedTests (interpreterWith power) m x y →
      seen ((interpreterWith power).binary op x y m) = .boolean false) :
    Holds (interpreterWith power) m op x y ↔
      ∃ p q, a.worth? = some p ∧ b.worth? = some q ∧ rel p q := by
  have hnan : a.isNaN = true ∨ b.isNaN = true → ¬ Holds (interpreterWith power) m op x y := fun h => by
    rw [Holds, hunordered (unorderedTests hf power hx hy h)]
    exact nofun
  constructor
  · intro h
    obtain ⟨p, hp⟩ := Double.exists_worth (Bool.eq_false_iff.mpr fun hn => hnan (.inl hn) h)
    obtain ⟨q, hq⟩ := Double.exists_worth (Bool.eq_false_iff.mpr fun hn => hnan (.inr hn) h)
    rw [Holds, hordered (orderedTests hf power hx hy hp hq), Seen.boolean.injEq,
      decide_eq_true_iff] at h
    exact ⟨p, q, hp, hq, h⟩
  · rintro ⟨p, q, hp, hq, h⟩
    rw [Holds, hordered (orderedTests hf power hx hy hp hq), decide_eq_true h]

theorem holds_lt_iff : Holds (interpreterWith power) m (.relational .lt) x y ↔
    ∃ p q, a.worth? = some p ∧ b.worth? = some q ∧ p < q :=
  holds_iff_worth hf power hx hy (·.lt) (·.relational .lt)

theorem holds_le_iff : Holds (interpreterWith power) m (.relational .le) x y ↔
    ∃ p q, a.worth? = some p ∧ b.worth? = some q ∧ p ≤ q :=
  holds_iff_worth hf power hx hy (·.le) (·.relational .le)

theorem holds_eq_iff : Holds (interpreterWith power) m (.equal false) x y ↔
    ∃ p q, a.worth? = some p ∧ b.worth? = some q ∧ p = q :=
  holds_iff_worth hf power hx hy (·.eq) (·.eq)

end

end

/-- Relations of worths that are transitive stay so when worths are found one pair at a time. -/
theorem worth_trans {rel : Extended → Extended → Prop} (hrel : ∀ {p q r}, rel p q → rel q r → rel p r)
    {a b c : Double} (hab : ∃ p q, a.worth? = some p ∧ b.worth? = some q ∧ rel p q)
    (hbc : ∃ p q, b.worth? = some p ∧ c.worth? = some q ∧ rel p q) :
    ∃ p q, a.worth? = some p ∧ c.worth? = some q ∧ rel p q := by
  obtain ⟨p, q, hp, hq, hpq⟩ := hab
  obtain ⟨q', r, hq', hr, hqr⟩ := hbc
  obtain rfl : q = q' := Option.some.inj (hq.symm.trans hq')
  exact ⟨p, r, hp, hr, hrel hpq hqr⟩

/-- **The comparisons are one system**, on every machine on which no failure was prepared. -/
theorem comparisons_coherent (power : Double → Double → Double) (m : Machine Reference.State)
    (hf : m.runtime.failNext = none) : CoherentComparisons (interpreterWith power) m where
  settled _ _ _ hop hx hy := comparison_settled hf power hx hy hop
  lt_gt _ _ hx hy := seen_relational_swapped hf power hx hy .lt
  le_ge _ _ hx hy := seen_relational_swapped hf power hx hy .le
  eq_comm _ _ hx hy := seen_equal_comm hf power hx hy false
  strictEq_comm _ _ hx hy := seen_strictEqual_comm hf power hx hy false
  ne _ _ hx hy := seen_equal_negated hf power hx hy
  strictNe _ _ hx hy := seen_strictEqual_negated hf power hx hy
  ordered _ _ _ _ _ _ ha hb hp hq := orderedTests hf power ha hb hp hq
  unordered _ _ _ _ ha hb h := unorderedTests hf power ha hb h
  lt_trans x y z := by
    rintro ⟨a, ha⟩ ⟨b, hb⟩ ⟨c, hc⟩ hxy hyz
    rw [holds_lt_iff hf power ha hb] at hxy
    rw [holds_lt_iff hf power hb hc] at hyz
    refine (holds_lt_iff hf power ha hc).mpr (worth_trans ?_ hxy hyz)
    exact fun h h' => lt_trans h h'
  le_trans x y z := by
    rintro ⟨a, ha⟩ ⟨b, hb⟩ ⟨c, hc⟩ hxy hyz
    rw [holds_le_iff hf power ha hb] at hxy
    rw [holds_le_iff hf power hb hc] at hyz
    refine (holds_le_iff hf power ha hc).mpr (worth_trans ?_ hxy hyz)
    exact fun h h' => le_trans h h'
  eq_trans x y z := by
    rintro ⟨a, ha⟩ ⟨b, hb⟩ ⟨c, hc⟩ hxy hyz
    rw [holds_eq_iff hf power ha hb] at hxy
    rw [holds_eq_iff hf power hb hc] at hyz
    refine (holds_eq_iff hf power ha hc).mpr (worth_trans ?_ hxy hyz)
    exact fun h h' => Eq.trans h h'
  total x y := by
    rintro ⟨a, ha⟩ ⟨b, hb⟩ hna hnb
    obtain ⟨p, hp⟩ := Double.exists_worth (Bool.eq_false_iff.mpr fun h => hna ⟨a, ha, h⟩)
    obtain ⟨q, hq⟩ := Double.exists_worth (Bool.eq_false_iff.mpr fun h => hnb ⟨b, hb, h⟩)
    rw [holds_le_iff hf power ha hb, holds_le_iff hf power hb ha]
    exact (le_total p q).imp (fun h => ⟨p, q, hp, hq, h⟩) fun h => ⟨q, p, hq, hp, h⟩
  strictEq_equivalence := strictEqual_equivalence hf power
  strictEq_nan _ _ hx hy h := seen_strictEqual_of_isNaN hf power hx hy h
  eq_of_strictEq _ _ hx hy h := holds_equal_of_strictEqual hf power hx hy h

/-- A machine that keeps a journal, with a text on its heap. -/
theorem comparisons_coherent_text : textMachine.runtime.failNext = none ∧
    CoherentComparisons (interpreterWith fun x _ => x) textMachine :=
  ⟨rfl, comparisons_coherent (fun x _ => x) textMachine rfl⟩

end TieredVm
