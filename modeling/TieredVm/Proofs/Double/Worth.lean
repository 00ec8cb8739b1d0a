import Mathlib.Algebra.Order.Monoid.WithTop
import Mathlib.Order.Compare
import TieredVm.Proofs.Double.Integer
import TieredVm.Proofs.Double.Nearest

/-!
# What a double is worth

A double is worth a rational or one of two infinities, and a NaN is worth nothing (`worth?`). The
comparison of doubles is the comparison of what they are worth, so the order of the rationals with a
least and a greatest element is all that there is to know about it.

* `worth?_ofInt`, `ofInt_isNearest`: integers, exact below `2 ^ 53` and nearest above.
* `compare?_of_worth`, `compare?_eq_none_iff`: comparison is comparison of worths.
* `mul_ofInt_negOne`, `sub_ofInt_zero`, `sub_ofInt_negOne`: operands that change the sign, nothing, or
  the operator.
-/

namespace TieredVm.Double

/-- The rationals between two infinities. -/
abbrev Extended := WithBot (WithTop ℚ)

namespace Extended

/-- A rational among the extended ones. -/
def ofRat (q : ℚ) : Extended := ((q : WithTop ℚ) : WithBot (WithTop ℚ))

/-- The infinity of the given sign. -/
def infinity (negative : Bool) : Extended := if negative then ⊥ else ((⊤ : WithTop ℚ) : Extended)

theorem ofRat_lt {p q : ℚ} : ofRat p < ofRat q ↔ p < q := by
  rw [ofRat, ofRat, WithBot.coe_lt_coe, WithTop.coe_lt_coe]

theorem ofRat_inj {p q : ℚ} : ofRat p = ofRat q ↔ p = q := by
  rw [ofRat, ofRat, WithBot.coe_inj, WithTop.coe_inj]

theorem ofRat_lt_top (q : ℚ) : ofRat q < infinity false :=
  WithBot.coe_lt_coe.mpr (WithTop.coe_lt_top q)

theorem bot_lt_ofRat (q : ℚ) : infinity true < ofRat q := WithBot.bot_lt_coe _

theorem bot_lt_top : infinity true < infinity false := WithBot.bot_lt_coe _

end Extended

/-- What a double is worth. Both zeros are worth zero, a NaN is worth nothing. -/
def worth? (d : Double) : Option Extended :=
  match d.datum with
  | .nan => none
  | .infinity s => some (.infinity s)
  | .finite s a => some (.ofRat (signed s a))

theorem worth?_of_finite {d : Double} {s : Bool} {a : ℚ} (h : d.datum = .finite s a) :
    d.worth? = some (.ofRat (signed s a)) := by
  rw [worth?, h]

theorem worth?_cases {d : Double} {p : Extended} (h : d.worth? = some p) :
    (∃ s, d.datum = .infinity s ∧ p = .infinity s) ∨
      ∃ s a, d.datum = .finite s a ∧ p = .ofRat (signed s a) := by
  unfold worth? at h
  cases hd : d.datum with
  | nan => rw [hd] at h; exact absurd h nofun
  | infinity s => rw [hd] at h; exact .inl ⟨s, rfl, (Option.some.inj h).symm⟩
  | finite s a => rw [hd] at h; exact .inr ⟨s, a, rfl, (Option.some.inj h).symm⟩

theorem isNaN_iff_datum (d : Double) : d.isNaN = true ↔ d.datum = .nan := by
  unfold isNaN datum
  by_cases he : d.exponentField = 2047
  · by_cases hf : d.fraction = 0 <;> simp [he, hf]
  · simp [he]

theorem worth?_eq_none_iff (d : Double) : d.worth? = none ↔ d.isNaN = true := by
  rw [isNaN_iff_datum]
  unfold worth?
  cases d.datum <;> simp

theorem exists_worth {d : Double} (h : d.isNaN = false) : ∃ q, d.worth? = some q := by
  rw [← Option.isSome_iff_exists, ← Option.ne_none_iff_isSome, Ne, worth?_eq_none_iff, h]
  exact Bool.false_ne_true

/-! ## Integers -/

/-- An integer below `2 ^ 53` in magnitude is a double. -/
theorem worth?_ofInt {z : Int} (h : z.natAbs < 2 ^ 53) :
    (ofInt z).worth? = some (.ofRat z) := by
  rw [worth?_of_finite (datum_ofInt h), signed_natAbs]

/-- Any other integer, up to the largest finite double, is rounded to the nearest one. -/
theorem ofInt_isNearest {z : Int} (h : (z.natAbs : ℚ) ≤ largest) : IsNearest (ofInt z) z := by
  have hnearest := nearest_isNearest (decide (z < 0)) (Nat.cast_nonneg z.natAbs) h
  rwa [nearest_natural, ← ofInt_eq, signed_natAbs] at hnearest

/-! ## Order -/

/-- The comparison of two rationals is their order among the extended ones. -/
theorem orderOf_eq (a b : ℚ) : orderOf a b = cmp (Extended.ofRat a) (Extended.ofRat b) := by
  unfold orderOf
  rcases lt_trichotomy a b with h | h | h
  · rw [if_pos h, cmp_eq_lt_iff _ _ |>.mpr (Extended.ofRat_lt.mpr h)]
  · rw [if_neg h.not_lt, if_pos h, cmp_eq_eq_iff _ _ |>.mpr (Extended.ofRat_inj.mpr h)]
  · rw [if_neg h.not_gt, if_neg h.ne', cmp_eq_gt_iff _ _ |>.mpr (Extended.ofRat_lt.mpr h)]

/-- **Comparison is comparison of what the doubles are worth.** -/
theorem compare?_of_worth {x y : Double} {p q : Extended} (hx : x.worth? = some p)
    (hy : y.worth? = some q) : x.compare? y = some (cmp p q) := by
  obtain ⟨s, hdx, rfl⟩ | ⟨s, a, hdx, rfl⟩ := worth?_cases hx <;>
    obtain ⟨t, hdy, rfl⟩ | ⟨t, b, hdy, rfl⟩ := worth?_cases hy <;>
    rw [compare?, hdx, hdy] <;> dsimp only <;> congr 1
  · cases s <;> cases t
    · exact (cmp_self_eq_eq _).symm
    · exact ((cmp_eq_gt_iff _ _).mpr Extended.bot_lt_top).symm
    · exact ((cmp_eq_lt_iff _ _).mpr Extended.bot_lt_top).symm
    · exact (cmp_self_eq_eq _).symm
  · cases s
    · exact ((cmp_eq_gt_iff _ _).mpr (Extended.ofRat_lt_top _)).symm
    · exact ((cmp_eq_lt_iff _ _).mpr (Extended.bot_lt_ofRat _)).symm
  · cases t
    · exact ((cmp_eq_lt_iff _ _).mpr (Extended.ofRat_lt_top _)).symm
    · exact ((cmp_eq_gt_iff _ _).mpr (Extended.bot_lt_ofRat _)).symm
  · exact orderOf_eq _ _

theorem compare?_eq_none_iff (x y : Double) :
    x.compare? y = none ↔ x.isNaN = true ∨ y.isNaN = true := by
  rw [isNaN_iff_datum, isNaN_iff_datum]
  unfold compare?
  cases x.datum <;> cases y.datum <;> simp

/-- Comparing the other way round. -/
theorem compare?_swap (x y : Double) : y.compare? x = (x.compare? y).map Ordering.swap := by
  cases hx : x.worth? with
  | none =>
    have hnan := (worth?_eq_none_iff x).mp hx
    rw [(compare?_eq_none_iff x y).mpr (.inl hnan), (compare?_eq_none_iff y x).mpr (.inr hnan)]
    rfl
  | some p =>
    cases hy : y.worth? with
    | none =>
      have hnan := (worth?_eq_none_iff y).mp hy
      rw [(compare?_eq_none_iff x y).mpr (.inr hnan), (compare?_eq_none_iff y x).mpr (.inl hnan)]
      rfl
    | some q =>
      rw [compare?_of_worth hx hy, compare?_of_worth hy hx, Option.map_some, cmp_swap]

/-- Two doubles are equal when they are worth the same. -/
theorem numEq_iff (x y : Double) :
    x.numEq y = true ↔ ∃ p, x.worth? = some p ∧ y.worth? = some p := by
  unfold numEq
  rw [beq_iff_eq]
  constructor
  · intro h
    have hsome : ¬ (x.isNaN = true ∨ y.isNaN = true) := by
      rw [← compare?_eq_none_iff, h]
      exact nofun
    obtain ⟨p, hp⟩ := exists_worth (Bool.eq_false_iff.mpr fun hn => hsome (.inl hn))
    obtain ⟨q, hq⟩ := exists_worth (Bool.eq_false_iff.mpr fun hn => hsome (.inr hn))
    rw [compare?_of_worth hp hq, Option.some.injEq, cmp_eq_eq_iff] at h
    exact ⟨p, hp, h ▸ hq⟩
  · rintro ⟨p, hx, hy⟩
    rw [compare?_of_worth hx hy, cmp_self_eq_eq]

theorem numEq_comm (x y : Double) : x.numEq y = y.numEq x := by
  rw [Bool.eq_iff_iff, numEq_iff, numEq_iff]
  simp only [and_comm]

/-! ## Operands that change little -/

theorem isNaN_nan : nan.isNaN = true := by decide

/-- Flipping the sign bit leaves the other fields. -/
theorem fields_neg (d : Double) : (neg d).negative = (!d.negative) ∧
    (neg d).exponentField = d.exponentField ∧ (neg d).fraction = d.fraction := by
  have hlow : d.exponentField * hiddenBit + d.fraction < signBit := by
    have hexp : d.exponentField < 2048 := Nat.mod_lt _ (by decide)
    have hfrac : d.fraction < hiddenBit := Nat.mod_lt _ (by decide)
    unfold hiddenBit signBit at *
    omega
  obtain ⟨s, hs⟩ : ∃ s, s = d.negative := ⟨_, rfl⟩
  obtain ⟨low, hl⟩ : ∃ low, low = d.exponentField * hiddenBit + d.fraction := ⟨_, rfl⟩
  have hd : d = ofMagnitude s low := by rw [hs, hl]; exact d.eq_ofMagnitude
  rw [← hl] at hlow
  rw [hd, neg_ofMagnitude hlow, negative_ofMagnitude hlow, negative_ofMagnitude hlow,
    exponentField_ofMagnitude hlow, exponentField_ofMagnitude hlow, fraction_ofMagnitude hlow,
    fraction_ofMagnitude hlow]
  exact ⟨rfl, rfl, rfl⟩

theorem datum_neg {d : Double} {s : Bool} {a : ℚ} (h : d.datum = .finite s a) :
    (neg d).datum = .finite (!s) a := by
  obtain ⟨hfinite, rfl, rfl⟩ := datum_eq_finite h
  obtain ⟨hsign, hexp, hfrac⟩ := fields_neg d
  have hmag : (neg d).magnitude = d.magnitude := by
    rw [magnitude, magnitude, significand, significand, scale, scale, hexp, hfrac]
  rw [datum, if_neg (hexp ▸ hfinite), hsign, hmag]

theorem isNaN_neg (d : Double) : (neg d).isNaN = d.isNaN := by
  obtain ⟨-, hexp, hfrac⟩ := fields_neg d
  rw [isNaN, isNaN, hexp, hfrac]

theorem eq_infinity {d : Double} {s : Bool} (h : d.datum = .infinity s) : d = infinity s := by
  unfold datum at h
  split at h
  case isFalse => exact absurd h nofun
  case isTrue hexp =>
    split at h
    case isFalse => exact absurd h nofun
    case isTrue hfrac =>
      cases h
      rw [d.eq_ofMagnitude, hexp, hfrac, negative_ofMagnitude (by decide)]
      rfl

theorem signed_zero (s : Bool) : signed s 0 = 0 := by cases s <;> simp [signed]

theorem signed_ne_zero (s : Bool) {a : ℚ} (h : a ≠ 0) : signed s a ≠ 0 := by
  cases s
  · exact h
  · exact neg_ne_zero.mpr h

/-- Rounding a rational is rounding its magnitude under its sign. -/
theorem ofRat_signed (s : Bool) {a : ℚ} (h : 0 < a) : ofRat (signed s a) = nearest s a := by
  cases s
  · rw [signed, if_neg Bool.false_ne_true, ofRat, decide_eq_false h.not_gt]
  · rw [signed, if_pos rfl, ofRat, decide_eq_true (neg_lt_zero.mpr h), nearest, nearest,
      Rat.neg_num, Int.natAbs_neg, Rat.neg_den]

/-- A product with minus one is the negation. -/
theorem mul_ofInt_negOne {d : Double} (h : d.isNaN = false) : mul d (ofInt (-1)) = neg d := by
  have hone : (ofInt (-1)).datum = .finite true 1 := by
    rw [datum_ofInt (by decide)]
    rfl
  unfold mul
  rw [hone]
  cases hd : d.datum with
  | nan => rw [(isNaN_iff_datum d).mpr hd] at h; cases h
  | infinity s =>
    rw [eq_infinity hd]
    dsimp only
    rw [if_neg one_ne_zero, Bool.bne_true]
    exact (neg_ofMagnitude (by decide)).symm
  | finite s a =>
    obtain ⟨-, -, hmag⟩ := datum_eq_finite hd
    dsimp only
    rw [mul_one, Bool.bne_true, ← hmag]
    refine eq_of_datum (datum_nearest_magnitude (isFinite_of_datum hd) _) ?_
    rw [datum_neg hd, hmag]

/-- Subtracting zero changes nothing, not even the sign of a zero. -/
theorem sub_ofInt_zero {d : Double} (h : d.isNaN = false) : sub d (ofInt 0) = d := by
  have hzero : neg (ofInt 0) = zero true := by rw [ofInt_zero, neg_zero, Bool.not_false]
  rw [sub, hzero]
  cases hd : d.datum with
  | nan => rw [(isNaN_iff_datum d).mpr hd] at h; cases h
  | infinity s =>
    rw [add, hd, datum_zero]
    exact (eq_infinity hd).symm
  | finite s a =>
    obtain ⟨-, -, hmag⟩ := datum_eq_finite hd
    have hnonneg : 0 ≤ a := hmag ▸ d.magnitude_nonneg
    have hsum : signed s a + signed true 0 = signed s a := by simp [signed]
    rw [add_of_finite hd (datum_zero true), hsum, Bool.and_true]
    obtain rfl | hpos := hnonneg.eq_or_lt
    · rw [if_pos (signed_zero s)]
      exact eq_of_datum (datum_zero s) hd
    · rw [if_neg (signed_ne_zero s hpos.ne'), ofRat_signed s hpos, ← hmag]
      refine eq_of_datum (datum_nearest_magnitude (isFinite_of_datum hd) s) ?_
      rw [hd, hmag]

/-- Subtracting minus one is adding one. -/
theorem sub_ofInt_negOne (d : Double) : sub d (ofInt (-1)) = add d (ofInt 1) := by
  rw [sub, neg_ofInt (by decide)]
  rfl

end TieredVm.Double
