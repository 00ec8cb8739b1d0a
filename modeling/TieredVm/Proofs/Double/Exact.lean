import Mathlib.Algebra.Order.Field.Power
import Mathlib.Data.Rat.Floor
import Mathlib.Tactic.FieldSimp
import Mathlib.Tactic.Linarith
import Mathlib.Tactic.Ring
import TieredVm.Double.Arith

/-!
# Exact doubles

A finite pattern is determined by its sign and its exact magnitude (`eq_of_datum`): a significand is
either normal or at the lowest scale, so no number has two of them. Integers below `2 ^ 53` in
magnitude are doubles (`datum_ofInt`), and the rounding of one is the integer itself.
-/

namespace TieredVm.Double

/-! ## Fields of a written pattern -/

section

variable {s : Bool} {low : Nat}

theorem toNat_ofMagnitude (h : low < signBit) :
    (ofMagnitude s low).bits.toNat = (if s then signBit else 0) + low := by
  simp only [ofMagnitude, UInt64.toNat_ofNat']
  unfold signBit at h ⊢
  split <;> omega

theorem negative_ofMagnitude (h : low < signBit) : (ofMagnitude s low).negative = s := by
  unfold negative
  rw [toNat_ofMagnitude h]
  cases s
  · simpa using h
  · simp

theorem exponentField_ofMagnitude (h : low < signBit) :
    (ofMagnitude s low).exponentField = low / hiddenBit := by
  unfold exponentField
  rw [toNat_ofMagnitude h]
  unfold signBit at h ⊢
  unfold hiddenBit
  split <;> omega

theorem fraction_ofMagnitude (h : low < signBit) :
    (ofMagnitude s low).fraction = low % hiddenBit := by
  unfold fraction
  rw [toNat_ofMagnitude h]
  unfold signBit hiddenBit
  split <;> omega

theorem neg_ofMagnitude (h : low < signBit) : neg (ofMagnitude s low) = ofMagnitude (!s) low := by
  have hlow : (ofMagnitude s low).bits.toNat % signBit = low := by
    rw [toNat_ofMagnitude h]
    unfold signBit at h ⊢
    split <;> omega
  rw [neg, hlow, negative_ofMagnitude h]

/-- A pattern is its sign above its exponent above its fraction. -/
theorem eq_ofMagnitude (d : Double) :
    d = ofMagnitude d.negative (d.exponentField * hiddenBit + d.fraction) := by
  have hlow : d.exponentField * hiddenBit + d.fraction = d.bits.toNat % signBit := by
    unfold exponentField fraction hiddenBit signBit
    omega
  have hd := d.bits.toNat_lt
  have hbits : d.bits = (ofMagnitude d.negative (d.bits.toNat % signBit)).bits := by
    refine UInt64.toNat.inj ?_
    simp only [ofMagnitude, UInt64.toNat_ofNat', negative, decide_eq_true_eq]
    unfold signBit
    split <;> omega
  rw [hlow]
  exact congrArg Double.mk hbits

end

/-! ## One pattern for each number -/

theorem scaled_eq (m : Nat) (e : Int) : scaled m e = (m : ℚ) * 2 ^ e := by
  unfold scaled
  split
  case isTrue h =>
    obtain ⟨k, rfl⟩ := Int.eq_ofNat_of_zero_le h
    rw [Int.toNat_natCast, zpow_natCast, Nat.pow_eq]
    push_cast
    rfl
  case isFalse h =>
    obtain ⟨k, hk⟩ := Int.eq_ofNat_of_zero_le (show 0 ≤ -e by omega)
    obtain rfl : e = -(k : Int) := by omega
    rw [neg_neg, Int.toNat_natCast, zpow_neg, zpow_natCast, div_eq_mul_inv, Nat.pow_eq]
    push_cast
    rfl

theorem scaled_pos {m : Nat} (hm : 0 < m) (e : Int) : 0 < scaled m e := by
  rw [scaled_eq]
  positivity

theorem significand_lt (d : Double) : d.significand < 2 * hiddenBit := by
  have hf : d.fraction < hiddenBit := Nat.mod_lt _ (by decide)
  unfold significand
  split <;> omega

theorem scale_ge (d : Double) : -1074 ≤ d.scale := by
  unfold scale
  omega

/-- A significand is normal, or at the lowest scale. -/
theorem normal_or_lowest (d : Double) : hiddenBit ≤ d.significand ∨ d.scale = -1074 := by
  unfold significand scale
  by_cases h : d.exponentField = 0
  · exact .inr (by rw [h]; rfl)
  · exact .inl (by rw [if_neg h]; exact Nat.le_add_left ..)

/-- The scale of a normal significand is the least at which it fits. -/
theorem scale_le_of_scaled_eq {m m' : Nat} {e e' : Int} (h : scaled m e = scaled m' e')
    (hm : m < 2 * hiddenBit) (he : -1074 ≤ e) (hm' : hiddenBit ≤ m' ∨ e' = -1074) : e' ≤ e := by
  by_contra hlt
  obtain ⟨k, hk⟩ := Int.eq_ofNat_of_zero_le (show 0 ≤ e' - e - 1 by omega)
  have hnormal : hiddenBit ≤ m' := by omega
  have hshift : (m : ℚ) = m' * 2 ^ (k + 1) := by
    rw [scaled_eq, scaled_eq, show e' = e + ((k + 1 : Nat) : Int) by omega,
      zpow_add₀ (by norm_num), zpow_natCast] at h
    have hpos : (2 : ℚ) ^ e ≠ 0 := by positivity
    exact mul_right_cancel₀ hpos (by rw [h]; ring)
  have hnat : m = m' * 2 ^ (k + 1) := by exact_mod_cast hshift
  have htwo : m' * 2 ≤ m := by
    rw [hnat]
    exact Nat.mul_le_mul_left _ (Nat.le_self_pow (Nat.succ_ne_zero k) 2)
  omega

theorem datum_eq_finite {d : Double} {s : Bool} {a : Rat} (h : d.datum = .finite s a) :
    d.exponentField ≠ 2047 ∧ d.negative = s ∧ d.magnitude = a := by
  unfold datum at h
  split at h
  · split at h <;> exact absurd h (by simp)
  · rename_i he
    cases h
    exact ⟨he, rfl, rfl⟩

theorem magnitude_nonneg (d : Double) : 0 ≤ d.magnitude := by
  rw [magnitude, scaled_eq]
  positivity

/-- A finite number has one pattern for each sign. -/
theorem eq_of_datum {d d' : Double} {s : Bool} {a : Rat} (h : d.datum = .finite s a)
    (h' : d'.datum = .finite s a) : d = d' := by
  obtain ⟨-, hs, ha⟩ := datum_eq_finite h
  obtain ⟨-, hs', ha'⟩ := datum_eq_finite h'
  have heq : scaled d.significand d.scale = scaled d'.significand d'.scale := ha.trans ha'.symm
  have hscale : d.scale = d'.scale := le_antisymm
    (scale_le_of_scaled_eq heq.symm d'.significand_lt d'.scale_ge d.normal_or_lowest)
    (scale_le_of_scaled_eq heq d.significand_lt d.scale_ge d'.normal_or_lowest)
  have hsig : d.significand = d'.significand := by
    rw [scaled_eq, scaled_eq, hscale] at heq
    have hpos : (2 : ℚ) ^ d'.scale ≠ 0 := by positivity
    exact_mod_cast mul_right_cancel₀ hpos heq
  -- A subnormal pattern and the lowest normal one share a scale, but not a significand.
  have hf : d.fraction < hiddenBit := Nat.mod_lt _ (by decide)
  have hf' : d'.fraction < hiddenBit := Nat.mod_lt _ (by decide)
  have hfields : d.exponentField = d'.exponentField ∧ d.fraction = d'.fraction := by
    unfold significand at hsig
    unfold scale at hscale
    split at hsig <;> split at hsig <;> omega
  rw [d.eq_ofMagnitude, d'.eq_ofMagnitude, hs, hs', hfields.1, hfields.2]

/-! ## Integers -/

theorem binade_natural {n : Nat} (h : 0 < n) : binade n 1 = n.log2 := by
  have hreach : reaches n 1 n.log2 = true := by
    unfold reaches
    rw [if_pos (by omega), Int.toNat_natCast, decide_eq_true_eq, Nat.one_mul]
    exact Nat.log2_self_le h.ne'
  have hzero : ((n.log2 : Int) - (Nat.log2 1 : Nat)) = n.log2 := by
    rw [show Nat.log2 1 = 0 by decide]
    omega
  unfold binade
  simp only [hzero, hreach, if_true]

theorem roundHalfEven_one (n : Nat) : roundHalfEven n 1 = n := by
  unfold roundHalfEven
  simp [Nat.mod_one]

section

variable {n : Nat}

theorem log2_le (h : n < 2 ^ 53) : n.log2 ≤ 52 := by
  by_cases h0 : n = 0
  · subst h0
    decide
  · exact Nat.lt_succ_iff.mp ((Nat.log2_lt h0).mpr h)

/-- The significand of an integer: its digits moved up to the hidden bit. -/
theorem normal_shift (h0 : 0 < n) (h : n < 2 ^ 53) :
    hiddenBit ≤ n * 2 ^ (52 - n.log2) ∧ n * 2 ^ (52 - n.log2) < 2 * hiddenBit := by
  have hk := log2_le h
  have hlow : 2 ^ n.log2 ≤ n := Nat.log2_self_le h0.ne'
  have hhigh : n < 2 ^ (n.log2 + 1) := Nat.lt_log2_self
  have hpow : 2 ^ n.log2 * 2 ^ (52 - n.log2) = hiddenBit := by
    rw [← Nat.pow_add, Nat.add_sub_cancel' hk]
    rfl
  constructor
  · rw [← hpow]
    exact Nat.mul_le_mul_right _ hlow
  · calc n * 2 ^ (52 - n.log2) < 2 ^ (n.log2 + 1) * 2 ^ (52 - n.log2) :=
          Nat.mul_lt_mul_of_pos_right hhigh (Nat.two_pow_pos _)
      _ = 2 * hiddenBit := by rw [Nat.pow_succ, Nat.mul_right_comm, hpow, Nat.mul_comm]

/-- An integer keeps all its digits. -/
theorem nearestBits_natural (h0 : 0 < n) (h : n < 2 ^ 53) :
    nearestBits n 1 = (n.log2 + 1022) * hiddenBit + n * 2 ^ (52 - n.log2) := by
  have hk := log2_le h
  obtain ⟨-, hhigh⟩ := normal_shift h0 h
  have hunits : inUnits n 1 ((n.log2 : Int) - 52) = n * 2 ^ (52 - n.log2) := by
    unfold inUnits
    split
    case isTrue he =>
      rw [show ((n.log2 : Int) - 52).toNat = 0 by omega, show 52 - n.log2 = 0 by omega]
      exact (roundHalfEven_one n).trans (Nat.mul_one n).symm
    case isFalse he =>
      rw [roundHalfEven_one, show (-((n.log2 : Int) - 52)).toNat = 52 - n.log2 by omega]
      rfl
  unfold nearestBits
  rw [if_neg h0.ne', binade_natural h0, show max ((n.log2 : Int) - 52) (-1074) = n.log2 - 52 by
    omega]
  simp only [hunits, show ((n.log2 : Int) - 52 + 1074).toNat = n.log2 + 1022 by omega]
  refine Nat.min_eq_left ?_
  unfold hiddenBit at hhigh ⊢
  unfold infinityBits
  omega

theorem nearestBits_lt (n d : Nat) : nearestBits n d < signBit := by
  unfold nearestBits
  split
  · decide
  · exact lt_of_le_of_lt (Nat.min_le_right _ _) (by decide)

/-- The fields of an integer's pattern. -/
theorem fields_natural (s : Bool) (h0 : 0 < n) (h : n < 2 ^ 53) :
    (ofMagnitude s (nearestBits n 1)).exponentField = n.log2 + 1023 ∧
      (ofMagnitude s (nearestBits n 1)).significand = n * 2 ^ (52 - n.log2) ∧
      (ofMagnitude s (nearestBits n 1)).scale = (n.log2 : Int) - 52 := by
  obtain ⟨hlow, hhigh⟩ := normal_shift h0 h
  have hlt := nearestBits_lt n 1
  have hexp : (ofMagnitude s (nearestBits n 1)).exponentField = n.log2 + 1023 := by
    rw [exponentField_ofMagnitude hlt, nearestBits_natural h0 h]
    unfold hiddenBit at hlow hhigh ⊢
    omega
  have hfrac : (ofMagnitude s (nearestBits n 1)).fraction = n * 2 ^ (52 - n.log2) - hiddenBit := by
    rw [fraction_ofMagnitude hlt, nearestBits_natural h0 h]
    unfold hiddenBit at hlow hhigh ⊢
    omega
  refine ⟨hexp, ?_, ?_⟩
  · rw [significand, if_neg (by omega), hfrac]
    omega
  · rw [scale, hexp]
    omega

theorem scaled_shift (h : n < 2 ^ 53) :
    scaled (n * 2 ^ (52 - n.log2)) ((n.log2 : Int) - 52) = n := by
  have hk := log2_le h
  rw [scaled_eq, show ((n.log2 : Int) - 52) = -((52 - n.log2 : Nat) : Int) by omega, zpow_neg,
    zpow_natCast]
  push_cast
  field_simp

theorem datum_zero (s : Bool) : (zero s).datum = .finite s 0 := by
  have hsig : (zero s).significand = 0 := by cases s <;> rfl
  have hexp : (zero s).exponentField ≠ 2047 := by cases s <;> decide
  rw [datum, if_neg hexp, magnitude, hsig, scaled_eq, Nat.cast_zero, zero_mul]
  exact congrArg (Datum.finite · 0) (negative_ofMagnitude (by decide))

/-- A natural number below `2 ^ 53` is a double, of either sign. -/
theorem datum_natural (s : Bool) (h : n < 2 ^ 53) :
    (ofMagnitude s (nearestBits n 1)).datum = .finite s n := by
  by_cases h0 : n = 0
  · subst h0
    exact datum_zero s
  · have hpos : 0 < n := by omega
    obtain ⟨hexp, hsig, hscale⟩ := fields_natural s hpos h
    have hk := log2_le h
    rw [datum, if_neg (by omega), negative_ofMagnitude (nearestBits_lt n 1), magnitude, hsig, hscale,
      scaled_shift h]

end

theorem nearest_natural (s : Bool) (n : Nat) : nearest s n = ofMagnitude s (nearestBits n 1) := by
  rw [nearest, Rat.num_natCast, Rat.den_natCast, Int.natAbs_natCast]

/-- Rounding does not look at the sign of the magnitude it is given. -/
theorem ofInt_eq (z : Int) : ofInt z = ofMagnitude (decide (z < 0)) (nearestBits z.natAbs 1) := by
  have hsign : decide ((z : ℚ) < 0) = decide (z < 0) := decide_eq_decide.mpr Int.cast_lt_zero
  rw [ofInt, ofRat, nearest, hsign, Rat.num_intCast, Rat.den_intCast]

/-- An integer below `2 ^ 53` in magnitude is a double. -/
theorem datum_ofInt {z : Int} (h : z.natAbs < 2 ^ 53) :
    (ofInt z).datum = .finite (decide (z < 0)) z.natAbs := by
  rw [ofInt_eq, datum_natural _ h]

end TieredVm.Double
