import Mathlib.Data.Int.ModEq
import TieredVm.Proofs.Double.Worth

/-!
# Truncation, residues and 32-bit integers

Truncating a double is exact: a double with a fraction is below `2 ^ 53`, where every integer is a
double, and any other double is its own integral part. What truncation cuts off is a multiple of the
least positive double, so it is rounded to zero only when it is zero. On integral doubles the remainder
by `2 ^ 32` is exact as well, at any magnitude.

* `datum_trunc`, `toRat_trunc`: the integral part.
* `numEq_fract_iff`: a double without a fraction is an integer.
* `clamped_remEuclid`: the residue.
* `toInt32_of_datum`, `convertsTo_toInt32`: conversion to 32 bits takes the residue of the rational
  truncated toward zero.
* `isInt32_iff`: the doubles that are 32-bit integers.
-/

namespace TieredVm.Double

/-- The integer between zero and a rational that is closest to the rational. -/
def towardZero (q : ℚ) : ℤ := if q < 0 then ⌈q⌉ else ⌊q⌋

@[simp] theorem towardZero_intCast (z : ℤ) : towardZero z = z := by
  unfold towardZero
  split
  · exact Int.ceil_intCast z
  · exact Int.floor_intCast z

theorem towardZero_signed (s : Bool) {a : ℚ} (ha : 0 ≤ a) :
    towardZero (signed s a) = if s then -⌊a⌋ else ⌊a⌋ := by
  cases s
  · exact if_neg (not_lt.mpr ha)
  · obtain rfl | hpos := ha.eq_or_lt
    · rw [signed_zero]
      exact towardZero_intCast 0
    · exact (if_pos (neg_lt_zero.mpr hpos)).trans Int.ceil_neg

section

variable {d x : Double} {s : Bool} {a : ℚ}

theorem nonneg_of_datum (h : d.datum = .finite s a) : 0 ≤ a :=
  (datum_eq_finite h).2.2 ▸ d.magnitude_nonneg

theorem toRat_of_datum (h : d.datum = .finite s a) : d.toRat = signed s a := by
  obtain ⟨-, hs, ha⟩ := datum_eq_finite h
  rw [toRat, hs, ha]

/-! ## The integral part -/

/-- The integral part of a double is a double. -/
theorem datum_nearest_floor (h : d.datum = .finite s a) :
    (nearest s (⌊a⌋ : ℤ)).datum = .finite s (⌊a⌋ : ℤ) := by
  obtain ⟨-, -, hmag⟩ := datum_eq_finite h
  obtain ⟨n, hn⟩ := Int.eq_ofNat_of_zero_le (Int.floor_nonneg.mpr (nonneg_of_datum h))
  by_cases hscale : 0 ≤ d.scale
  · -- The step of the grid is an integer, and with it the number.
    obtain ⟨k, hk⟩ := Int.eq_ofNat_of_zero_le hscale
    have hint : a = ((d.significand * 2 ^ k : ℕ) : ℚ) := by
      rw [← hmag, magnitude_eq, hk, zpow_natCast]
      push_cast
      rfl
    have hfloor : ((⌊a⌋ : ℤ) : ℚ) = a := by
      rw [hint, Int.floor_natCast, Int.cast_natCast]
    rw [hfloor, ← hmag]
    exact datum_nearest_magnitude (isFinite_of_datum h) s
  · -- The number is below `2 ^ 53`.
    have hle : a ≤ d.significand := by
      rw [← hmag, magnitude_eq]
      exact mul_le_of_le_one_right (Nat.cast_nonneg _)
        (zpow_le_one_of_nonpos₀ one_le_two (by omega))
    have hlt : n < 2 ^ 53 := by
      have hsig := d.significand_lt
      have hfloor : ⌊a⌋ ≤ d.significand := by
        exact_mod_cast (Int.floor_le a).trans hle
      unfold hiddenBit at hsig
      omega
    rw [hn, Int.cast_natCast, nearest_natural]
    exact datum_natural s hlt

theorem datum_trunc (h : d.datum = .finite s a) : d.trunc.datum = .finite s (⌊a⌋ : ℤ) := by
  rw [trunc, h]
  exact datum_nearest_floor h

/-- **Truncation is exact.** -/
theorem toRat_trunc (h : d.isFinite = true) : d.trunc.toRat = towardZero d.toRat := by
  have hd := datum_of_isFinite h
  rw [toRat_of_datum (datum_trunc hd), toRat, towardZero_signed _ d.magnitude_nonneg]
  cases d.negative
  · rfl
  · exact (Int.cast_neg _).symm

/-! ## The fraction -/

/-- The least positive double, or its negation. -/
def least (s : Bool) : Double := ofMagnitude s 1

theorem isFinite_least (s : Bool) : (least s).isFinite = true := by cases s <;> decide

theorem toRat_least (s : Bool) : (least s).toRat = signed s (2 ^ (-1074 : Int)) := by
  have hsig : (least s).significand = 1 := by cases s <;> decide
  have hscale : (least s).scale = -1074 := by cases s <;> decide
  have hsign : (least s).negative = s := by cases s <;> decide
  rw [toRat, magnitude_eq, hsig, hscale, hsign, Nat.cast_one, one_mul]

/-- Rounding takes nothing down to zero that is at least the least positive double. -/
theorem nearest_toRat_ne_zero (s : Bool) (hlow : (2 : ℚ) ^ (-1074 : Int) ≤ a) (hmax : a ≤ largest) :
    (nearest s a).toRat ≠ 0 := by
  intro hzero
  have hstep : (0 : ℚ) < 2 ^ (-1074 : Int) := by positivity
  have hpos : 0 < a := hstep.trans_le hlow
  -- The least positive double, under the sign of the number, would be closer.
  have hclosest := (nearest_isNearest s hpos.le hmax).closest (least s) (isFinite_least s)
  rw [hzero, toRat_least, abs_signed_sub, zero_sub, abs_neg, abs_signed, abs_of_pos hpos,
    abs_sub_comm, abs_of_nonneg (sub_nonneg.mpr hlow)] at hclosest
  linarith

/-- What truncation cuts off is a multiple of the least positive double. -/
theorem le_sub_floor (h : d.datum = .finite s a) (hne : a ≠ (⌊a⌋ : ℤ)) :
    (2 : ℚ) ^ (-1074 : Int) ≤ a - (⌊a⌋ : ℤ) := by
  obtain ⟨m, hm⟩ := d.exists_multiple s d.scale_ge
  obtain ⟨n, hn⟩ := d.trunc.exists_multiple s d.trunc.scale_ge
  rw [toRat_of_datum h, signed_self] at hm
  rw [toRat_of_datum (datum_trunc h), signed_self] at hn
  have hstep : (0 : ℚ) < 2 ^ (-1074 : Int) := by positivity
  have hcut : a - (⌊a⌋ : ℤ) = ((m - n : ℤ) : ℚ) * 2 ^ (-1074 : Int) := by
    rw [Int.cast_sub, sub_mul, ← hm, ← hn]
  have hpos : 0 < a - (⌊a⌋ : ℤ) := sub_pos.mpr ((Int.floor_le a).lt_of_ne' hne)
  rw [hcut] at hpos ⊢
  have hmultiple : 0 < m - n := Int.cast_pos.mp (pos_of_mul_pos_left hpos hstep.le)
  exact le_mul_of_one_le_left hstep.le (by exact_mod_cast hmultiple)

theorem toRat_zero (s : Bool) : (zero s).toRat = 0 := by
  rw [toRat_of_datum (datum_zero s), signed_zero]

theorem worth?_of_isFinite (h : d.isFinite = true) : d.worth? = some (.ofRat d.toRat) := by
  rw [worth?_of_finite (datum_of_isFinite h), toRat]

/-- Two finite doubles are equal when they are worth the same rational. -/
theorem numEq_iff_toRat (hd : d.isFinite = true) (hx : x.isFinite = true) :
    d.numEq x = true ↔ d.toRat = x.toRat := by
  rw [numEq_iff, worth?_of_isFinite hd, worth?_of_isFinite hx]
  constructor
  · rintro ⟨p, hp, hq⟩
    exact Extended.ofRat_inj.mp (Option.some.inj (hp.trans hq.symm))
  · intro heq
    exact ⟨_, rfl, heq ▸ rfl⟩

theorem lt_iff_toRat (hd : d.isFinite = true) (hx : x.isFinite = true) :
    d.lt x = true ↔ d.toRat < x.toRat := by
  rw [lt, compare?_of_worth (worth?_of_isFinite hd) (worth?_of_isFinite hx), beq_iff_eq,
    Option.some.injEq, cmp_eq_lt_iff, Extended.ofRat_lt]

theorem le_iff_toRat (hd : d.isFinite = true) (hx : x.isFinite = true) :
    d.le x = true ↔ d.toRat ≤ x.toRat := by
  rw [le, Bool.or_eq_true, lt_iff_toRat hd hx, numEq_iff_toRat hd hx, le_iff_lt_or_eq]

theorem datum_infinity (s : Bool) : (infinity s).datum = .infinity s := by cases s <;> rfl

theorem isFinite_zero (s : Bool) : (zero s).isFinite = true := isFinite_of_datum (datum_zero s)

/-- A finite double has no fraction exactly when it is an integer. -/
theorem numEq_fract_iff (h : d.datum = .finite s a) :
    d.fract.numEq (zero false) = true ↔ a = (⌊a⌋ : ℤ) := by
  have hfract : d.fract = if signed s a - signed s (⌊a⌋ : ℤ) = 0 then zero (s && !s)
      else ofRat (signed s a - signed s (⌊a⌋ : ℤ)) := by
    rw [fract, sub, add_of_finite h (datum_neg (datum_trunc h)), signed_not, ← sub_eq_add_neg]
  have hcut : signed s a - signed s (⌊a⌋ : ℤ) = signed s (a - (⌊a⌋ : ℤ)) := by
    cases s
    · rfl
    · simp only [signed, if_true]
      ring
  rw [hfract, hcut]
  by_cases hint : a = (⌊a⌋ : ℤ)
  · have hzero : signed s (a - (⌊a⌋ : ℤ)) = 0 := by rw [← hint, sub_self, signed_zero]
    rw [if_pos hzero, numEq_iff_toRat (isFinite_zero _) (isFinite_zero _), toRat_zero, toRat_zero]
    exact iff_of_true rfl hint
  · have hlow := le_sub_floor h hint
    have hpos : 0 < a - (⌊a⌋ : ℤ) := lt_of_lt_of_le (by positivity) hlow
    have hmax : a - (⌊a⌋ : ℤ) ≤ largest := by
      have hfloor : (0 : ℚ) ≤ (⌊a⌋ : ℤ) := by
        exact_mod_cast Int.floor_nonneg.mpr (nonneg_of_datum h)
      have htop := magnitude_le_largest (isFinite_of_datum h)
      rw [(datum_eq_finite h).2.2] at htop
      linarith
    rw [if_neg (signed_ne_zero s hpos.ne'), ofRat_signed s hpos,
      numEq_iff_toRat (nearest_isNearest s hpos.le hmax).finite (isFinite_zero _), toRat_zero]
    exact iff_of_false (nearest_toRat_ne_zero s hlow hmax) hint

end

/-! ## The residue -/

section

variable {d : Double} {s : Bool} {n : Nat}

theorem clamped_of_datum (h : d.datum = .finite s n) (lo hi : Int) :
    d.clamped lo hi = max lo (min hi (if s then -n else n)) := by
  have hfloor : (n : ℚ).floor = n := by
    show ⌊(n : ℚ)⌋ = (n : Int)
    exact Int.floor_natCast n
  rw [clamped, h]
  dsimp only
  rw [hfloor]

theorem clamped_ofInt {z : Int} (h : z.natAbs < 2 ^ 53) (lo hi : Int) :
    (ofInt z).clamped lo hi = max lo (min hi z) := by
  rw [clamped_of_datum (datum_ofInt h)]
  congr 2
  split
  case isTrue hneg =>
    have hz := of_decide_eq_true hneg
    omega
  case isFalse hneg =>
    have hz := of_decide_eq_false (Bool.not_eq_true _ ▸ hneg)
    omega

/-- The remainder of an integral double by an integral double is exact. -/
theorem rem_of_datum (h : d.datum = .finite s n) {m : Nat} (h0 : m ≠ 0) (hm : m < 2 ^ 53) :
    d.rem (ofInt m) = ofMagnitude s (nearestBits (n % m) 1) := by
  rw [rem, h, datum_ofInt (z := m) hm]
  dsimp only
  rw [Int.natAbs_natCast, if_neg (Nat.cast_ne_zero.mpr h0), sub_mul_floor, nearest_natural]

theorem abs_ofInt_natCast (m : Nat) : (ofInt m).abs = ofInt m := by
  have hsign : decide ((m : Int) < 0) = false := by simp
  have hlow := nearestBits_lt m 1
  rw [ofInt_eq, hsign, Int.natAbs_natCast, abs, toNat_ofMagnitude hlow, if_neg Bool.false_ne_true,
    Nat.zero_add, Nat.mod_eq_of_lt hlow]

/-- **The residue of an integral double.** It has no bound on its magnitude. -/
theorem clamped_remEuclid (h : d.datum = .finite s n) {m : Nat} (h0 : 0 < m) (hm : m < 2 ^ 52) :
    (d.remEuclid (ofInt m)).clamped 0 (m - 1) = (if s then -(n : Int) else n) % m := by
  have hr : n % m < m := Nat.mod_lt n h0
  obtain ⟨r, hrdef⟩ : ∃ r, r = n % m := ⟨_, rfl⟩
  have hdatum : (ofMagnitude s (nearestBits r 1)).datum = .finite s r := datum_natural s (by omega)
  have hcast : ((n : Int) % m) = r := by rw [hrdef, Int.natCast_mod]
  rw [remEuclid, rem_of_datum h h0.ne' (by omega), ← hrdef]
  have hneg : (ofMagnitude s (nearestBits r 1)).lt (zero false) = true ↔ s = true ∧ r ≠ 0 := by
    rw [lt_iff_toRat (isFinite_of_datum hdatum) (isFinite_zero _), toRat_zero,
      toRat_of_datum hdatum]
    cases s <;> simp [signed, Nat.pos_iff_ne_zero]
  split
  case isTrue hlt =>
    obtain ⟨rfl, hne⟩ := hneg.mp hlt
    have hrem : ofMagnitude true (nearestBits r 1) = ofInt (-r) := by
      have hsign : decide (-(r : Int) < 0) = true := by
        rw [decide_eq_true_eq]
        omega
      rw [ofInt_eq, hsign, Int.natAbs_neg, Int.natAbs_natCast]
    rw [hrem, abs_ofInt_natCast, add_ofInt (by omega) (by omega), clamped_ofInt (by omega),
      if_pos rfl]
    have hmod : -(n : Int) % m = m - r := by
      rw [Int.neg_emod, if_neg, hcast]
      · omega
      · rw [Int.natCast_dvd_natCast, Nat.dvd_iff_mod_eq_zero, ← hrdef]
        exact hne
    rw [hmod]
    omega
  case isFalse hlt =>
    rw [clamped_of_datum hdatum]
    cases s with
    | false =>
      rw [if_neg Bool.false_ne_true, if_neg Bool.false_ne_true, hcast]
      omega
    | true =>
      have hzero : r = 0 := by
        by_contra hne
        exact hlt (hneg.mpr ⟨rfl, hne⟩)
      have hdvd : (m : Int) ∣ -n :=
        (Int.natCast_dvd_natCast.mpr (Nat.dvd_of_mod_eq_zero (hrdef ▸ hzero))).neg_right
      rw [if_pos rfl, if_pos rfl, Int.emod_eq_zero_of_dvd hdvd]
      omega

end

/-! ## 32-bit integers -/

/-- Reading a residue as a signed word. -/
theorem toInt32_ofNat_residue (z : Int) :
    (UInt32.ofNat (z % 0x100000000).toNat).toInt32 = Int32.ofInt z := by
  refine Int32.toInt_inj.mp ?_
  rw [UInt32.toInt32_ofNat', Int32.toInt_ofNat', Int32.toInt_ofInt, Int.toNat_of_nonneg (by omega)]
  exact Int.emod_bmod z 4294967296

section

variable {d : Double} {s : Bool} {a : ℚ}

/-- **Conversion to 32 bits** takes the residue of the number truncated toward zero. -/
theorem toInt32_of_datum (h : d.datum = .finite s a) :
    d.toInt32 = Int32.ofInt (towardZero (signed s a)) := by
  obtain ⟨n, hn⟩ := Int.eq_ofNat_of_zero_le (Int.floor_nonneg.mpr (nonneg_of_datum h))
  have htrunc : d.trunc.datum = .finite s n := by
    rw [datum_trunc h, hn, Int.cast_natCast]
  have hresidue : (d.trunc.remEuclid (ofInt 0x100000000)).clamped 0 0xffffffff =
      (if s then -(n : Int) else n) % 0x100000000 :=
    clamped_remEuclid htrunc (m := 0x100000000) (by decide) (by decide)
  rw [toInt32, if_pos (isFinite_of_datum h), towardZero_signed s (nonneg_of_datum h), hn]
  dsimp only
  rw [← toInt32_ofNat_residue, ← hresidue]

theorem toInt32_of_not_finite (h : d.isFinite = false) : d.toInt32 = 0 := by
  rw [toInt32, h]
  rfl

theorem bmod_modEq (z : Int) : z.bmod (2 ^ 32) ≡ z [ZMOD 2 ^ 32] := by
  have hmod : (z.bmod (2 ^ 32)) % ((2 ^ 32 : Nat) : Int) = z % ((2 ^ 32 : Nat) : Int) := Int.bmod_emod
  rwa [Nat.cast_pow, Nat.cast_two] at hmod

/-- No two words are congruent modulo `2 ^ 32`. -/
theorem eq_of_modEq {k r : Int32} (h : k.toInt ≡ r.toInt [ZMOD 2 ^ 32]) : k = r := by
  have hk := k.le_toInt
  have hk' := k.toInt_lt
  have hr := r.le_toInt
  have hr' := r.toInt_lt
  unfold Int.ModEq at h
  exact Int32.toInt_inj.mp (by omega)

/-- What a double is as a 32-bit integer: zero if it is no finite number, and otherwise the only word
congruent modulo `2 ^ 32` to the number truncated toward zero. -/
structure ConvertsTo (d : Double) (r : Int32) : Prop where
  special : d.isFinite = false → r = 0
  residue : d.isFinite = true → r.toInt ≡ towardZero d.toRat [ZMOD 2 ^ 32]
  unique : d.isFinite = true → ∀ k : Int32, k.toInt ≡ towardZero d.toRat [ZMOD 2 ^ 32] → k = r

theorem convertsTo_toInt32 (d : Double) : d.ConvertsTo d.toInt32 := by
  have hresidue : d.isFinite = true → d.toInt32.toInt ≡ towardZero d.toRat [ZMOD 2 ^ 32] := fun h => by
    rw [toInt32_of_datum (datum_of_isFinite h), Int32.toInt_ofInt]
    exact bmod_modEq _
  exact ⟨toInt32_of_not_finite, hresidue, fun h k hk => eq_of_modEq (hk.trans (hresidue h).symm)⟩

/-- Far above the exact integers, the residue is still exact. -/
example : (ofInt (-(2 ^ 60 + 2 ^ 12))).toInt32 = -4096 := by decide +kernel

theorem toInt32_ofInt32 (n : Int32) : (ofInt32 n).toInt32 = n := by
  rw [ofInt32, toInt32_of_datum (datum_ofInt (natAbs_toInt_lt n)), signed_natAbs,
    towardZero_intCast, Int32.ofInt_toInt]

theorem isFinite_ofInt {z : Int} (h : z.natAbs < 2 ^ 53) : (ofInt z).isFinite = true :=
  isFinite_of_datum (datum_ofInt h)

theorem toRat_ofInt {z : Int} (h : z.natAbs < 2 ^ 53) : (ofInt z).toRat = z := by
  rw [toRat_of_datum (datum_ofInt h), signed_natAbs]

/-- A double without a fraction is finite. -/
theorem isFinite_of_fract (h : d.fract.numEq (zero false) = true) : d.isFinite = true := by
  by_contra hne
  have hnan : d.fract = nan := by
    unfold fract trunc
    cases hd : d.datum with
    | nan => rw [sub, add, hd]
    | infinity s =>
      have hneg : neg d = infinity (!s) := by
        rw [eq_infinity hd]
        exact neg_ofMagnitude (by decide)
      rw [sub, add, hneg, hd, datum_infinity]
      exact if_neg (by cases s <;> decide)
    | finite s a => exact absurd (isFinite_of_datum hd) hne
  obtain ⟨p, hp, -⟩ := (numEq_iff _ _).mp (hnan ▸ h)
  rw [(worth?_eq_none_iff nan).mpr isNaN_nan] at hp
  cases hp

theorem numEq_zero : (zero true).numEq (zero false) = true := by
  rw [numEq_iff_toRat (isFinite_zero _) (isFinite_zero _), toRat_zero, toRat_zero]

/-- **The doubles that are 32-bit integers.** -/
theorem isInt32_iff (d : Double) : d.isInt32 = true ↔ ∃ n, d = ofInt32 n := by
  unfold isInt32
  simp only [Bool.and_eq_true, Bool.or_eq_true, Bool.not_eq_true']
  constructor
  · rintro ⟨⟨⟨hfract, hlow⟩, hhigh⟩, hzero⟩
    have hfin := isFinite_of_fract hfract
    have hd := datum_of_isFinite hfin
    obtain ⟨z, hz⟩ : ∃ z : Int, signed d.negative d.magnitude = z := by
      refine ⟨if d.negative then -⌊d.magnitude⌋ else ⌊d.magnitude⌋, ?_⟩
      have hint := (numEq_fract_iff hd).mp hfract
      conv_lhs => rw [hint]
      cases d.negative
      · rfl
      · exact (Int.cast_neg _).symm
    rw [le_iff_toRat (isFinite_ofInt (by decide)) hfin, toRat_ofInt (by decide), toRat, hz,
      Int.cast_le] at hlow
    rw [le_iff_toRat hfin (isFinite_ofInt (by decide)), toRat_ofInt (by decide), toRat, hz,
      Int.cast_le] at hhigh
    refine ⟨Int32.ofInt z, ?_⟩
    rw [ofInt32, Int32.toInt_ofInt_of_le (by omega) (by omega)]
    refine eq_ofInt_of_datum hd hz (by omega) fun h => ?_
    rw [h, numEq_zero] at hzero
    exact absurd hzero (by decide)
  · rintro ⟨n, rfl⟩
    have hn := natAbs_toInt_lt n
    have hlow := n.le_toInt
    have hhigh := n.toInt_lt
    have hfin : (ofInt32 n).isFinite = true := isFinite_ofInt hn
    have hrat : (ofInt32 n).toRat = n.toInt := toRat_ofInt hn
    refine ⟨⟨⟨?_, ?_⟩, ?_⟩, ?_⟩
    · rw [ofInt32, numEq_fract_iff (datum_ofInt hn), Int.floor_natCast, Int.cast_natCast]
    · rw [le_iff_toRat (isFinite_ofInt (by decide)) hfin, toRat_ofInt (by decide), hrat,
        Int.cast_le]
      omega
    · rw [le_iff_toRat hfin (isFinite_ofInt (by decide)), toRat_ofInt (by decide), hrat,
        Int.cast_le]
      omega
    · by_cases h0 : n.toInt = 0
      · right
        rw [ofInt32, h0, ofInt_zero]
        decide
      · left
        rw [← Bool.not_eq_true, numEq_iff_toRat hfin (isFinite_zero _), hrat, toRat_zero]
        exact Int.cast_ne_zero.mpr h0

/-- The double of an integer has the sign of the integer, and zero is positive. -/
theorem ofInt_ne_zero_true {z : Int} (h : z.natAbs < 2 ^ 53) : ofInt z ≠ zero true := by
  intro heq
  have hdatum := datum_ofInt h
  rw [heq, datum_zero, Datum.finite.injEq] at hdatum
  have hneg := of_decide_eq_true hdatum.1.symm
  have hzero : z.natAbs = 0 := Nat.cast_eq_zero.mp hdatum.2.symm
  omega

/-- A 32-bit integer is a double through its worth, and its sign where it is zero. -/
theorem eq_ofInt32_iff (n : Int32) :
    d = ofInt32 n ↔ d ≠ zero true ∧ d.worth? = some (.ofRat n.toInt) := by
  have hn := natAbs_toInt_lt n
  constructor
  · rintro rfl
    exact ⟨ofInt_ne_zero_true hn, worth?_ofInt hn⟩
  · rintro ⟨hne, hworth⟩
    obtain ⟨s, -, hp⟩ | ⟨s, a, hd, hp⟩ := worth?_cases hworth
    · cases s
      · exact absurd hp (Extended.ofRat_lt_top _).ne
      · exact absurd hp (Extended.bot_lt_ofRat _).ne'
    · exact eq_ofInt_of_datum hd (Extended.ofRat_inj.mp hp).symm hn hne

theorem clamped_ofInt32 (n : Int32) : (ofInt32 n).clamped (-0x80000000) 0x7fffffff = n.toInt := by
  have hlow := n.le_toInt
  have hhigh := n.toInt_lt
  rw [ofInt32, clamped_ofInt (natAbs_toInt_lt n)]
  omega

end

end TieredVm.Double
