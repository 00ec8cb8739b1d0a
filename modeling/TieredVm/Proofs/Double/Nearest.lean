import Mathlib.Algebra.Order.Floor.Ring
import Mathlib.Data.Rat.Floor
import TieredVm.Proofs.Double.Exact

/-!
# Rounding is to the nearest double

`nearest` writes the finite double closest to a magnitude, and the one with the even significand when
two are equally close (`IsNearest`). The argument runs on the grid the magnitude is rounded on, the
multiples of `2 ^ e`. A double on that grid or on a coarser one is a multiple of the step, so the
nearest integer decides. A double off the grid has a finer one, lies below the whole binade of the
magnitude, and is farther away than the least number of that binade.

* `binade_spec`, `roundHalfEven_spec`: the order of magnitude, and the integer rounding.
* `fields_grid`: the pattern written for a multiple of the step is worth that multiple, also when
  the significand carries into the next exponent.
* `nearest_isNearest`: up to the largest finite double.
* `datum_nearest_magnitude`: a double is its own nearest double.
-/

namespace TieredVm.Double

/-- The rational a finite double is worth. -/
def toRat (d : Double) : ℚ := signed d.negative d.magnitude

theorem two_hiddenBit_eq : 2 * (hiddenBit : ℚ) = 2 ^ (53 : Int) := by norm_num [hiddenBit]

theorem hiddenBit_eq : (hiddenBit : ℚ) = 2 ^ (52 : Int) := by norm_num [hiddenBit]

/-- The largest finite double is worth this. -/
def largest : ℚ := (2 * hiddenBit - 1) * 2 ^ (971 : Int)

/-- The finite double is the closest one to a rational; between two equally close ones it has the even
significand. -/
structure IsNearest (d : Double) (q : ℚ) : Prop where
  finite : d.isFinite = true
  closest : ∀ d' : Double, d'.isFinite = true → |d.toRat - q| ≤ |d'.toRat - q|
  tie : ∀ d' : Double, d'.isFinite = true → |d'.toRat - q| = |d.toRat - q| → d'.toRat ≠ d.toRat →
    d.significand % 2 = 0

theorem largest_lt : largest < 2 ^ (1024 : Int) := by
  have hstep : (0 : ℚ) < 2 ^ (971 : Int) := by positivity
  calc largest < (2 * hiddenBit) * 2 ^ (971 : Int) := by
        unfold largest
        gcongr
        linarith
    _ = 2 ^ (53 : Int) * 2 ^ (971 : Int) := by rw [two_hiddenBit_eq]
    _ = 2 ^ (1024 : Int) := by
        rw [← zpow_add₀ two_ne_zero]
        rfl

theorem abs_signed_sub (s : Bool) (a b : ℚ) : |signed s a - signed s b| = |a - b| := by
  cases s
  · rfl
  · rw [signed, signed, if_pos rfl, if_pos rfl, neg_sub_neg, abs_sub_comm]

theorem signed_signed (s t : Bool) (a : ℚ) : signed s (signed t a) = signed (s != t) a := by
  cases s <;> cases t <;> simp [signed]

@[simp] theorem signed_self (s : Bool) (a : ℚ) : signed s (signed s a) = a := by
  cases s <;> simp [signed]

theorem abs_signed (s : Bool) (a : ℚ) : |signed s a| = |a| := by
  cases s <;> simp [signed]

theorem datum_of_isFinite {d : Double} (h : d.isFinite = true) :
    d.datum = .finite d.negative d.magnitude := by
  rw [isFinite, bne_iff_ne] at h
  rw [datum, if_neg h]

theorem isFinite_of_datum {d : Double} {s : Bool} {a : ℚ} (h : d.datum = .finite s a) :
    d.isFinite = true := bne_iff_ne.mpr (datum_eq_finite h).1

theorem magnitude_eq (d : Double) : d.magnitude = d.significand * 2 ^ d.scale := scaled_eq _ _

/-! ## The order of magnitude of a quotient -/

section

variable {n d : Nat}

theorem reaches_iff (hd : 0 < d) (e : Int) : reaches n d e = true ↔ (2 : ℚ) ^ e ≤ n / d := by
  have hpos : (0 : ℚ) < d := Nat.cast_pos.mpr hd
  unfold reaches
  rw [le_div_iff₀ hpos]
  split
  case isTrue h =>
    obtain ⟨k, rfl⟩ := Int.eq_ofNat_of_zero_le h
    rw [decide_eq_true_eq, Int.toNat_natCast, zpow_natCast, Nat.pow_eq, ← Nat.cast_le (α := ℚ)]
    push_cast
    rw [mul_comm]
  case isFalse h =>
    obtain ⟨k, hk⟩ := Int.eq_ofNat_of_zero_le (show 0 ≤ -e by omega)
    obtain rfl : e = -(k : Int) := by omega
    rw [decide_eq_true_eq, neg_neg, Int.toNat_natCast, zpow_neg, zpow_natCast, Nat.pow_eq,
      ← Nat.cast_le (α := ℚ), inv_mul_le_iff₀ (by positivity)]
    push_cast
    rw [mul_comm]

/-- The binade of a quotient holds it. -/
theorem binade_spec (hn : 0 < n) (hd : 0 < d) :
    (2 : ℚ) ^ binade n d ≤ n / d ∧ (n : ℚ) / d < 2 ^ (binade n d + 1) := by
  have hdpos : (0 : ℚ) < d := Nat.cast_pos.mpr hd
  have hnlow : (2 : ℚ) ^ (n.log2 : Int) ≤ n := by
    rw [zpow_natCast]
    exact_mod_cast Nat.log2_self_le hn.ne'
  have hnhigh : (n : ℚ) < 2 ^ ((n.log2 : Int) + 1) := by
    have h : n < 2 ^ (n.log2 + 1) := Nat.lt_log2_self
    exact_mod_cast h
  have hdlow : (2 : ℚ) ^ (d.log2 : Int) ≤ d := by
    rw [zpow_natCast]
    exact_mod_cast Nat.log2_self_le hd.ne'
  have hdhigh : (d : ℚ) < 2 ^ ((d.log2 : Int) + 1) := by
    have h : d < 2 ^ (d.log2 + 1) := Nat.lt_log2_self
    exact_mod_cast h
  have hlow : (2 : ℚ) ^ ((n.log2 : Int) - d.log2 - 1) ≤ n / d := by
    rw [le_div_iff₀ hdpos]
    calc (2 : ℚ) ^ ((n.log2 : Int) - d.log2 - 1) * d
        ≤ 2 ^ ((n.log2 : Int) - d.log2 - 1) * 2 ^ ((d.log2 : Int) + 1) := by gcongr
      _ = 2 ^ (n.log2 : Int) := by
          rw [← zpow_add₀ two_ne_zero]
          congr 1
          omega
      _ ≤ n := hnlow
  have hhigh : (n : ℚ) / d < 2 ^ ((n.log2 : Int) - d.log2 + 1) := by
    rw [div_lt_iff₀ hdpos]
    calc (n : ℚ) < 2 ^ ((n.log2 : Int) + 1) := hnhigh
      _ = 2 ^ ((n.log2 : Int) - d.log2 + 1) * 2 ^ (d.log2 : Int) := by
          rw [← zpow_add₀ two_ne_zero]
          congr 1
          omega
      _ ≤ 2 ^ ((n.log2 : Int) - d.log2 + 1) * d := by gcongr
  unfold binade
  dsimp only
  split
  case isTrue h => exact ⟨(reaches_iff hd _).mp h, hhigh⟩
  case isFalse h =>
    rw [reaches_iff hd, not_le] at h
    exact ⟨hlow, by rwa [sub_add_cancel]⟩

/-! ## Rounding to an integer -/

/-- An integer within one half, and an even one at exactly one half. -/
structure HalfEven (r : Nat) (x : ℚ) : Prop where
  close : |(r : ℚ) - x| ≤ 1 / 2
  even : |(r : ℚ) - x| = 1 / 2 → r % 2 = 0

theorem roundHalfEven_spec (n : Nat) (hd : 0 < d) : HalfEven (roundHalfEven n d) (n / d) := by
  have hpos : (0 : ℚ) < d := Nat.cast_pos.mpr hd
  obtain ⟨q, hq⟩ : ∃ q, q = n / d := ⟨_, rfl⟩
  obtain ⟨r, hr⟩ : ∃ r, r = n % d := ⟨_, rfl⟩
  have hdiv : (n : ℚ) / d = q + r / d := by
    rw [div_eq_iff hpos.ne', add_mul, div_mul_cancel₀ _ hpos.ne', hq, hr, mul_comm]
    exact_mod_cast (Nat.div_add_mod n d).symm
  have hrest : 0 ≤ (r : ℚ) / d := by positivity
  unfold roundHalfEven
  rw [hdiv, ← hq, ← hr]
  dsimp only
  split
  case isTrue hlt =>
    have hhalf : (r : ℚ) / d < 1 / 2 := by
      rw [div_lt_div_iff₀ hpos two_pos]
      exact_mod_cast (by omega : r * 2 < 1 * d)
    have habs : |(q : ℚ) - (q + r / d)| = r / d := by
      rw [sub_add_cancel_left, abs_neg, abs_of_nonneg hrest]
    exact ⟨by rw [habs]; exact hhalf.le, fun h => absurd (habs.symm.trans h) hhalf.ne⟩
  case isFalse hlt =>
    split
    case isTrue hgt =>
      have hone : (r : ℚ) / d < 1 := by
        rw [div_lt_one hpos]
        exact_mod_cast hr ▸ Nat.mod_lt n hd
      have hhalf : 1 / 2 < (r : ℚ) / d := by
        rw [div_lt_div_iff₀ two_pos hpos]
        exact_mod_cast (by omega : 1 * d < r * 2)
      have habs : |((q + 1 : Nat) : ℚ) - (q + r / d)| = 1 - r / d := by
        push_cast
        rw [add_sub_add_left_eq_sub, abs_of_pos (by linarith)]
      exact ⟨by rw [habs]; linarith, fun h => by rw [habs] at h; linarith⟩
    case isFalse hgt =>
      have hhalf : (r : ℚ) / d = 1 / 2 := by
        rw [div_eq_div_iff hpos.ne' two_ne_zero]
        exact_mod_cast (by omega : r * 2 = 1 * d)
      refine ⟨?_, fun _ => by omega⟩
      rw [hhalf, abs_le]
      obtain h | h : q % 2 = 0 ∨ q % 2 = 1 := by omega
      all_goals
        rw [h]
        push_cast
        constructor <;> linarith

end

/-- A quotient in units of `2 ^ e` is rounded to an integer. -/
theorem inUnits_spec {d : Nat} (n : Nat) (hd : 0 < d) (e : Int) :
    HalfEven (inUnits n d e) ((n : ℚ) / d / 2 ^ e) := by
  unfold inUnits
  split
  case isTrue h =>
    obtain ⟨k, rfl⟩ := Int.eq_ofNat_of_zero_le h
    have hspec := roundHalfEven_spec n (show 0 < d * Nat.pow 2 k from
      Nat.mul_pos hd (Nat.two_pow_pos k))
    rwa [Nat.pow_eq, Nat.cast_mul, Nat.cast_pow, Nat.cast_two, ← div_div, ← zpow_natCast] at hspec
  case isFalse h =>
    obtain ⟨k, hk⟩ := Int.eq_ofNat_of_zero_le (show 0 ≤ -e by omega)
    obtain rfl : e = -(k : Int) := by omega
    have hspec := roundHalfEven_spec (n * Nat.pow 2 k) hd
    rw [Nat.pow_eq, Nat.cast_mul, Nat.cast_pow, Nat.cast_two, mul_div_right_comm] at hspec
    rwa [neg_neg, Int.toNat_natCast, zpow_neg, div_inv_eq_mul, zpow_natCast]

section

variable {r : Nat} {x : ℚ}

/-- Two integers are one apart, so their distances to a number add up to one. -/
theorem one_le_abs_add {z : Int} (hz : z ≠ r) : 1 ≤ |(z : ℚ) - x| + |(r : ℚ) - x| := by
  have hone : 1 ≤ |z - (r : Int)| := Int.one_le_abs (sub_ne_zero.mpr hz)
  calc (1 : ℚ) ≤ |(z : ℚ) - r| := by exact_mod_cast hone
    _ ≤ |(z : ℚ) - x| + |x - r| := abs_sub_le _ _ _
    _ = |(z : ℚ) - x| + |(r : ℚ) - x| := by rw [abs_sub_comm x]

/-- No integer is closer than the rounded one. -/
theorem HalfEven.closest (h : HalfEven r x) (z : Int) : |(r : ℚ) - x| ≤ |(z : ℚ) - x| := by
  by_cases hz : z = r
  · rw [hz, Int.cast_natCast]
  · linarith [h.close, one_le_abs_add (x := x) hz]

/-- Another integer is as close only at exactly one half. -/
theorem HalfEven.even_of_tie (h : HalfEven r x) {z : Int} (hz : z ≠ r)
    (htie : |(z : ℚ) - x| = |(r : ℚ) - x|) : r % 2 = 0 :=
  h.even (by linarith [h.close, one_le_abs_add (x := x) hz])

theorem HalfEven.le {k : Nat} (h : HalfEven r x) (hx : x ≤ k) : r ≤ k := by
  have hclose := (abs_le.mp h.close).2
  have hlt : (r : ℚ) < k + 1 := by linarith
  exact Nat.lt_succ_iff.mp (by exact_mod_cast hlt)

theorem HalfEven.ge {k : Nat} (h : HalfEven r x) (hx : (k : ℚ) ≤ x) : k ≤ r := by
  have hclose := (abs_le.mp h.close).1
  have hlt : (k : ℚ) < r + 1 := by linarith
  exact Nat.lt_succ_iff.mp (by exact_mod_cast hlt)

end

/-! ## The grid of a magnitude -/

/-- The fields of the pattern written for a multiple of the step `2 ^ (k - 1074)`. -/
theorem fields_grid (s : Bool) {k r : Nat} (hr : r ≤ 2 * hiddenBit) (hk : hiddenBit ≤ r ∨ k = 0)
    (hlt : k * hiddenBit + r < infinityBits) :
    (ofMagnitude s (k * hiddenBit + r)).isFinite = true ∧
      (ofMagnitude s (k * hiddenBit + r)).negative = s ∧
      (ofMagnitude s (k * hiddenBit + r)).significand % 2 = r % 2 ∧
      (ofMagnitude s (k * hiddenBit + r)).magnitude = r * 2 ^ ((k : Int) - 1074) := by
  have hlow : k * hiddenBit + r < signBit := lt_trans hlt (by decide)
  have hexp := exponentField_ofMagnitude (s := s) hlow
  have hfrac := fraction_ofMagnitude (s := s) hlow
  have hfinite : (k * hiddenBit + r) / hiddenBit < 2047 := by
    unfold hiddenBit infinityBits at *
    omega
  refine ⟨by rw [isFinite, hexp, bne_iff_ne]; omega, negative_ofMagnitude hlow, ?_⟩
  rw [magnitude_eq, scale, significand, hexp, hfrac]
  obtain h | ⟨h, h'⟩ | rfl : r < hiddenBit ∨ (hiddenBit ≤ r ∧ r < 2 * hiddenBit) ∨
      r = 2 * hiddenBit := by omega
  · -- Below the normal numbers, at the lowest step.
    obtain rfl : k = 0 := by omega
    rw [Nat.zero_mul, Nat.zero_add, Nat.div_eq_of_lt h, Nat.mod_eq_of_lt h, if_pos rfl]
    exact ⟨rfl, rfl⟩
  · -- A normal significand.
    have hdiv : (k * hiddenBit + r) / hiddenBit = k + 1 := by
      unfold hiddenBit at *
      omega
    have hmod : (k * hiddenBit + r) % hiddenBit + hiddenBit = r := by
      unfold hiddenBit at *
      omega
    rw [hdiv, if_neg (Nat.succ_ne_zero k), hmod, show ((max (k + 1) 1 : Nat) : Int) - 1075 =
      (k : Int) - 1074 by omega]
    exact ⟨rfl, rfl⟩
  · -- The significand carries: it is the least one of the next exponent.
    have hdiv : (k * hiddenBit + 2 * hiddenBit) / hiddenBit = k + 2 := by
      unfold hiddenBit
      omega
    have hmod : (k * hiddenBit + 2 * hiddenBit) % hiddenBit = 0 := by
      unfold hiddenBit
      omega
    rw [hdiv, if_neg (Nat.succ_ne_zero _), hmod, show ((max (k + 2) 1 : Nat) : Int) - 1075 =
      (k : Int) - 1074 + 1 by omega, zpow_add_one₀ two_ne_zero, Nat.zero_add]
    refine ⟨rfl, ?_⟩
    push_cast
    ring

/-- What rounding a magnitude finds: the step of its grid, and the integer nearest to it in units of
that step. Below the lowest step the significand is normal. -/
structure OnGrid (q : ℚ) (low : Nat) (k r : Nat) : Prop where
  pattern : low = k * hiddenBit + r
  finite : k * hiddenBit + r < infinityBits
  rounded : HalfEven r (q / 2 ^ ((k : Int) - 1074))
  normal : k = 0 ∨ hiddenBit * (2 : ℚ) ^ ((k : Int) - 1074) ≤ q
  fits : r ≤ 2 * hiddenBit

theorem OnGrid.hidden_le {q : ℚ} {low k r : Nat} (h : OnGrid q low k r) : hiddenBit ≤ r ∨ k = 0 :=
  h.normal.symm.imp_left fun hq => h.rounded.ge ((le_div_iff₀ (by positivity)).mpr hq)

/-- The step of the grid of a magnitude keeps 53 significant bits, down to the lowest one. -/
theorem exists_onGrid_of_pos {n d : Nat} (hn : 0 < n) (hd : 0 < d) (hmax : (n : ℚ) / d ≤ largest) :
    ∃ k r, OnGrid (n / d) (nearestBits n d) k r := by
  obtain ⟨hlow, hhigh⟩ := binade_spec hn hd
  obtain ⟨e, he⟩ : ∃ e, e = max (binade n d - 52) (-1074) := ⟨_, rfl⟩
  obtain ⟨k, hk⟩ : ∃ k : Nat, e + 1074 = k := Int.eq_ofNat_of_zero_le (by omega)
  obtain ⟨r, hr⟩ : ∃ r, r = inUnits n d e := ⟨_, rfl⟩
  have hke : (k : Int) - 1074 = e := by omega
  have hstep : (0 : ℚ) < 2 ^ e := by positivity
  have hrounded : HalfEven r ((n : ℚ) / d / 2 ^ e) := hr ▸ inUnits_spec n hd e
  have hbelow : (n : ℚ) / d < ((2 * hiddenBit : Nat) : ℚ) * 2 ^ e := by
    calc (n : ℚ) / d < 2 ^ (binade n d + 1) := hhigh
      _ ≤ 2 ^ (53 + e) := zpow_le_zpow_right₀ one_le_two (by omega)
      _ = ((2 * hiddenBit : Nat) : ℚ) * 2 ^ e := by
          rw [zpow_add₀ two_ne_zero, Nat.cast_mul, Nat.cast_two, two_hiddenBit_eq]
  have hfits : r ≤ 2 * hiddenBit := hrounded.le ((div_lt_iff₀ hstep).mpr hbelow).le
  have hnormal : k = 0 ∨ hiddenBit * (2 : ℚ) ^ e ≤ n / d := by
    by_cases h : -1074 ≤ binade n d - 52
    · refine .inr (le_trans (le_of_eq ?_) hlow)
      rw [hiddenBit_eq, ← zpow_add₀ two_ne_zero]
      congr 1
      omega
    · exact .inl (by omega)
  have hbinade : binade n d ≤ 1023 := by
    have hlt : (2 : ℚ) ^ binade n d < 2 ^ (1024 : Int) := by
      calc (2 : ℚ) ^ binade n d ≤ n / d := hlow
        _ ≤ largest := hmax
        _ < 2 ^ (1024 : Int) := largest_lt
    have hexp := (zpow_lt_zpow_iff_right₀ one_lt_two).mp hlt
    omega
  have hfinite : k * hiddenBit + r < infinityBits := by
    by_cases htop : e = 971
    · have hle : r ≤ 2 * hiddenBit - 1 := by
        refine hrounded.le ((div_le_iff₀ hstep).mpr ?_)
        rw [htop, Nat.cast_sub (by decide), Nat.cast_mul, Nat.cast_two, Nat.cast_one]
        exact hmax
      unfold hiddenBit infinityBits at *
      omega
    · unfold hiddenBit infinityBits at *
      omega
  refine ⟨k, r, ?_, hfinite, hke ▸ hrounded, hke ▸ hnormal, hfits⟩
  unfold nearestBits
  rw [if_neg hn.ne', ← he]
  dsimp only
  rw [hk, Int.toNat_natCast, ← hr]
  exact Nat.min_eq_left hfinite.le

/-! ## No double is closer -/

/-- A double is a multiple of every step up to its own. -/
theorem exists_multiple (d : Double) (s : Bool) {e : Int} (he : e ≤ d.scale) :
    ∃ z : Int, signed s d.toRat = z * 2 ^ e := by
  obtain ⟨k, hk⟩ := Int.eq_ofNat_of_zero_le (show 0 ≤ d.scale - e by omega)
  have hmag : d.magnitude = ((d.significand * 2 ^ k : Nat) : ℚ) * 2 ^ e := by
    rw [magnitude_eq, show d.scale = k + e by omega, zpow_add₀ two_ne_zero, zpow_natCast]
    push_cast
    ring
  rw [toRat, signed_signed, hmag]
  cases s != d.negative
  · exact ⟨(d.significand * 2 ^ k : Nat), by rw [Int.cast_natCast]; rfl⟩
  · exact ⟨-(d.significand * 2 ^ k : Nat), by
      rw [Int.cast_neg, Int.cast_natCast, neg_mul]; rfl⟩

/-- A double with a finer step than `2 ^ e` is below the normal numbers of that step. -/
theorem signed_lt_of_scale_lt (d : Double) (s : Bool) {e : Int} (he : d.scale < e) :
    signed s d.toRat < hiddenBit * 2 ^ e := by
  have hsig : (d.significand : ℚ) < 2 * hiddenBit := by exact_mod_cast d.significand_lt
  calc signed s d.toRat ≤ |signed s d.toRat| := le_abs_self _
    _ = d.significand * 2 ^ d.scale := by
        rw [toRat, abs_signed, abs_signed, abs_of_nonneg d.magnitude_nonneg, magnitude_eq]
    _ < 2 * hiddenBit * 2 ^ d.scale := by gcongr
    _ = hiddenBit * 2 ^ (d.scale + 1) := by
        rw [zpow_add_one₀ two_ne_zero]
        ring
    _ ≤ hiddenBit * 2 ^ e := by
        gcongr
        · exact one_le_two
        · omega

theorem abs_mul_sub {u : ℚ} (hu : 0 < u) (a q : ℚ) : |a * u - q| = |a - q / u| * u := by
  rw [← abs_of_pos hu, ← abs_mul, abs_of_pos hu, sub_mul, div_mul_cancel₀ _ hu.ne']

section

variable {q : ℚ} {low k r : Nat} (h : OnGrid q low k r)

include h

/-- No multiple of the step is closer, and another one is as close only beside an even integer. -/
theorem OnGrid.multiple (z : Int) :
    |(r : ℚ) * 2 ^ ((k : Int) - 1074) - q| ≤ |(z : ℚ) * 2 ^ ((k : Int) - 1074) - q| ∧
      (|(z : ℚ) * 2 ^ ((k : Int) - 1074) - q| = |(r : ℚ) * 2 ^ ((k : Int) - 1074) - q| →
        z ≠ r → r % 2 = 0) := by
  have hu : (0 : ℚ) < 2 ^ ((k : Int) - 1074) := by positivity
  rw [abs_mul_sub hu, abs_mul_sub hu]
  exact ⟨mul_le_mul_of_nonneg_right (h.rounded.closest z) hu.le, fun htie hz =>
    h.rounded.even_of_tie hz (mul_right_cancel₀ hu.ne' htie)⟩

/-- A number below the normal ones of the grid is farther than the rounded one. -/
theorem OnGrid.farther {w : ℚ} (hk : k ≠ 0) (hw : w < hiddenBit * 2 ^ ((k : Int) - 1074)) :
    |(r : ℚ) * 2 ^ ((k : Int) - 1074) - q| < |w - q| := by
  have hq : hiddenBit * (2 : ℚ) ^ ((k : Int) - 1074) ≤ q := h.normal.resolve_left hk
  calc |(r : ℚ) * 2 ^ ((k : Int) - 1074) - q|
      ≤ |((hiddenBit : Int) : ℚ) * 2 ^ ((k : Int) - 1074) - q| := (h.multiple hiddenBit).1
    _ = q - hiddenBit * 2 ^ ((k : Int) - 1074) := by
        rw [Int.cast_natCast, abs_sub_comm, abs_of_nonneg (by linarith)]
    _ < q - w := by linarith
    _ ≤ |w - q| := by
        rw [abs_sub_comm]
        exact le_abs_self _

/-- The rounded number against any finite double, seen under either sign. -/
theorem OnGrid.against (d : Double) (s : Bool) :
    |(r : ℚ) * 2 ^ ((k : Int) - 1074) - q| ≤ |signed s d.toRat - q| ∧
      (|signed s d.toRat - q| = |(r : ℚ) * 2 ^ ((k : Int) - 1074) - q| →
        signed s d.toRat ≠ r * 2 ^ ((k : Int) - 1074) → r % 2 = 0) := by
  by_cases he : (k : Int) - 1074 ≤ d.scale
  · obtain ⟨z, hz⟩ := d.exists_multiple s he
    obtain ⟨hclosest, htie⟩ := h.multiple z
    rw [hz]
    refine ⟨hclosest, fun heq hne => htie heq fun hzr => hne ?_⟩
    rw [hzr, Int.cast_natCast]
  · have hscale := d.scale_ge
    have hfar := h.farther (by omega) (d.signed_lt_of_scale_lt s (not_le.mp he))
    exact ⟨hfar.le, fun heq => absurd heq hfar.ne'⟩

end

/-- Every magnitude up to the largest finite double is rounded on its grid. -/
theorem exists_onGrid {q : ℚ} (hq : 0 ≤ q) (hmax : q ≤ largest) :
    ∃ k r, OnGrid q (nearestBits q.num.natAbs q.den) k r := by
  have hquot : (q.num.natAbs : ℚ) / q.den = q := by
    rw [← Int.cast_natCast, Int.natAbs_of_nonneg (Rat.num_nonneg.mpr hq), Rat.num_div_den]
  by_cases h0 : q.num.natAbs = 0
  · obtain rfl : q = 0 := by rw [← hquot, h0, Nat.cast_zero, zero_div]
    exact ⟨0, 0, rfl, by decide, ⟨by norm_num, fun _ => rfl⟩, .inl rfl, by decide⟩
  · have hgrid := exists_onGrid_of_pos (Nat.pos_of_ne_zero h0) q.den_pos (hquot.symm ▸ hmax)
    rwa [hquot] at hgrid

/-- **The nearest double.** Rounding a magnitude up to the largest finite double gives the finite
double closest to it, of two equally close ones the one with the even significand. -/
theorem nearest_isNearest (s : Bool) {q : ℚ} (hq : 0 ≤ q) (hmax : q ≤ largest) :
    IsNearest (nearest s q) (signed s q) := by
  obtain ⟨k, r, h⟩ := exists_onGrid hq hmax
  have hpattern : nearest s q = ofMagnitude s (k * hiddenBit + r) := by rw [nearest, h.pattern]
  obtain ⟨hfinite, hsign, heven, hmag⟩ := fields_grid s h.fits h.hidden_le h.finite
  have hworth : (nearest s q).toRat = signed s (r * 2 ^ ((k : Int) - 1074)) := by
    rw [toRat, hpattern, hsign, hmag]
  -- Distances to the signed magnitude are distances to the magnitude, seen under its sign.
  have hdist : ∀ w : ℚ, |w - signed s q| = |signed s w - q| := fun w => by
    rw [← abs_signed_sub s w, signed_self]
  refine ⟨hpattern ▸ hfinite, fun d _ => ?_, fun d _ htie hne => ?_⟩
  · rw [hworth, hdist, hdist, signed_self]
    exact (h.against d s).1
  · rw [hworth, hdist, hdist, signed_self] at htie
    rw [hpattern, heven]
    refine (h.against d s).2 htie fun heq => hne ?_
    rw [hworth, ← heq, signed_self]

theorem magnitude_le_largest {d : Double} (h : d.isFinite = true) : d.magnitude ≤ largest := by
  rw [isFinite, bne_iff_ne] at h
  have hfield : d.exponentField < 2048 := Nat.mod_lt _ (by decide)
  have hscale : d.scale ≤ 971 := by
    unfold scale
    omega
  have hsig : (d.significand : ℚ) ≤ 2 * hiddenBit - 1 := by
    have hle : (d.significand : ℚ) + 1 ≤ 2 * hiddenBit := by
      exact_mod_cast (d.significand_lt : d.significand + 1 ≤ 2 * hiddenBit)
    exact le_sub_right_of_add_le hle
  calc d.magnitude = d.significand * 2 ^ d.scale := magnitude_eq d
    _ ≤ (2 * hiddenBit - 1) * 2 ^ d.scale := by gcongr
    _ ≤ largest := mul_le_mul_of_nonneg_left (zpow_le_zpow_right₀ one_le_two hscale)
        (le_trans (Nat.cast_nonneg _) hsig)

/-- **A double is its own nearest one**, under either sign. -/
theorem datum_nearest_magnitude {d : Double} (hd : d.isFinite = true) (s : Bool) :
    (nearest s d.magnitude).datum = .finite s d.magnitude := by
  obtain ⟨k, r, h⟩ := exists_onGrid d.magnitude_nonneg (magnitude_le_largest hd)
  obtain ⟨hfinite, hsign, -, hmag⟩ := fields_grid s h.fits h.hidden_le h.finite
  have hself : signed d.negative d.toRat = d.magnitude := signed_self _ _
  have hexact : (r : ℚ) * 2 ^ ((k : Int) - 1074) = d.magnitude := by
    have hclose := (h.against d d.negative).1
    rw [hself, sub_self, abs_zero] at hclose
    exact sub_eq_zero.mp (abs_nonpos_iff.mp hclose)
  rw [nearest, h.pattern, datum_of_isFinite hfinite, hsign, hmag, hexact]

end TieredVm.Double
