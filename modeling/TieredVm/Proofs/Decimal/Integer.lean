import Mathlib.Data.List.TakeWhile
import TieredVm.Decimal.Layout
import TieredVm.Proofs.Double.Exact

/-!
# The decimal text of an integer

A double that is an integer below `2 ^ 53` is written with that integer's own digits
(`plainText_ofInt`). Its rounding interval holds no other integer (`around_natural`). The search for
the shortest decimal goes through grids of whole powers of ten down to the grid of the integers, and
on each of them it finds the integer itself or nothing. So it ends with digits and a power of ten that
make up the integer, and the layout fills the power of ten up with zeros.
-/

namespace TieredVm.Decimal

variable {n : Nat}

/-! ## The rounding interval -/

/-- The integer is the only one in the interval. -/
structure Interval.Around (i : Interval) (n : Nat) : Prop where
  mem : i.contains n = true
  only : ∀ f : Nat, i.contains f = true → f = n

theorem Interval.bounds_of_contains {i : Interval} {q : Rat} (h : i.contains q = true) :
    i.lower ≤ q ∧ q ≤ i.upper := by
  unfold contains at h
  split at h <;> rw [Bool.and_eq_true, decide_eq_true_eq, decide_eq_true_eq] at h
  · exact h
  · exact ⟨h.1.le, h.2.le⟩

theorem Interval.contains_of_bounds {i : Interval} {q : Rat} (hl : i.lower < q) (hu : q < i.upper) :
    i.contains q = true := by
  unfold contains
  split <;> rw [Bool.and_eq_true, decide_eq_true_eq, decide_eq_true_eq]
  · exact ⟨hl.le, hu.le⟩
  · exact ⟨hl, hu⟩

/-- A unit below the lowest digit of an integer is less than one. -/
theorem scaled_one_lt {e : Int} (h : e < 0) : Double.scaled 1 e < 1 := by
  rw [Double.scaled_eq, Nat.cast_one, one_mul]
  exact zpow_lt_one_of_neg₀ one_lt_two h

theorem around_natural (s : Bool) (h0 : 0 < n) (h : n < 2 ^ 53) :
    (intervalOf (Double.ofMagnitude s (Double.nearestBits n 1))).Around n := by
  obtain ⟨-, hsig, hscale⟩ := Double.fields_natural s h0 h
  have hk := Double.log2_le h
  generalize Double.ofMagnitude s (Double.nearestBits n 1) = d at hsig hscale
  have hvalue : Double.scaled d.significand d.scale = n := by
    rw [hsig, hscale, Double.scaled_shift h]
  have hone : ∀ j : Int, 0 < j → 0 < Double.scaled 1 (d.scale - j) ∧
      Double.scaled 1 (d.scale - j) < 1 := fun j hj =>
    ⟨Double.scaled_pos Nat.one_pos _, scaled_one_lt (by omega)⟩
  have hlower : (intervalOf d).lower < n ∧ (n : ℚ) - 1 < (intervalOf d).lower := by
    unfold intervalOf
    simp only [hvalue]
    split
    · obtain ⟨hpos, hlt⟩ := hone 2 (by decide)
      constructor <;> linarith
    · obtain ⟨hpos, hlt⟩ := hone 1 (by decide)
      constructor <;> linarith
  have hupper : n < (intervalOf d).upper ∧ (intervalOf d).upper < (n : ℚ) + 1 := by
    unfold intervalOf
    simp only [hvalue]
    obtain ⟨hpos, hlt⟩ := hone 1 (by decide)
    constructor <;> linarith
  constructor
  case mem => exact Interval.contains_of_bounds hlower.1 hupper.1
  case only =>
    intro f hf
    obtain ⟨hl, hu⟩ := Interval.bounds_of_contains hf
    have hlow : (n : ℚ) < f + 1 := by linarith [hlower.2]
    have hhigh : (f : ℚ) < n + 1 := by linarith [hupper.2]
    have hlow' : n < f + 1 := by exact_mod_cast hlow
    have hhigh' : f < n + 1 := by exact_mod_cast hhigh
    omega

/-! ## The search -/

theorem powTen_natural (k : Nat) : powTen k = (10 ^ k : Nat) := by
  unfold powTen
  rw [if_pos (by omega), Int.toNat_natCast, Nat.pow_eq]

section

variable {i : Interval} (hi : i.Around n)

include hi

/-- On a grid of a whole power of ten, only the integer itself can be found. -/
theorem gridPoint?_some {k f : Nat} (h : gridPoint? i n k = some f) : f * 10 ^ k = n := by
  have hpoint : ∀ g : Nat, i.contains ((g : ℚ) * powTen k) = true → g * 10 ^ k = n := by
    intro g hg
    rw [powTen_natural, ← Nat.cast_mul] at hg
    exact hi.only _ hg
  unfold gridPoint? at h
  simp only at h
  split at h
  case isTrue hlow =>
    split at h
    case isTrue hhigh =>
      split at h <;> cases h
      · exact hpoint _ hlow
      · exact hpoint _ hhigh
    case isFalse =>
      cases h
      exact hpoint _ hlow
  case isFalse =>
    split at h
    case isTrue hhigh =>
      cases h
      exact hpoint _ hhigh
    case isFalse => exact absurd h (by simp)

/-- On the grid of the integers it is found. -/
theorem gridPoint?_unit : gridPoint? i n 0 = some n := by
  have hunit : powTen 0 = 1 := by
    rw [show (0 : Int) = (0 : Nat) by rfl, powTen_natural]
    simp
  have hfloor : ((n : ℚ) / 1).floor.toNat = n := by
    show ⌊(n : ℚ) / 1⌋.toNat = n
    rw [div_one]
    rw [Int.floor_natCast, Int.toNat_natCast]
  have hnext : i.contains ((n + 1 : Nat) * 1 : ℚ) = false := by
    rw [mul_one, Bool.eq_false_iff]
    intro hc
    exact absurd (hi.only _ hc) (by omega)
  unfold gridPoint?
  simp only [hunit, hfloor]
  rw [hnext, mul_one, hi.mem]
  simp

/-- A search that comes to the integers ends with the integer. -/
theorem search_natural {p : Nat} : ∀ {ns : List Nat}, p ∈ ns → ns.Pairwise (· < ·) →
    ∃ f k : Nat, search i n p ns = (f, (k : Int)) ∧ f * 10 ^ k = n
  | x :: rest, hmem, hsorted => by
    obtain ⟨hx, hrest⟩ := List.pairwise_cons.mp hsorted
    have hle : x ≤ p := by
      rcases List.mem_cons.mp hmem with rfl | h
      · exact le_refl _
      · exact (hx p h).le
    have hgrid : ((p : Int) - x) = ((p - x : Nat) : Int) := by omega
    unfold search
    cases hg : gridPoint? i n ((p : Int) - x) with
    | some f =>
      rw [hgrid] at hg
      refine ⟨f, p - x, ?_, gridPoint?_some hi hg⟩
      simp only [hgrid]
    | none =>
      rcases List.mem_cons.mp hmem with rfl | h
      · rw [Int.sub_self, gridPoint?_unit hi] at hg
        exact absurd hg (by simp)
      · exact search_natural h hrest

end

theorem decade_natural (h0 : 0 < n) (h : n < 2 ^ 53) : 1 ≤ decade n ∧ decade n ≤ 17 := by
  have hk := Double.log2_le h
  have hone : powTen 0 = 1 := by
    rw [show (0 : Int) = (0 : Nat) by rfl, powTen_natural]
    simp
  have hn : ¬ (n : ℚ) < 1 := not_lt.mpr (by exact_mod_cast h0)
  unfold decade
  rw [Rat.num_natCast, Rat.den_natCast, Int.natAbs_natCast, Double.binade_natural h0]
  have hlow : 0 ≤ ((n.log2 : Int) * 30103).fdiv 100000 := by
    rw [Int.fdiv_eq_ediv_of_nonneg _ (by decide)]
    omega
  have hhigh : ((n.log2 : Int) * 30103).fdiv 100000 ≤ 15 := by
    rw [Int.fdiv_eq_ediv_of_nonneg _ (by decide)]
    omega
  generalize ((n.log2 : Int) * 30103).fdiv 100000 = t at hlow hhigh
  simp only
  split
  case isTrue hlt =>
    have ht : t ≠ 0 := by
      rintro rfl
      exact hn (hone ▸ hlt)
    omega
  case isFalse => split <;> omega

theorem shortest_natural (s : Bool) (h0 : 0 < n) (h : n < 2 ^ 53) :
    ∃ f k : Nat, shortest (Double.ofMagnitude s (Double.nearestBits n 1)) = ofGrid f k ∧
      f * 10 ^ k = n := by
  obtain ⟨-, -, hmag⟩ := Double.datum_eq_finite (Double.datum_natural s h)
  obtain ⟨hlow, hhigh⟩ := decade_natural h0 h
  obtain ⟨p, hp⟩ := Int.eq_ofNat_of_zero_le (show 0 ≤ decade n by omega)
  have hmem : p ∈ (List.range 17).map (· + 1) :=
    List.mem_map.mpr ⟨p - 1, List.mem_range.mpr (by omega), by omega⟩
  obtain ⟨f, k, hsearch, hf⟩ :=
    search_natural (around_natural s h0 h) hmem (by decide)
  refine ⟨f, k, ?_, hf⟩
  unfold shortest
  simp only [hmag, hp, hsearch]

/-! ## The digits -/

/-- A factor of a power of ten is as many zeros behind the digits. -/
theorem toDigits_mul_pow {f : Nat} (hf : 0 < f) : ∀ k : Nat,
    Nat.toDigits 10 (f * 10 ^ k) = Nat.toDigits 10 f ++ List.replicate k '0'
  | 0 => by simp
  | k + 1 => by
    have hstep : f * 10 ^ (k + 1) = 10 * (f * 10 ^ k) + 0 := by
      rw [Nat.pow_succ, Nat.add_zero]
      ring
    rw [hstep, ← Nat.toDigits_append_toDigits (by decide) (by positivity) (by decide),
      toDigits_mul_pow hf k, List.append_assoc, List.replicate_succ', Nat.toDigits_zero]

/-- Dropped zeros are zeros. -/
theorem exists_dropped_zeros (ds : List Char) :
    ∃ j, ds = (ds.reverse.dropWhile (· == '0')).reverse ++ List.replicate j '0' := by
  have hzeros : (ds.reverse.takeWhile (· == '0')).reverse =
      List.replicate (ds.reverse.takeWhile (· == '0')).length '0' := by
    refine List.eq_replicate_iff.mpr ⟨List.length_reverse, fun c hc => ?_⟩
    exact beq_iff_eq.mp (List.mem_takeWhile_imp (p := (· == '0')) (List.mem_reverse.mp hc))
  refine ⟨(ds.reverse.takeWhile (· == '0')).length, ?_⟩
  rw [← hzeros, ← List.reverse_append, List.takeWhile_append_dropWhile, List.reverse_reverse]

/-- The layout puts the dropped zeros and the grid's zeros back. -/
theorem positional_ofGrid (f k : Nat) :
    (ofGrid f k).positional = Nat.toDigits 10 f ++ List.replicate k '0' := by
  obtain ⟨j, hj⟩ := exists_dropped_zeros (Nat.toDigits 10 f)
  have hne : 0 < (Nat.toDigits 10 f).length := List.length_pos_iff.mpr Nat.toDigits_ne_nil
  unfold ofGrid
  generalize Nat.toDigits 10 f = ds at hj hne
  have hlen : ds.length = (ds.reverse.dropWhile (· == '0')).reverse.length + j := by
    conv_lhs => rw [hj]
    simp
  simp only [positional]
  rw [if_neg (by omega), if_pos (by omega)]
  conv_rhs => rw [hj]
  rw [List.append_assoc, List.replicate_append_replicate]
  congr 2
  omega

end TieredVm.Decimal

namespace TieredVm.Double

/-- An integer is written with its own digits. -/
theorem plainText_ofInt {z : Int} (h : z.natAbs < 2 ^ 53) : (ofInt z).plainText = toString z := by
  have hbody : (if (z.natAbs : ℚ) = 0 then "0"
      else String.ofList (Decimal.shortest (ofInt z)).positional) = toString z.natAbs := by
    by_cases hz : z.natAbs = 0
    · rw [hz]
      rfl
    · obtain ⟨f, k, hshort, hf⟩ :=
        Decimal.shortest_natural (decide (z < 0)) (Nat.pos_of_ne_zero hz) h
      have hf0 : 0 < f := Nat.pos_of_ne_zero fun h0 => hz (by rw [← hf, h0, Nat.zero_mul])
      rw [if_neg (Nat.cast_ne_zero.mpr hz), ofInt_eq, hshort, Decimal.positional_ofGrid,
        ← Decimal.toDigits_mul_pow hf0, hf]
      rfl
  unfold plainText textWith
  rw [datum_ofInt h]
  simp only [hbody, decide_eq_true_eq]
  cases z with
  | ofNat n => rfl
  | negSucc n =>
    rw [if_pos (Int.negSucc_lt_zero n)]
    rfl

end TieredVm.Double
