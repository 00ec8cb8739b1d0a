import TieredVm.Proofs.Value.Number

/-!
# The stored form of a number

`number` picks one of two forms. It picks the integer exactly for the doubles that are 32-bit integers,
and these do not include the negative zero; any other double keeps its own bits. So a number is read
back bit for bit, two numbers are stored the same only when they are the same, and storing what was
read changes nothing.
-/

namespace TieredVm

theorem Double.isNaN_folded (d : Double) : d.folded.isNaN = d.isNaN := by
  cases hd : d.isNaN with
  | false => rw [folded_of_number hd, hd]
  | true =>
    rw [folded, if_pos hd]
    exact isNaN_nan

theorem Double.folded_eq_iff {d e : Double} :
    d.folded = e.folded ↔ d = e ∨ d.isNaN = true ∧ e.isNaN = true := by
  constructor
  · intro h
    have hnan : d.isNaN = e.isNaN := by rw [← isNaN_folded, h, isNaN_folded]
    cases hd : d.isNaN with
    | false =>
      rw [folded_of_number hd, folded_of_number (hnan ▸ hd)] at h
      exact .inl h
    | true => exact .inr ⟨rfl, hnan ▸ hd⟩
  · rintro (rfl | ⟨hd, he⟩)
    · rfl
    · rw [folded, folded, if_pos hd, if_pos he]

namespace Value

/-- A way to store doubles is normal: integers where it can, bits otherwise, nothing lost, and one
form for each number. -/
structure Normalises (store : Double → Value) : Prop where
  /-- The integer form is for the doubles that are worth that integer, and for no negative zero. -/
  int_iff : ∀ (d : Double) (n : Int32),
    store d = ofInt n ↔ d ≠ .zero true ∧ d.worth? = some (.ofRat n.toInt)
  /-- Any other double keeps its bits; all NaNs have one form. -/
  double : ∀ d : Double, (∀ n, store d ≠ ofInt n) →
    (store d).tag = .float64 ∧ (store d).bits = if d.isNaN then Double.nan.bits else d.bits
  lossless : ∀ d : Double, d.isNaN = false → (store d).asNumber? = .ok (some d)
  same_iff : ∀ d e : Double, store d = store e ↔ d = e ∨ d.isNaN = true ∧ e.isNaN = true
  fixed : ∀ d : Double, ∃ e, (store d).asNumber? = .ok (some e) ∧ store e = store d
  int_fixed : ∀ n : Int32, ∃ e, (ofInt n).asNumber? = .ok (some e) ∧ store e = ofInt n

variable {d e : Double}

theorem ofInt_inj {n m : Int32} : ofInt n = ofInt m ↔ n = m := by
  refine ⟨fun h => ?_, congrArg ofInt⟩
  have hkind := (kind_ofInt n).symm.trans (h ▸ kind_ofInt m)
  exact Kind.int.inj (Except.ok.inj hkind)

theorem number_eq_ofInt_iff (n : Int32) : number d = ofInt n ↔ d = Double.ofInt32 n := by
  refine ⟨fun h => ?_, fun h => h ▸ number_ofInt32 n⟩
  cases hd : d.isInt32 with
  | true =>
    obtain ⟨m, rfl⟩ := (Double.isInt32_iff d).mp hd
    rw [number_ofInt32, ofInt_inj] at h
    rw [h]
  | false =>
    have htag := congrArg tag h
    rw [number_of_not_int32 hd, tag_ofDouble, tag_ofInt] at htag
    cases htag

/-- What is not stored as an integer is stored as a double. -/
theorem number_eq_ofDouble (h : ∀ n, number d ≠ ofInt n) : number d = ofDouble d := by
  cases hd : d.isInt32 with
  | true =>
    obtain ⟨n, rfl⟩ := (Double.isInt32_iff d).mp hd
    exact absurd (number_ofInt32 n) (h n)
  | false => exact number_of_not_int32 hd

theorem number_of_isNaN (h : d.isNaN = true) : number d = ⟨Double.nan.bits⟩ := by
  rw [number_eq_ofDouble, ofDouble, if_pos h]
  intro n hn
  obtain rfl := (number_eq_ofInt_iff n).mp hn
  exact absurd h (Bool.not_eq_true _ ▸ Double.isNaN_ofInt (Double.natAbs_toInt_lt n))

/-- A number is stored the same whichever NaN it is. -/
theorem number_folded (d : Double) : number d.folded = number d := by
  cases hd : d.isNaN with
  | false => rw [Double.folded_of_number hd]
  | true => rw [number_of_isNaN ((Double.isNaN_folded d).trans hd), number_of_isNaN hd]

/-- **Normalisation is lossless and canonical.** -/
theorem number_normalises : Normalises number where
  int_iff d n := (number_eq_ofInt_iff n).trans (Double.eq_ofInt32_iff n)
  double d h := by
    rw [number_eq_ofDouble h]
    refine ⟨tag_ofDouble d, ?_⟩
    unfold ofDouble
    split <;> rfl
  lossless d h := by
    have hd := isNumber_number d
    rwa [Double.folded_of_number h] at hd
  same_iff d e := by
    rw [← Double.folded_eq_iff]
    refine ⟨fun h => ?_, fun h => ?_⟩
    · have hd := isNumber_number d
      rw [h] at hd
      exact Option.some.inj (Except.ok.inj (hd.symm.trans (isNumber_number e)))
    · rw [← number_folded d, h, number_folded]
  fixed d := ⟨d.folded, isNumber_number d, number_folded d⟩
  int_fixed n := ⟨Double.ofInt32 n, isNumber_ofInt n, number_ofInt32 n⟩

end Value

end TieredVm
