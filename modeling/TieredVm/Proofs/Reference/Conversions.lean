import TieredVm.Proofs.Run
import TieredVm.Proofs.Value.Codec
import TieredVm.Reference.Convert

/-!
# What values convert to

A value that can be shown has a text, and it has a number or refuses to have one; only a reference to
nothing has no conversion at all. `State.shownText` and `State.numberOf` are the conversions of a value
that can be shown.
-/

namespace TieredVm

/-- A value that is no reference can be shown. -/
theorem Value.shown_of_not_heap {v : Value} (h : ∀ t, v.tag ≠ .heap t) : v.dangling = false := by
  obtain ⟨k, hk⟩ := exists_kind_of_not_heap h
  rw [dangling, hk]

theorem Value.exists_kind_of_shown {v : Value} (h : v.dangling = false) : ∃ k, v.kind = .ok k := by
  unfold dangling at h
  cases hk : v.kind with
  | ok k => exact ⟨k, rfl⟩
  | error e => rw [hk] at h; exact absurd h (by simp)

/-- Every number is stored as an integer or as a double. -/
theorem Value.tag_number (d : Double) : (number d).tag = .int ∨ (number d).tag = .float64 := by
  unfold number
  split
  · exact .inl (tag_ofInt _)
  · exact .inr (tag_ofDouble _)

theorem Value.shown_of_number {v : Value} (h : v.tag = .int ∨ v.tag = .float64) :
    v.dangling = false := by
  refine shown_of_not_heap fun t ht => ?_
  rcases h with h | h <;> rw [h] at ht <;> exact absurd ht (by simp)

theorem Value.tag_ne_exception_of_number {v : Value} (h : v.tag = .int ∨ v.tag = .float64) :
    v.tag ≠ .exception := by
  rcases h with h | h <;> rw [h] <;> simp

theorem Value.isException_of_tag_ne {v : Value} (h : v.tag ≠ .exception) :
    v.isException = false := by
  unfold isException
  rw [beq_eq_false_iff_ne]
  rintro rfl
  exact h (by decide)

namespace Reference.State

variable (s : State) {v : Value} {k : Kind}

/-- The text of a value. Only a reference to nothing has none. -/
def shownText (v : Value) : String := (s.toText v).toOption.getD ""

/-- The number of a value, or why it has none. -/
def numberOf (v : Value) : Except Exception Double :=
  match (s.toNumber v).run with
  | .ok d => d
  | .error _ => .ok Double.nan

theorem exists_textOf? (h : v.dangling = false) : ∃ o, s.textOf? v = .ok o := by
  obtain ⟨k, hk⟩ := Value.exists_kind_of_shown h
  unfold textOf?
  rw [Value.asPointer?_of_kind hk]
  cases k.pointer? (.heap .string) with
  | none => exact ⟨none, rfl⟩
  | some p =>
    simp only [Bind.bind, Except.bind]
    split <;> exact ⟨_, rfl⟩

theorem toText_of_string {p : Pointer} (hk : v.kind = .ok (.heap .string p)) :
    s.toText v = (s.textOf? v).map (·.getD "") := by
  unfold toText
  rw [hk]
  cases s.textOf? v <;> rfl

theorem toNumber_of_string {p : Pointer} (hk : v.kind = .ok (.heap .string p)) :
    (s.toNumber v).run = (s.textOf? v).map fun o => .ok (numberOfText (o.getD "")) := by
  unfold toNumber
  rw [hk]
  cases s.textOf? v <;> rfl

theorem toText_of_shown (h : v.dangling = false) : s.toText v = .ok (s.shownText v) := by
  obtain ⟨k, hk⟩ := Value.exists_kind_of_shown h
  have hex : ∃ t, s.toText v = .ok t := by
    by_cases hs : ∃ p, k = .heap .string p
    · obtain ⟨p, rfl⟩ := hs
      obtain ⟨o, ho⟩ := s.exists_textOf? h
      exact ⟨o.getD "", by rw [s.toText_of_string hk, ho]; rfl⟩
    · unfold toText
      rw [hk]
      cases k with
      | heap t p =>
        cases t with
        | string => exact absurd ⟨p, rfl⟩ hs
        | _ => exact ⟨_, rfl⟩
      | _ => exact ⟨_, rfl⟩
  obtain ⟨t, ht⟩ := hex
  rw [shownText, ht]
  rfl

/-- A value that has no number refuses with an exception that can be shown. -/
theorem toNumber_of_shown (h : v.dangling = false) :
    (s.toNumber v).run = .ok (s.numberOf v) ∧ ∀ e, s.numberOf v = .error e → e.dangling = false := by
  obtain ⟨k, hk⟩ := Value.exists_kind_of_shown h
  have hex : ∃ r, (s.toNumber v).run = .ok r ∧ ∀ e, r = .error e → e.dangling = false := by
    by_cases hs : ∃ p, k = .heap .string p
    · obtain ⟨p, rfl⟩ := hs
      obtain ⟨o, ho⟩ := s.exists_textOf? h
      exact ⟨.ok (numberOfText (o.getD "")), by rw [s.toNumber_of_string hk, ho]; rfl, nofun⟩
    · unfold toNumber
      rw [hk]
      cases k with
      | heap t p =>
        cases t with
        | string => exact absurd ⟨p, rfl⟩ hs
        | _ => exact ⟨_, rfl, by rintro _ ⟨⟩ <;> rfl⟩
      | _ => exact ⟨_, rfl, nofun⟩
  obtain ⟨r, hr, he⟩ := hex
  rw [numberOf, hr]
  exact ⟨rfl, he⟩

end Reference.State

end TieredVm
