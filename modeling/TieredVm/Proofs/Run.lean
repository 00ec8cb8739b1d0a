import TieredVm.Machine.Context

/-!
# What an operation leaves behind

A `Run` applied to a machine is an answer or a stop, with the machine it leaves. The lemmas here
open the primitives of the model one by one, so that what an operation does can be read off its
definition:

* `bind_apply` and its companions, for the monad;
* `violate_apply`: a violation adds one line to the journal and changes nothing else;
* `emit_of_line`, `emit_of_error`: an event that can be shown only adds its line. One that cannot
  is itself a violation, but only while events are recorded.

`noted` is the machine with a line added. It is the same machine when no journal is kept.

A reference to address zero has no decoding and cannot be shown (`Value.dangling`).
-/

namespace TieredVm

variable {R α β : Type}

/-! ## Results -/

namespace Result

variable {ε σ : Type}

/-- The state an operation leaves, whether it answered or stopped. -/
def state : EStateM.Result ε σ α → σ
  | .ok _ s => s
  | .error _ s => s

/-- What an operation answers, or why it stops, whatever state it leaves. -/
def answer : EStateM.Result ε σ α → Except ε α
  | .ok a _ => .ok a
  | .error e _ => .error e

/-- Two operations that answer the same both answer, or both stop. -/
theorem cases_of_answer_eq {τ : Type} {r : EStateM.Result ε σ α} {r' : EStateM.Result ε τ α}
    (h : answer r = answer r') :
    (∃ a s s', r = .ok a s ∧ r' = .ok a s') ∨ ∃ e s s', r = .error e s ∧ r' = .error e s' := by
  cases r with
  | ok a s =>
    cases r' with
    | ok a' s' => cases h; exact .inl ⟨a, s, s', rfl, rfl⟩
    | error e' s' => cases h
  | error e s =>
    cases r' with
    | ok a' s' => cases h
    | error e' s' => cases h; exact .inr ⟨e, s, s', rfl, rfl⟩

/-- The same answer or stop, with another state left. -/
def leaving : EStateM.Result ε σ α → σ → EStateM.Result ε σ α
  | .ok a _, s => .ok a s
  | .error e _, s => .error e s

theorem bind_of_ok {x : EStateM ε σ α} {s s' : σ} {a : α} (h : x s = .ok a s')
    (f : α → EStateM ε σ β) : (x >>= f) s = f a s' := by
  show EStateM.bind x f s = _
  rw [EStateM.bind, h]

theorem bind_of_error {x : EStateM ε σ α} {s s' : σ} {e : ε} (h : x s = .error e s')
    (f : α → EStateM ε σ β) : (x >>= f) s = .error e s' := by
  show EStateM.bind x f s = _
  rw [EStateM.bind, h]

/-- What answered in the end answered at every step. -/
theorem ok_of_bind {x : EStateM ε σ α} {f : α → EStateM ε σ β} {s s' : σ} {b : β}
    (h : (x >>= f) s = .ok b s') : ∃ a t, x s = .ok a t ∧ f a t = .ok b s' := by
  cases hx : x s with
  | ok a t => exact ⟨a, t, rfl, (bind_of_ok hx f).symm.trans h⟩
  | error e t => exact nomatch (bind_of_error hx f).symm.trans h

theorem ok_of_map {x : EStateM ε σ α} {f : α → β} {s s' : σ} {b : β}
    (h : (f <$> x) s = .ok b s') : ∃ a, x s = .ok a s' ∧ f a = b := by
  change EStateM.map f x s = _ at h
  rw [EStateM.map] at h
  cases hx : x s with
  | ok a t => rw [hx] at h; cases h; exact ⟨a, rfl, rfl⟩
  | error e t => rw [hx] at h; cases h

theorem error_of_map {x : EStateM ε σ α} {f : α → β} {s s' : σ} {e : ε}
    (h : (f <$> x) s = .error e s') : x s = .error e s' := by
  change EStateM.map f x s = _ at h
  rw [EStateM.map] at h
  cases hx : x s with
  | ok a t => rw [hx] at h; cases h
  | error e' t => rw [hx] at h; cases h; rfl

theorem get_apply (s : σ) : (get : EStateM ε σ σ) s = .ok s s := rfl

theorem answer_map (x : EStateM ε σ α) (f : α → β) (s : σ) :
    answer ((f <$> x) s) = (answer (x s)).map f := by
  show answer (EStateM.map f x s) = _
  rw [EStateM.map]
  cases x s <;> rfl

theorem state_map (x : EStateM ε σ α) (f : α → β) (s : σ) : state ((f <$> x) s) = state (x s) := by
  show state (EStateM.map f x s) = _
  rw [EStateM.map]
  cases x s <;> rfl

end Result

namespace Run

theorem bind_apply (x : Run R α) (f : α → Run R β) (m : Machine R) :
    (x >>= f) m = match x m with
      | .ok a m => f a m
      | .error e m => .error e m := by
  show EStateM.bind x f m = _
  rw [EStateM.bind]
  cases x m <;> rfl

theorem bind_of_ok {x : Run R α} {m m' : Machine R} {a : α} (h : x m = .ok a m')
    (f : α → Run R β) : (x >>= f) m = f a m' := Result.bind_of_ok h f

theorem bind_of_error {x : Run R α} {m m' : Machine R} {e : Stop} (h : x m = .error e m')
    (f : α → Run R β) : (x >>= f) m = .error e m' := Result.bind_of_error h f

theorem ok_of_bind {x : Run R α} {f : α → Run R β} {m m' : Machine R} {b : β}
    (h : (x >>= f) m = .ok b m') : ∃ a n, x m = .ok a n ∧ f a n = .ok b m' := Result.ok_of_bind h

theorem pure_apply (a : α) (m : Machine R) : (pure a : Run R α) m = .ok a m := rfl

theorem get_apply (m : Machine R) : (get : Run R (Machine R)) m = .ok m m := rfl

theorem set_apply (n m : Machine R) : (set n : Run R PUnit) m = .ok ⟨⟩ n := rfl

theorem modify_apply (f : Machine R → Machine R) (m : Machine R) :
    (modify f : Run R PUnit) m = .ok ⟨⟩ (f m) := rfl

theorem discard_of_ok {x : Run R α} {m m' : Machine R} {a : α} (h : x m = .ok a m') :
    (discard x : Run R PUnit) m = .ok ⟨⟩ m' := by
  show EStateM.map _ x m = _
  rw [EStateM.map, h]

theorem discard_of_error {x : Run R α} {m m' : Machine R} {e : Stop} (h : x m = .error e m') :
    (discard x : Run R PUnit) m = .error e m' := by
  show EStateM.map _ x m = _
  rw [EStateM.map, h]

theorem discard_congr {x y : Run R α} {m : Machine R} (h : x m = y m) :
    (discard x : Run R PUnit) m = (discard y : Run R PUnit) m := by
  cases hy : y m with
  | ok a m' => rw [discard_of_ok (h.trans hy), discard_of_ok hy]
  | error e m' => rw [discard_of_error (h.trans hy), discard_of_error hy]

end Run

/-! ## The journal -/

/-- The machine with a line added to its journal, if it keeps one. -/
def Machine.noted (m : Machine R) (line : String) : Machine R :=
  { m with journal := m.journal.map (· ++ [line]) }

theorem Machine.noted_of_silent {m : Machine R} (h : m.journal = none) (line : String) :
    m.noted line = m := by
  unfold Machine.noted
  rw [h]
  cases m
  simp_all

namespace Run

theorem violate_apply (v : Violation) (m : Machine R) :
    (violate v : Run R α) m = .error (Stop.violation v) (m.noted ("ERROR " ++ v.message)) := rfl

theorem violate_ne_ok {v : Violation} {m m' : Machine R} {a : α} :
    (violate v : Run R α) m ≠ .ok a m' := by
  simp [violate_apply]

theorem expect_ok (a : α) : (expect (.ok a) : Run R α) = pure a := rfl

theorem expect_error (v : Violation) : (expect (.error v) : Run R α) = violate v := rfl

/-- An event that can be shown adds its line and nothing else. -/
theorem emit_of_line {e : Event} {line : String} (h : e.line = .ok line) (m : Machine R) :
    emit e m = .ok () (m.noted line) := by
  cases hj : m.journal with
  | none =>
    rw [Machine.noted_of_silent hj]
    simp [emit, bind_apply, get_apply, hj, pure_apply]
  | some lines =>
    simp [emit, bind_apply, get_apply, hj, h, expect_ok, write, modify_apply, Machine.noted]

/-- An event that cannot be shown is a violation while events are recorded, and nothing
otherwise. -/
theorem emit_of_error {e : Event} {v : Violation} (h : e.line = .error v) (m : Machine R) :
    emit e m = if m.journal.isSome then violate v m else .ok () m := by
  cases hj : m.journal with
  | none => simp [emit, bind_apply, get_apply, hj, pure_apply]
  | some lines => simp [emit, bind_apply, get_apply, hj, h, expect_error, violate_apply]

/-- An event that can be shown wherever it is recorded at most adds a line. -/
theorem emit_of_shown {e : Event} {m : Machine R}
    (h : m.journal.isSome = true → ∃ line, e.line = .ok line) :
    ∃ line, emit e m = .ok () (m.noted line) := by
  cases he : e.line with
  | ok line => exact ⟨line, emit_of_line he m⟩
  | error v =>
    have hj : m.journal = none := by
      cases hj : m.journal with
      | none => rfl
      | some lines =>
        obtain ⟨line, hl⟩ := h (by rw [hj]; rfl)
        exact absurd (he.symm.trans hl) (by simp)
    refine ⟨"", ?_⟩
    rw [emit_of_error he, Machine.noted_of_silent hj, hj]
    rfl

end Run

/-! ## Values that cannot be shown -/

/-- Is this a reference to nothing? It is the one kind of pattern without a decoding. -/
def Value.dangling (v : Value) : Bool :=
  match v.kind with
  | .ok _ => false
  | .error _ => true

theorem Value.kind_eq_error {v : Value} {e : Violation} (h : v.kind = .error e) :
    ∃ t, e = .nullPointer t := by
  unfold Value.kind at h
  split at h <;> try exact absurd h (by simp)
  rename_i t _
  split at h
  · exact absurd h (by simp)
  · exact ⟨t, (Except.error.inj h).symm⟩

theorem Value.text_of_dangling {v : Value} (h : v.dangling = true) :
    ∃ t, v.text = .error (.nullPointer t) := by
  unfold Value.dangling at h
  split at h
  · exact absurd h (by simp)
  · rename_i e hk
    obtain ⟨t, rfl⟩ := Value.kind_eq_error hk
    exact ⟨t, by rw [Value.text, hk]; rfl⟩

theorem Value.text_of_shown {v : Value} (h : v.dangling = false) : ∃ s, v.text = .ok s := by
  unfold Value.dangling at h
  split at h
  · rename_i k hk
    exact ⟨k.text, by rw [Value.text, hk]; rfl⟩
  · exact absurd h (by simp)

/-- Is a reference to nothing thrown? No other exception lacks a report. -/
def Exception.dangling : Exception → Bool
  | error _ _ => false
  | thrown v => v.dangling

theorem Exception.report_of_dangling {e : Exception} (h : e.dangling = true) :
    ∃ t, e.report = .error (.nullPointer t) := by
  cases e with
  | error c t => exact absurd h (by simp [dangling])
  | thrown v =>
    obtain ⟨t, ht⟩ := Value.text_of_dangling h
    exact ⟨t, by rw [report, ht]; rfl⟩

theorem Exception.report_of_shown {e : Exception} (h : e.dangling = false) :
    ∃ s, e.report = .ok s := by
  cases e with
  | error c t => exact ⟨_, rfl⟩
  | thrown v =>
    obtain ⟨s, hs⟩ := Value.text_of_shown h
    exact ⟨_, by rw [report, hs]; rfl⟩

end TieredVm
