import TieredVm.Proofs.Double.Worth
import TieredVm.Proofs.Reference.Interchangeable

/-!
# Equality and order of values

What the reference interpreter compares of two values that can be shown. Equality without conversions
compares what a value is identified by: a number, a text, or its own pattern (`Identity`). Equality with
conversions compares identities where the tags allow it, and numbers otherwise; so does the order, which
prefers texts. Only a symbol has no number, so a comparison that fails always fails in the same way.

* `strictEqual_of_shown`, `looseEqual_of_shown`: the interpreter's two equalities.
* `Identity.same_comm`, `Identity.same_trans`, `Identity.same_self`: equality without conversions.
* `looselyEqual_comm`, `looselyEqual_of_same`: equality with conversions.
* `orderBetween_swap`: the order read from the other side.
-/

namespace TieredVm

/-- The tags of the two values that stand for nothing. -/
def Tag.isNothing : Tag → Bool
  | null | undefined => true
  | _ => false

/-- The tags of numbers. -/
def Tag.isNumeric : Tag → Bool
  | int | float64 => true
  | _ => false

theorem Tag.isNothing_of_isNumeric {t : Tag} (h : t.isNumeric = true) : t.isNothing = false := by
  cases t <;> first | rfl | exact absurd h nofun

namespace Reference

/-- What a value is identified by. -/
inductive Identity where
  | number (d : Double)
  | text (t : String)
  | pattern (v : Value)
deriving DecidableEq

/-- Numbers are the same by value, texts by content, patterns by their bits. -/
def Identity.same : Identity → Identity → Bool
  | number x, number y => x.numEq y
  | text t, text u => t == u
  | pattern v, pattern w => v == w
  | _, _ => false

/-- A NaN identifies nothing. -/
def Identity.isNaN : Identity → Bool
  | number d => d.isNaN
  | _ => false

namespace Identity

theorem same_comm (i j : Identity) : i.same j = j.same i := by
  cases i <;> cases j <;> try rfl
  · exact Double.numEq_comm _ _
  · exact BEq.comm
  · exact BEq.comm

/-- The same are numbers that are worth the same, and identities that are equal. -/
theorem same_cases {i j : Identity} (h : i.same j = true) :
    (∃ x y p, i = number x ∧ j = number y ∧ x.worth? = some p ∧ y.worth? = some p) ∨ i = j := by
  cases i with
  | number x =>
    cases j with
    | number y =>
      obtain ⟨p, hx, hy⟩ := (Double.numEq_iff _ _).mp h
      exact .inl ⟨x, y, p, rfl, rfl, hx, hy⟩
    | _ => exact absurd h (by simp [same])
  | text t =>
    cases j with
    | text u => exact .inr (congrArg text (beq_iff_eq.mp h))
    | _ => exact absurd h (by simp [same])
  | pattern v =>
    cases j with
    | pattern w => exact .inr (congrArg pattern (beq_iff_eq.mp h))
    | _ => exact absurd h (by simp [same])

theorem same_trans {i j k : Identity} (hij : i.same j = true) (hjk : j.same k = true) :
    i.same k = true := by
  obtain ⟨x, y, p, rfl, rfl, hx, hy⟩ | rfl := same_cases hij
  · obtain ⟨y', z, q, hyy, rfl, hy', hz⟩ | rfl := same_cases hjk
    · cases hyy
      obtain rfl : p = q := Option.some.inj (hy.symm.trans hy')
      exact (Double.numEq_iff _ _).mpr ⟨p, hx, hz⟩
    · exact hij
  · exact hjk

/-- Everything but a NaN is the same as itself. -/
theorem same_self (i : Identity) : i.same i = !i.isNaN := by
  cases i with
  | number d =>
    show d.numEq d = !d.isNaN
    rw [Bool.eq_iff_iff, Double.numEq_iff, Bool.not_eq_true']
    constructor
    · rintro ⟨p, hp, -⟩
      rw [← Bool.not_eq_true, ← Double.worth?_eq_none_iff, hp]
      exact nofun
    · intro h
      obtain ⟨p, hp⟩ := Double.exists_worth h
      exact ⟨p, hp, hp⟩
  | text t => exact beq_self_eq_true t
  | pattern v => exact beq_self_eq_true v

/-- A NaN is the same as nothing. -/
theorem same_of_isNaN {i : Identity} (h : i.isNaN = true) (j : Identity) : i.same j = false := by
  by_contra hne
  have hij : i.same j = true := Bool.eq_true_of_not_eq_false hne
  have hself := same_trans hij ((same_comm j i).trans hij)
  rw [same_self, h] at hself
  exact absurd hself nofun

end Identity

namespace State

variable (s : State) {v a b : Value}

/-- What a value is identified by. -/
def identityOf (v : Value) : Identity :=
  match v.asNumber?, s.textOf? v with
  | .ok (some d), _ => .number d
  | _, .ok (some t) => .text t
  | _, _ => .pattern v

theorem identityOf_of_isNumber {d : Double} (h : v.IsNumber d) : s.identityOf v = .number d := by
  unfold identityOf
  rw [h]

theorem tag_of_isNumber {d : Double} (h : v.IsNumber d) : v.tag.isNumeric = true := by
  rcases h.tag with h | h <;> rw [h] <;> rfl

/-- The cases of an identity. -/
theorem identityOf_cases (h : v.dangling = false) :
    (∃ d, v.IsNumber d ∧ s.textOf? v = .ok none ∧ s.identityOf v = .number d) ∨
      (∃ t, v.asNumber? = .ok none ∧ s.textOf? v = .ok (some t) ∧ v.tag = .heap .string ∧
        s.identityOf v = .text t) ∨
      v.asNumber? = .ok none ∧ s.textOf? v = .ok none ∧ s.identityOf v = .pattern v := by
  obtain ⟨k, hk⟩ := Value.exists_kind_of_shown h
  obtain ⟨o, ho⟩ := s.exists_textOf? h
  have hn := Value.asNumber?_of_kind hk
  cases hnum : k.number? with
  | some d =>
    rw [hnum] at hn
    exact .inl ⟨d, hn, s.textOf?_of_isNumber hn, s.identityOf_of_isNumber hn⟩
  | none =>
    rw [hnum] at hn
    cases o with
    | none => exact .inr (.inr ⟨hn, ho, by rw [identityOf, hn, ho]⟩)
    | some t =>
      refine .inr (.inl ⟨t, hn, ho, ?_, by rw [identityOf, hn, ho]⟩)
      -- Only a reference under the tag of texts has a text.
      by_contra htag
      have hp : k.pointer? (.heap .string) = none := by
        rw [Value.tag_of_kind hk] at htag
        cases k with
        | heap u p => exact if_neg fun h => htag h.symm
        | _ => rfl
      rw [textOf?, Value.asPointer?_of_kind hk, hp] at ho
      exact absurd (Except.ok.inj ho) nofun

/-- **Equality without conversions compares identities.** -/
theorem strictEqual_of_shown (ha : a.dangling = false) (hb : b.dangling = false) :
    s.strictEqual a b = .ok ((s.identityOf a).same (s.identityOf b)) := by
  -- Values of different identities have different patterns.
  have hne : s.identityOf a ≠ s.identityOf b → (a == b) = false := fun h =>
    beq_eq_false_iff_ne.mpr fun hab => h (hab ▸ rfl)
  unfold strictEqual
  obtain ⟨x, hx, htx, hix⟩ | ⟨t, hx, htx, -, hix⟩ | ⟨hx, htx, hix⟩ := s.identityOf_cases ha <;>
    obtain ⟨y, hy, hty, hiy⟩ | ⟨u, hy, hty, -, hiy⟩ | ⟨hy, hty, hiy⟩ := s.identityOf_cases hb <;>
    rw [hix, hiy] at hne ⊢ <;> rw [hx, hy, htx, hty] <;>
    first | rfl | exact congrArg Except.ok (hne nofun)

/-- Values of the same identity have the same tag or are both numbers. -/
theorem tags_of_same (ha : a.dangling = false) (hb : b.dangling = false)
    (h : (s.identityOf a).same (s.identityOf b) = true) :
    a.tag = b.tag ∨ (a.tag.isNumeric = true ∧ b.tag.isNumeric = true) := by
  obtain ⟨x, hx, -, hix⟩ | ⟨t, -, -, htag, hix⟩ | ⟨-, -, hix⟩ := s.identityOf_cases ha <;>
    obtain ⟨y, hy, -, hiy⟩ | ⟨u, -, -, htag', hiy⟩ | ⟨-, -, hiy⟩ := s.identityOf_cases hb <;>
    rw [hix, hiy] at h
  case inl.inl => exact .inr ⟨tag_of_isNumber hx, tag_of_isNumber hy⟩
  case inr.inl.inr.inl => exact .inl (htag.trans htag'.symm)
  case inr.inr.inr.inr => exact .inl (congrArg Value.tag (beq_iff_eq.mp h))
  all_goals exact absurd h (by simp [Identity.same])

/-! ## Numbers of values -/

/-- Why a symbol has no number. -/
def refusal : Exception := .typeError "cannot convert a Symbol to a number"

theorem refusal_shown : refusal.dangling = false := rfl

/-- A value that has no number always refuses in the same way. -/
theorem numberOf_error {e : Exception} (h : s.numberOf v = .error e) : e = refusal := by
  unfold numberOf at h
  cases hr : (s.toNumber v).run with
  | error f => rw [hr] at h; exact absurd h nofun
  | ok r =>
    rw [hr] at h
    obtain rfl : r = .error e := h
    cases hk : v.kind with
    | error f =>
      rw [toNumber, hk] at hr
      exact absurd hr nofun
    | ok k =>
      by_cases hs : ∃ p, k = .heap .string p
      · obtain ⟨p, rfl⟩ := hs
        rw [s.toNumber_of_string hk] at hr
        cases ht : s.textOf? v with
        | error f => rw [ht] at hr; exact absurd hr nofun
        | ok o => rw [ht] at hr; exact absurd (Except.ok.inj hr) nofun
      · rw [toNumber, hk] at hr
        cases k with
        | heap t p =>
          cases t with
          | string => exact absurd ⟨p, rfl⟩ hs
          | symbol => exact (Except.error.inj (Except.ok.inj hr)).symm
          | _ => exact absurd (Except.ok.inj hr) nofun
        | _ => exact absurd (Except.ok.inj hr) nofun

theorem numberOf_of_isNumber {d : Double} (h : v.IsNumber d) : s.numberOf v = .ok d := by
  unfold numberOf
  rw [s.toNumber_of_isNumber h]
  rfl

/-- What two numbers give, if there are two. -/
def withNumbers {α : Type} (f : Double → Double → α) (a b : Value) : Except Exception α :=
  match s.numberOf a, s.numberOf b with
  | .ok x, .ok y => .ok (f x y)
  | .error e, _ => .error e
  | _, .error e => .error e

/-- It makes no difference whose number is asked for first. -/
theorem withNumbers_swap {α : Type} (f : Double → Double → α) (a b : Value) :
    s.withNumbers f a b = s.withNumbers (fun x y => f y x) b a := by
  unfold withNumbers
  cases ha : s.numberOf a with
  | ok x => cases s.numberOf b <;> rfl
  | error e =>
    cases hb : s.numberOf b with
    | ok y => rfl
    | error e' =>
      rw [s.numberOf_error ha, s.numberOf_error hb]

theorem withNumbers_error {α : Type} {f : Double → Double → α} {e : Exception}
    (h : s.withNumbers f a b = .error e) : e = refusal := by
  unfold withNumbers at h
  cases ha : s.numberOf a with
  | error e' =>
    rw [ha] at h
    obtain rfl : e' = e := by cases s.numberOf b <;> exact Except.error.inj h
    exact s.numberOf_error ha
  | ok x =>
    cases hb : s.numberOf b with
    | error e' =>
      rw [ha, hb] at h
      obtain rfl : e' = e := Except.error.inj h
      exact s.numberOf_error hb
    | ok y =>
      rw [ha, hb] at h
      exact absurd h nofun

theorem withNumbers_of_isNumber {α : Type} (f : Double → Double → α) {x y : Double}
    (ha : a.IsNumber x) (hb : b.IsNumber y) : s.withNumbers f a b = .ok (f x y) := by
  rw [withNumbers, s.numberOf_of_isNumber ha, s.numberOf_of_isNumber hb]

/-! ## Equality with conversions -/

/-- Do two values need no conversion to be compared? -/
def alike (a b : Value) : Bool :=
  a.tag == b.tag || (a.tag.isNumeric && b.tag.isNumeric)

/-- Equality with conversions, of values that can be shown. -/
def looselyEqual (a b : Value) : Except Exception Bool :=
  if a.tag.isNothing || b.tag.isNothing then .ok (a.tag.isNothing && b.tag.isNothing)
  else if alike a b then .ok ((s.identityOf a).same (s.identityOf b))
  else if a.tag == .heap .object || b.tag == .heap .object then .ok false
  else s.withNumbers Double.numEq a b

theorem isNothing_of_shown (h : v.dangling = false) : isNothing v = .ok v.tag.isNothing := by
  obtain ⟨k, hk⟩ := Value.exists_kind_of_shown h
  unfold isNothing
  rw [hk, Value.tag_of_kind hk]
  cases k <;> rfl

theorem isSome_asNumber? (h : v.dangling = false) :
    v.asNumber?.map Option.isSome = .ok v.tag.isNumeric := by
  obtain ⟨k, hk⟩ := Value.exists_kind_of_shown h
  rw [Value.asNumber?_of_kind hk, Value.tag_of_kind hk]
  cases k <;> rfl

theorem comparable_of_shown (ha : a.dangling = false) (hb : b.dangling = false) :
    comparable a b = .ok (alike a b) := by
  have hna := isSome_asNumber? ha
  have hnb := isSome_asNumber? hb
  unfold comparable alike
  by_cases ht : a.tag = b.tag
  · rw [if_pos ht, beq_iff_eq.mpr ht]
    rfl
  · rw [if_neg ht, beq_eq_false_iff_ne.mpr ht, Bool.false_or]
    cases hx : a.asNumber? with
    | error e => rw [hx] at hna; exact absurd hna nofun
    | ok o =>
      cases hy : b.asNumber? with
      | error e => rw [hy] at hnb; exact absurd hnb nofun
      | ok o' =>
        rw [hx] at hna
        rw [hy] at hnb
        rw [← Except.ok.inj hna, ← Except.ok.inj hnb]
        cases o <;> rfl

/-- **Equality with conversions**, as the interpreter computes it. -/
theorem looseEqual_of_shown (ha : a.dangling = false) (hb : b.dangling = false) :
    (s.looseEqual a b).run = .ok (s.looselyEqual a b) := by
  obtain ⟨hx, -⟩ := s.toNumber_of_shown ha
  obtain ⟨hy, -⟩ := s.toNumber_of_shown hb
  unfold looseEqual looselyEqual
  rw [isNothing_of_shown ha, isNothing_of_shown hb, comparable_of_shown ha hb,
    s.strictEqual_of_shown ha hb]
  show (if (a.tag.isNothing || b.tag.isNothing) = true then
      pure (a.tag.isNothing && b.tag.isNothing) else
    if alike a b = true then pure ((s.identityOf a).same (s.identityOf b)) else
    if a.tag = .heap .object ∨ b.tag = .heap .object then pure false else do
      let x ← s.toNumber a
      let y ← s.toNumber b
      pure (x.numEq y) : Converted Bool).run = _
  split
  · rfl
  split
  · rfl
  by_cases hobject : a.tag = .heap .object ∨ b.tag = .heap .object
  · rw [if_pos hobject, if_pos (by rwa [Bool.or_eq_true, beq_iff_eq, beq_iff_eq])]
    rfl
  · rw [if_neg hobject, if_neg (by rwa [Bool.or_eq_true, beq_iff_eq, beq_iff_eq]), ExceptT.run_bind,
      hx, withNumbers]
    cases s.numberOf a with
    | error e => cases s.numberOf b <;> rfl
    | ok x =>
      show (s.toNumber b >>= fun y => pure (x.numEq y) : Converted Bool).run = _
      rw [ExceptT.run_bind, hy]
      cases s.numberOf b <;> rfl

theorem alike_comm (a b : Value) : alike a b = alike b a := by
  unfold alike
  rw [BEq.comm, Bool.and_comm]

theorem looselyEqual_comm (a b : Value) : s.looselyEqual a b = s.looselyEqual b a := by
  have hswap : (fun x y => Double.numEq y x) = Double.numEq := by
    funext x y
    exact Double.numEq_comm y x
  unfold looselyEqual
  rw [Bool.or_comm a.tag.isNothing, Bool.and_comm a.tag.isNothing, alike_comm, Identity.same_comm,
    Bool.or_comm (a.tag == _), withNumbers_swap, hswap]

/-- Values of the same identity are equal with conversions too. -/
theorem looselyEqual_of_same (ha : a.dangling = false) (hb : b.dangling = false)
    (h : (s.identityOf a).same (s.identityOf b) = true) : s.looselyEqual a b = .ok true := by
  have halike : alike a b = true := by
    unfold alike
    rw [Bool.or_eq_true, beq_iff_eq, Bool.and_eq_true]
    exact s.tags_of_same ha hb h
  have hnothing : a.tag.isNothing = b.tag.isNothing := by
    rcases s.tags_of_same ha hb h with ht | ⟨hna, hnb⟩
    · rw [ht]
    · rw [Tag.isNothing_of_isNumeric hna, Tag.isNothing_of_isNumeric hnb]
  unfold looselyEqual
  rw [hnothing, Bool.or_self, Bool.and_self, halike, if_pos rfl, h]
  cases b.tag.isNothing <;> rfl

theorem looselyEqual_error {e : Exception} (h : s.looselyEqual a b = .error e) : e = refusal := by
  unfold looselyEqual at h
  split at h
  · exact absurd h nofun
  split at h
  · exact absurd h nofun
  split at h
  · exact absurd h nofun
  · exact s.withNumbers_error h

/-- Numbers are equal by value. -/
theorem looselyEqual_of_isNumber {x y : Double} (ha : a.IsNumber x) (hb : b.IsNumber y) :
    s.looselyEqual a b = .ok (x.numEq y) := by
  have hna := tag_of_isNumber ha
  have hnb := tag_of_isNumber hb
  unfold looselyEqual alike
  rw [Tag.isNothing_of_isNumeric hna, Tag.isNothing_of_isNumeric hnb, hna, hnb, Bool.and_true,
    Bool.or_true, s.identityOf_of_isNumber ha, s.identityOf_of_isNumber hb]
  rfl

/-! ## Order -/

/-- The order of two texts. -/
def textOrder (t u : String) : Ordering := if t < u then .lt else if t = u then .eq else .gt

/-- The content of a text. -/
def contentOf (v : Value) : Option String := (s.textOf? v).toOption.join

/-- The order of two values that can be shown: of their texts if both have one, of their numbers
otherwise. -/
def orderBetween (a b : Value) : Except Exception (Option Ordering) :=
  match s.contentOf a, s.contentOf b with
  | some t, some u => .ok (some (textOrder t u))
  | _, _ => s.withNumbers Double.compare? a b

theorem textOrder_swap (t u : String) : textOrder u t = (textOrder t u).swap :=
  compareOfLessAndEq_eq_swap String.le_antisymm String.le_total String.not_le

theorem contentOf_of_isNumber {d : Double} (h : v.IsNumber d) : s.contentOf v = none := by
  rw [contentOf, s.textOf?_of_isNumber h]
  rfl

theorem orderBetween_of_isNumber {x y : Double} (ha : a.IsNumber x) (hb : b.IsNumber y) :
    s.orderBetween a b = .ok (x.compare? y) := by
  rw [orderBetween, s.contentOf_of_isNumber ha, s.withNumbers_of_isNumber _ ha hb]

theorem orderBetween_error {e : Exception} (h : s.orderBetween a b = .error e) : e = refusal := by
  unfold orderBetween at h
  split at h
  · exact absurd h nofun
  · exact s.withNumbers_error h

/-- The order read from the other side. -/
theorem orderBetween_swap (a b : Value) :
    s.orderBetween b a = (s.orderBetween a b).map (·.map Ordering.swap) := by
  have hnumbers : s.withNumbers Double.compare? b a =
      (s.withNumbers Double.compare? a b).map (·.map Ordering.swap) := by
    rw [withNumbers_swap]
    unfold withNumbers
    cases s.numberOf a with
    | error e => rfl
    | ok x =>
      cases s.numberOf b with
      | error e => rfl
      | ok y => exact congrArg Except.ok (Double.compare?_swap x y)
  unfold orderBetween
  cases s.contentOf a with
  | none => cases s.contentOf b <;> exact hnumbers
  | some t =>
    cases s.contentOf b with
    | none => exact hnumbers
    | some u => exact congrArg (Except.ok ∘ some) (textOrder_swap t u)

end State

end Reference

end TieredVm
