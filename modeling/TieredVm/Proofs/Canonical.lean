import TieredVm.Proofs.Caller
import TieredVm.Proofs.Reference.Serving

/-!
# Canonical values stay canonical

The tests that look at the bits of a value (for the error sentinel, for identity, for truth) say what its
decoding says when the value is canonical, and they need not when it is not. Nothing that starts from
canonical values leaves them: inline answers are canonical whatever their operands are, and a caller that
hands over canonical values, to an interpreter that produces only such, reads only canonical values.

* `Regime.canonical`: the regime of canonical values.
* `isException_iff_tag`, `beq_iff_kind`, `small?_of_canonical`: what the bits say of a canonical value.
* `canonical_values_closed`: inline answers, whole runs, and these tests.
-/

namespace TieredVm

variable {R : Type}

/-! ## What the bits of a canonical value say -/

/-- The truth of a small value. -/
def Kind.truth? : Kind → Option Bool
  | int n => some (n != 0)
  | bool b => some b
  | null | undefined => some false
  | _ => none

namespace Value

variable {v w : Value} {k : Kind}

theorem isException_iff_tag (hv : v.Canonical) : v.isException = true ↔ v.tag = .exception := by
  unfold isException
  rw [beq_iff_eq]
  constructor
  · rintro rfl
    rfl
  · intro ht
    obtain ⟨k, hk⟩ := exists_kind_of_canonical hv
    rw [tag_of_kind hk] at ht
    rw [← ofKind_of_canonical hv hk]
    cases k with
    | exception => rfl
    | _ => exact absurd ht nofun

theorem eq_iff_kind (hv : v.Canonical) (hw : w.Canonical) : v = w ↔ v.kind = w.kind := by
  refine ⟨congrArg kind, fun h => ?_⟩
  obtain ⟨k, hk⟩ := exists_kind_of_canonical hv
  exact eq_of_folded_kind hv hw hk (h.symm.trans hk) rfl

/-- The small payload is the truth of the kind. -/
theorem small?_of_canonical (hv : v.Canonical) (hk : v.kind = .ok k) :
    v.small?.map (· != 0) = k.truth? := by
  have hsmall : v.small? = if k.tag.isSmall then some v.lowInt else none := by
    rw [small?, tag_of_kind hk]
  rw [hsmall]
  have hw := ofKind_of_canonical hv hk
  cases k with
  | int n => rw [(fields_of_kind hk).2.1 n rfl]; rfl
  | bool b => rw [← hw]; cases b <;> rfl
  | null => rw [← hw]; rfl
  | undefined => rw [← hw]; rfl
  | _ => rfl

end Value

/-! ## The regime of canonical values -/

/-- Every value stored is canonical. -/
def Regime.canonical (good : R → Prop) : Regime R where
  fits := Value.Canonical
  good := good
  waits := fun _ => True
  compared := False
  pardons := False

theorem Regime.canonical_admits (good : R → Prop) : (Regime.canonical good).Admits :=
  ⟨fun _ h => h, fun _ _ => trivial, fun _ _ h => h.elim, trivial⟩

/-- Every slot, every captured variable and the function of every frame is canonical, and the
interpreter is in a good state. -/
abbrev Machine.Clean (good : R → Prop) (m : Machine R) : Prop := (Regime.canonical good).Holds m

/-- From canonical values, an interpreter in a good state produces canonical values, and is in a good
state again. -/
abbrev Interpreter.ProducesCanonical (I : Interpreter R) (good : R → Prop) : Prop :=
  (Regime.canonical good).Serves I

/-- The caller hands over canonical values as long as it is handed only such. -/
abbrev Caller.PassesCanonical (good : R → Prop) (c : Caller R) : Prop :=
  c.Passes (Regime.canonical good)

/-- Canonical, and tagged as an integer, a boolean or a double. -/
def Value.Plain (v : Value) : Prop :=
  v.Canonical ∧ (v.tag = .int ∨ v.tag = .bool ∨ v.tag = .float64)

/-- Canonical values are closed under everything that a caller can do. -/
structure CanonicalClosed (I : Interpreter R) (good : R → Prop) : Prop where
  /-- What a binary operator answers inline is plain, whatever its operands are, -/
  binary_inline : ∀ (op : BinaryOp) x y m, op.answersInline x.tag y.tag = true →
    ¬ op.IntRemainderByZero x y → ∃ v : Value, v.Plain ∧ I.binary op x y m = .ok v m
  /-- but for one remainder. -/
  remainder_by_zero : ∀ (op : BinaryOp) x y m, op.IntRemainderByZero x y →
    I.binary op x y m = .ok .exception m
  /-- The plus sign gives a number back as it is, -/
  plus_inline : ∀ x m, UnaryOp.plus.answersInline x.tag = true → I.unaryOp .plus x m = .ok x m
  /-- and what the other unary operators answer inline is plain. -/
  unary_inline : ∀ (op : UnaryOp) x m, op ≠ .plus → op.answersInline x.tag = true →
    ∃ v : Value, v.Plain ∧ I.unaryOp op x m = .ok v m
  logicalNot_inline : ∀ x m, x.tag.isSmall = true →
    ∃ v : Value, v.Plain ∧ I.logicalNot x m = .ok v m
  /-- All that a caller is answered along a run from a clean machine, and all it reads, is canonical, and
  the machine stays clean. -/
  runs : ∀ (c : Caller R) m, m.Clean good → c.PassesCanonical good →
    (Result.state (c.run I m)).Clean good ∧
    (∀ a m', c.run I m = .ok a m' → ∀ v ∈ a.values, v.Canonical) ∧
    c.Along I (fun m r => m.Clean good ∧
        ∀ a m', r.perform I m = .ok a m' → ∀ v ∈ a.values, v.Canonical)
      (fun m _ => m.Clean good) m
  /-- The sentinel test reads the tag of a canonical value, -/
  isException_iff : ∀ v : Value, v.Canonical → (v.isException = true ↔ v.tag = .exception)
  /-- identity compares decodings, payloads bit for bit, -/
  beq_iff : ∀ v w : Value, v.Canonical → w.Canonical → ((v == w) = true ↔ v.kind = w.kind)
  /-- and the truth of a small value is that of its kind. -/
  small_truth : ∀ (v : Value) k, v.Canonical → v.kind = .ok k → v.small?.map (· != 0) = k.truth?
  toBool_truth : ∀ (v : Value) k b m, v.Canonical → v.kind = .ok k → k.truth? = some b →
    I.toBool v m = .ok b m ∧ I.logicalNot v m = .ok (.ofBool !b) m

theorem Value.Scalar.plain {v : Value} (h : v.Scalar) : v.Plain := ⟨h.canonical, h.tag⟩

/-- **Canonical values are closed under everything**, next to an interpreter that produces only
canonical values. -/
theorem canonical_values_closed (I : Interpreter R) (good : R → Prop)
    (hI : I.ProducesCanonical good) : CanonicalClosed I good where
  binary_inline op x y m h hzero := by
    obtain ⟨v, hv⟩ := Option.isSome_iff_exists.mp ((op.inline?_isSome x y).trans h)
    exact ⟨v, (BinaryOp.scalar_of_inline hv hzero).plain, by rw [binary_eq, hv]; rfl⟩
  remainder_by_zero op x y m h := by
    rw [binary_eq, BinaryOp.inline?_of_intRemainderByZero h]
    rfl
  plus_inline x m h := by
    obtain ⟨v, hv⟩ := Option.isSome_iff_exists.mp ((UnaryOp.plus.inline?_isSome x).trans h)
    rw [unaryOp_eq, hv, (UnaryOp.inline?_plus hv).1]
    rfl
  unary_inline op x m hop h := by
    obtain ⟨v, hv⟩ := Option.isSome_iff_exists.mp ((op.inline?_isSome x).trans h)
    exact ⟨v, (UnaryOp.scalar_of_inline hop hv).plain, by rw [unaryOp_eq, hv]; rfl⟩
  logicalNot_inline x m h := by
    rw [Interpreter.logicalNot, toBool_small I h]
    cases x.asBool? with
    | some b => exact ⟨_, (Value.Scalar.bool !b).plain, rfl⟩
    | none => exact ⟨_, (Value.Scalar.bool _).plain, rfl⟩
  runs c m hm hc := by
    obtain ⟨hends, halong⟩ := hc.ends (Regime.canonical_admits good) hI id hm
    exact ⟨hends.holds, hends.answered, halong.mono (fun m r h => ⟨h.1, h.2.2.answered⟩)
      fun m s h => h.1⟩
  isException_iff _ hv := Value.isException_iff_tag hv
  beq_iff v w hv hw := by rw [beq_iff_eq, Value.eq_iff_kind hv hw]
  small_truth v k hv hk := Value.small?_of_canonical hv hk
  toBool_truth v k b m hv hk hb := by
    have hsmall := Value.small?_of_canonical hv hk
    rw [hb, Option.map_eq_some_iff] at hsmall
    obtain ⟨payload, hp, rfl⟩ := hsmall
    have htrue : I.toBool v m = .ok (payload != 0) m := by
      rw [Interpreter.toBool, hp]
      rfl
    refine ⟨htrue, ?_⟩
    rw [Interpreter.logicalNot, Value.asBool?_of_kind hk]
    cases k with
    | bool c =>
      obtain rfl : c = (payload != 0) := Option.some.inj hb
      rfl
    | _ => exact Run.bind_of_ok htrue _

/-! ## The reference interpreter -/

/-- The constants of the functions and the texts of the categories are canonical. -/
structure Reference.State.CanonicalHeap (s : Reference.State) : Prop where
  constants : ∀ p code v, s.bytecode? p = some code → v ∈ code.constants → v.Canonical
  texts : ∀ c v, s.categoryTexts c = some v → v.Canonical

/-- The reference interpreter produces only canonical values. -/
theorem Reference.producesCanonical (power : Double → Double → Double) :
    (interpreterWith power).ProducesCanonical State.CanonicalHeap := by
  refine Regime.serves_reference (Regime.canonical_admits _) ?_ power
  constructor
  case constants => exact fun s p code v hs hcode hv => ⟨hs.constants p code v hcode hv, False.elim⟩
  case texts => exact fun s c v hs hv => hs.texts c v hv
  case prepared => exact fun s e _ _ => False.elim
  case noted =>
    intro s s' hs hcells htexts _
    exact ⟨by rw [Regime.bytecode?_of_cells hcells]; exact hs.constants, htexts ▸ hs.texts⟩
  case allocated =>
    intro s t hs
    exact ⟨by rw [Regime.bytecode?_push_text]; exact hs.constants, hs.texts⟩
  case interned =>
    intro s c p hs
    refine ⟨hs.constants, fun d v hv => ?_⟩
    by_cases hd : d = c
    · obtain rfl := Option.some.inj ((if_pos hd).symm.trans hv)
      exact ⟨.heap .string p, rfl⟩
    · exact hs.texts d v ((if_neg hd).symm.trans hv)

/-- Doubles the greatest integer, and asks for the category of the sum. -/
def Caller.doubling : Caller R :=
  .ask (.binary .add (.ofInt 0x7fffffff) (.ofInt 0x7fffffff)) fun
    | .ok (.value sum) => .ask (.typeOf sum) fun _ => .done (.value sum)
    | _ => .done .done

theorem Caller.doubling_passes (good : R → Prop) :
    (Caller.doubling : Caller R).PassesCanonical good := by
  have hint : (Value.ofInt 0x7fffffff).Canonical := ⟨.int _, rfl⟩
  refine ⟨⟨fun v hv => ?_, fun _ h => by cases h⟩, fun a ha => ?_⟩
  · obtain rfl : v = .ofInt 0x7fffffff := by simpa [Request.values] using hv
    exact hint
  · obtain p | a := a
    · exact fun v hv => absurd hv List.not_mem_nil
    cases a with
    | value sum =>
      have hsum : sum.Canonical := ha _ rfl _ List.mem_cons_self
      refine ⟨⟨fun v hv => ?_, fun _ h => by cases h⟩, fun _ _ => Regime.fitsResponse_value hsum⟩
      rwa [List.mem_singleton.mp hv]
    | _ => exact fun v hv => absurd hv List.not_mem_nil

theorem canonical_values_closed_doubling :
    (Reference.interpreterWith Double.power).ProducesCanonical Reference.State.CanonicalHeap ∧
      ({ runtime := {} } : Machine Reference.State).Clean Reference.State.CanonicalHeap ∧
      Caller.doubling.PassesCanonical Reference.State.CanonicalHeap ∧
      ∀ a m', Caller.doubling.run (Reference.interpreterWith Double.power) { runtime := {} } =
        .ok a m' → ∀ v ∈ a.values, v.Canonical := by
  have hI := Reference.producesCanonical Double.power
  have hheap : ({} : Reference.State).CanonicalHeap :=
    ⟨fun p code v hcode _ => by simp [Reference.State.bytecode?, Reference.State.cellAt?] at hcode,
      nofun⟩
  have hundefined : Value.undefined.Canonical := ⟨.undefined, rfl⟩
  have hclean : ({ runtime := {} } : Machine Reference.State).Clean Reference.State.CanonicalHeap := by
    refine ⟨fun _ => hundefined, fun _ v hv => ?_, fun _ => hundefined, hheap, trivial⟩
    cases hv
    exact hundefined
  have hpasses := Caller.doubling_passes Reference.State.CanonicalHeap
  exact ⟨hI, hclean, hpasses,
    ((canonical_values_closed _ _ hI).runs Caller.doubling _ hclean hpasses).2.1⟩

end TieredVm
