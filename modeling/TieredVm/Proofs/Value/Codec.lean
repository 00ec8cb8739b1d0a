import Mathlib.Data.Set.Function
import TieredVm.Value.Basic

/-!
# The pattern of a value and its decoding

A pattern is *canonical* when one of the constructors writes it (`Value.Canonical`). Decoding and
writing are inverse to each other between the canonical patterns and the kinds in which every NaN is
the same one (`Kind.folded`); any other pattern with a decoding decodes like exactly one canonical
pattern, and rebuilding it from its tag and its own bits gives that one.

* `toNat_boxed`, `box_boxed`, `payload_boxed`, `lowInt_boxed`: the fields of a written pattern.
* `kind_ofKind`: what is written decodes to what it was written from, NaNs folded.
* `kind_eq_error_iff`: a reference over an empty payload is the only pattern without a decoding.
* `ReadsAs`, `ReadsNull`: what every reader answers on a pattern with a given decoding, and on one
  without.
* `value_codec_faithful`: all of it, for all patterns.
-/

namespace TieredVm

/-! ## Kinds with one NaN -/

/-- A double with every NaN replaced by the one that is written. -/
def Double.folded (d : Double) : Double := if d.isNaN then nan else d

theorem Double.folded_of_number {d : Double} (h : d.isNaN = false) : d.folded = d :=
  if_neg (by simp [h])

@[simp] theorem Double.folded_folded (d : Double) : d.folded.folded = d.folded := by
  unfold folded
  by_cases h : d.isNaN = true
  · rw [if_pos h]
    decide
  · rw [if_neg h, if_neg h]

namespace Kind

/-- A kind with every NaN replaced by the one that is written. -/
def folded : Kind → Kind
  | float64 d => float64 d.folded
  | k => k

@[simp] theorem folded_folded (k : Kind) : k.folded.folded = k.folded := by
  cases k <;> simp [folded]

/-! ### What a kind holds -/

def int? : Kind → Option Int32
  | int n => some n
  | _ => none

def bool? : Kind → Option Bool
  | bool b => some b
  | _ => none

def double? : Kind → Option Double
  | float64 d => some d
  | _ => none

/-- The numeric value of an integer or a double. -/
def number? : Kind → Option Double
  | int n => some (Double.ofInt32 n)
  | float64 d => some d
  | _ => none

/-- The address of a reference, under any tag. -/
def address? : Kind → Option Pointer
  | heap _ p => some p
  | _ => none

/-- The address of a reference under the given tag. -/
def pointer? (t : Tag) : Kind → Option Pointer
  | heap u p => if t = .heap u then some p else none
  | _ => none

end Kind

theorem Pointer.addr_of_ofAddr? {a : Nat} {p : Pointer} (h : ofAddr? a = some p) : p.addr = a := by
  unfold ofAddr? at h
  split at h
  · cases h; rfl
  · exact absurd h (by simp)

namespace Value

/-! ## Fields of a written pattern -/

theorem toNat_boxed {b p : Nat} (hb : b < 0x10000) (hp : p < 0x1000000000000) :
    (boxed b p).bits.toNat = b * 0x1000000000000 + p := by
  simp only [boxed, UInt64.toNat_ofNat']
  omega

theorem box_boxed {b p : Nat} (hb : b < 0x10000) (hp : p < 0x1000000000000) :
    (boxed b p).box = b := by
  rw [box, toNat_boxed hb hp]
  omega

theorem payload_boxed {b p : Nat} (hb : b < 0x10000) (hp : p < 0x1000000000000) :
    (boxed b p).payload = p := by
  rw [payload, toNat_boxed hb hp]
  omega

theorem lowInt_boxed {b : Nat} (hb : b < 0x10000) (n : Int32) :
    (boxed b n.toUInt32.toNat).lowInt = n := by
  have hn := n.toUInt32.toNat_lt
  have hlow : (b * 0x1000000000000 + n.toUInt32.toNat) % 0x100000000 = n.toUInt32.toNat := by omega
  rw [lowInt, low, toNat_boxed hb (by omega), hlow, UInt32.ofNat_toNat]
  exact Int32.toInt32_toUInt32 n

/-- A pattern is its box bits above its payload. -/
theorem boxed_box_payload (v : Value) : boxed v.box v.payload = v := by
  have hv := v.bits.toNat_lt
  have hb : v.box < 0x10000 := by
    unfold box
    omega
  have hp : v.payload < 0x1000000000000 := Nat.mod_lt _ (by decide)
  cases v with
  | mk bits =>
    refine congrArg Value.mk (UInt64.toNat_inj.mp ?_)
    have h := toNat_boxed hb hp
    simp only [boxed, box, payload] at *
    omega

theorem box_lt (t : HeapTag) : t.box < 0x10000 := by cases t <;> decide

/-! ## Tags of written patterns -/

theorem tag_boxed {b p : Nat} (hb : b < 0x10000) (hp : p < 0x1000000000000) :
    (boxed b p).tag = Tag.ofBox b := by
  rw [tag, box_boxed hb hp]

theorem tag_ofInt (n : Int32) : (ofInt n).tag = .int := by
  have hn := n.toUInt32.toNat_lt
  exact tag_boxed (by decide) (by omega)

theorem tag_catchOffset (n : Int32) : (catchOffset n).tag = .catchOffset := by
  have hn := n.toUInt32.toNat_lt
  exact tag_boxed (by decide) (by omega)

theorem tag_ofPointer (t : HeapTag) (p : Pointer) : (ofPointer t p).tag = .heap t :=
  (tag_boxed (box_lt t) p.fits).trans (Tag.ofBox_box t)

/-- The box bits of a number announce no other tag: all of these lie among the NaNs. -/
theorem tag_of_number {d : Double} (h : d.isNaN = false) : (⟨d.bits⟩ : Value).tag = .float64 := by
  have hn : ¬ (d.isNaN = true) := by simp [h]
  simp only [Double.isNaN, Double.exponentField, Double.fraction, Double.hiddenBit,
    Bool.and_eq_true, beq_iff_eq, bne_iff_ne] at hn
  have hb := d.bits.toNat_lt
  unfold tag box Tag.ofBox
  simp only
  repeat rw [if_neg (by omega)]

/-- A double is written as its own pattern, NaNs folded. -/
theorem ofDouble_eq (d : Double) : ofDouble d = ⟨d.folded.bits⟩ := by
  unfold ofDouble Double.folded
  split <;> rfl

/-- A double never collides with another tag. -/
theorem tag_ofDouble (d : Double) : (ofDouble d).tag = .float64 := by
  rw [ofDouble_eq]
  unfold Double.folded
  by_cases h : d.isNaN = true
  · rw [if_pos h]
    decide
  · rw [if_neg h]
    exact tag_of_number (Bool.eq_false_iff.mpr h)

/-! ## Decoding what was written -/

theorem kind_ofInt (n : Int32) : (ofInt n).kind = .ok (.int n) := by
  unfold kind
  rw [tag_ofInt, ofInt, lowInt_boxed (by decide)]

theorem kind_catchOffset (n : Int32) : (catchOffset n).kind = .ok (.catchOffset n) := by
  unfold kind
  rw [tag_catchOffset, catchOffset, lowInt_boxed (by decide)]

theorem kind_ofBool (b : Bool) : (ofBool b).kind = .ok (.bool b) := by cases b <;> rfl

theorem kind_ofDouble (d : Double) : (ofDouble d).kind = .ok (.float64 d.folded) := by
  unfold kind
  rw [tag_ofDouble, ofDouble_eq]
  rfl

/-- The decoding of a reference is its payload under its tag. -/
theorem kind_of_heap {v : Value} {t : HeapTag} (ht : v.tag = .heap t) :
    v.kind = match Pointer.ofAddr? v.payload with
      | some p => .ok (.heap t p)
      | none => .error (.nullPointer t) := by
  cases hp : Pointer.ofAddr? v.payload <;> simp only [kind, ht, hp]

theorem kind_ofPointer (t : HeapTag) (p : Pointer) : (ofPointer t p).kind = .ok (.heap t p) := by
  have hp : (ofPointer t p).payload = p.addr := payload_boxed (box_lt t) p.fits
  rw [kind_of_heap (tag_ofPointer t p), hp, Pointer.ofAddr?_addr]

/-- No two tags of references share their box bits. -/
theorem eq_box_of_ofBox {b : Nat} {t : HeapTag} (h : Tag.ofBox b = .heap t) : b = t.box := by
  simp only [Tag.ofBox, apply_ite (· = Tag.heap t), Tag.heap.injEq, reduceCtorEq] at h
  cases t <;> simp_all [HeapTag.box]

/-- **What is written decodes to what it was written from**, with NaNs folded. -/
theorem kind_ofKind (k : Kind) : (ofKind k).kind = .ok k.folded := by
  cases k with
  | int n => exact kind_ofInt n
  | bool b => exact kind_ofBool b
  | null => rfl
  | undefined => rfl
  | uninitialized => rfl
  | catchOffset n => exact kind_catchOffset n
  | exception => rfl
  | float64 d => exact kind_ofDouble d
  | heap t p => exact kind_ofPointer t p

/-- Writing does not tell the NaNs apart. -/
theorem ofKind_folded (k : Kind) : ofKind k.folded = ofKind k := by
  cases k with
  | float64 d => simp [Kind.folded, ofKind, ofDouble_eq]
  | _ => rfl

/-! ## Canonical patterns -/

/-- One of the constructors writes the pattern. -/
def Canonical (v : Value) : Prop := ∃ k, ofKind k = v

/-- A canonical pattern is what its decoding is written as. -/
theorem ofKind_of_canonical {v : Value} {k : Kind} (hv : v.Canonical) (hk : v.kind = .ok k) :
    ofKind k = v := by
  obtain ⟨l, rfl⟩ := hv
  obtain rfl : l.folded = k := Except.ok.inj ((kind_ofKind l).symm.trans hk)
  exact ofKind_folded l

/-- The decoding of a canonical pattern has its NaNs folded. -/
theorem folded_of_canonical {v : Value} {k : Kind} (hv : v.Canonical) (hk : v.kind = .ok k) :
    k.folded = k := by
  obtain ⟨l, rfl⟩ := hv
  obtain rfl : l.folded = k := Except.ok.inj ((kind_ofKind l).symm.trans hk)
  exact l.folded_folded

theorem exists_kind_of_canonical {v : Value} (hv : v.Canonical) : ∃ k, v.kind = .ok k := by
  obtain ⟨l, rfl⟩ := hv
  exact ⟨_, kind_ofKind l⟩

/-! ## Patterns without a decoding -/

/-- A reference tag over an empty payload. -/
def NullReference (v : Value) : Prop := ∃ t, v.tag = .heap t ∧ v.payload = 0

theorem ofAddr?_payload (v : Value) :
    Pointer.ofAddr? v.payload = none ↔ v.payload = 0 := by
  have hp : v.payload < 0x1000000000000 := Nat.mod_lt _ (by decide)
  unfold Pointer.ofAddr?
  split <;> simp <;> omega

theorem exists_kind_of_not_heap {v : Value} (h : ∀ t, v.tag ≠ .heap t) : ∃ k, v.kind = .ok k := by
  unfold kind
  split
  case h_9 t ht => exact absurd ht (h t)
  all_goals exact ⟨_, rfl⟩

theorem kind_of_nullReference {v : Value} {t : HeapTag} (ht : v.tag = .heap t)
    (hp : v.payload = 0) : v.kind = .error (.nullPointer t) := by
  rw [kind_of_heap ht, (ofAddr?_payload v).mpr hp]

/-- Only a reference to nothing has no decoding. -/
theorem kind_eq_error_iff {v : Value} {e : Violation} :
    v.kind = .error e ↔ ∃ t, v.tag = .heap t ∧ v.payload = 0 ∧ e = .nullPointer t := by
  constructor
  · intro h
    by_cases ht : ∃ t, v.tag = .heap t
    · obtain ⟨t, ht⟩ := ht
      rw [kind_of_heap ht] at h
      cases hp : Pointer.ofAddr? v.payload with
      | some p => rw [hp] at h; exact absurd h (by simp)
      | none =>
        rw [hp] at h
        exact ⟨t, ht, (ofAddr?_payload v).mp hp, (Except.error.inj h).symm⟩
    · obtain ⟨k, hk⟩ := exists_kind_of_not_heap fun t h => ht ⟨t, h⟩
      exact absurd (hk.symm.trans h) (by simp)
  · rintro ⟨t, ht, hp, rfl⟩
    exact kind_of_nullReference ht hp

/-- A pattern decodes unless it is a reference to nothing. -/
theorem exists_kind_iff {v : Value} : (∃ k, v.kind = .ok k) ↔ ¬ v.NullReference := by
  constructor
  · rintro ⟨k, hk⟩ ⟨t, ht, hp⟩
    exact absurd (hk.symm.trans (kind_of_nullReference ht hp)) (by simp)
  · intro h
    cases hk : v.kind with
    | ok k => exact ⟨k, rfl⟩
    | error e =>
      obtain ⟨t, ht, hp, -⟩ := kind_eq_error_iff.mp hk
      exact absurd ⟨t, ht, hp⟩ h

/-! ## Readers -/

/-- What the readers answer on a pattern that decodes to a kind. A reader behind a guard stops where
the kind is another. -/
structure ReadsAs (v : Value) (k : Kind) : Prop where
  tag : v.tag = k.tag
  asInt? : v.asInt? = k.int?
  asBool? : v.asBool? = k.bool?
  asDouble? : v.asDouble? = k.double?
  asNumber? : v.asNumber? = .ok k.number?
  asPointer? : ∀ t, v.asPointer? t = .ok (k.pointer? t)
  isHeap : v.isHeap = k.address?.isSome
  bothInt? : ∀ w l, w.kind = .ok l →
    bothInt? v w = k.int?.bind fun a => l.int?.map fun b => (a, b)
  bothDouble? : ∀ w l, w.kind = .ok l →
    bothDouble? v w = k.double?.bind fun a => l.double?.map fun b => (a, b)
  intPayload : v.intPayload = k.int?.elim (.error (.wrongPayload .int k.tag)) .ok
  boolPayload : v.boolPayload = k.bool?.elim (.error (.wrongPayload .bool k.tag)) .ok
  doublePayload : v.doublePayload = k.double?.elim (.error (.wrongPayload .float64 k.tag)) .ok
  pointerPayload :
    v.pointerPayload = k.address?.elim (.error (.wrongPayload (.heap .object) k.tag)) .ok

/-- What they answer on a reference to nothing: the tag still answers, and so do the readers that
only look at it. A reader that decodes stops. -/
structure ReadsNull (v : Value) (t : HeapTag) : Prop where
  kind : v.kind = .error (.nullPointer t)
  asNumber? : v.asNumber? = .error (.nullPointer t)
  asPointer? : ∀ u, v.asPointer? u = .error (.nullPointer t)
  pointerPayload : v.pointerPayload = .error (.nullPointer t)
  asInt? : v.asInt? = none
  asBool? : v.asBool? = none
  asDouble? : v.asDouble? = none
  isHeap : v.isHeap = true
  bothInt? : ∀ w, bothInt? v w = none
  bothDouble? : ∀ w, bothDouble? v w = none
  intPayload : v.intPayload = .error (.wrongPayload .int (.heap t))
  boolPayload : v.boolPayload = .error (.wrongPayload .bool (.heap t))
  doublePayload : v.doublePayload = .error (.wrongPayload .float64 (.heap t))
  ofTagPayload : ofTagPayload v.tag v.bits = .error (.nullPayload t)

section

variable {v : Value} {k : Kind}

/-- What a decoding says about the fields of its pattern. -/
theorem fields_of_kind (h : v.kind = .ok k) :
    v.tag = k.tag ∧ (∀ n, k = .int n → v.lowInt = n) ∧ (∀ b, k = .bool b → (v.low != 0) = b) ∧
      ∀ d, k = .float64 d → v.double = d := by
  unfold kind at h
  split at h
  case h_9 t ht =>
    split at h
    · cases h
      exact ⟨ht, nofun, nofun, nofun⟩
    · exact absurd h (by simp)
  all_goals
    rename_i ht
    cases h
    refine ⟨ht, ?_, ?_, ?_⟩ <;> rintro _ ⟨⟩ <;> rfl

theorem tag_of_kind (h : v.kind = .ok k) : v.tag = k.tag := (fields_of_kind h).1

/-- A reference is what its tag and its address are written as. -/
theorem eq_ofPointer_of_kind {t : HeapTag} {p : Pointer} (h : v.kind = .ok (.heap t p)) :
    v = ofPointer t p := by
  have ht : v.tag = .heap t := tag_of_kind h
  have hp : v.payload = p.addr := by
    rw [kind_of_heap ht] at h
    cases hq : Pointer.ofAddr? v.payload with
    | none => rw [hq] at h; exact absurd h (by simp)
    | some q =>
      rw [hq] at h
      cases h
      exact (Pointer.addr_of_ofAddr? hq).symm
  rw [← boxed_box_payload v, eq_box_of_ofBox ht, hp]
  rfl

theorem asInt?_of_kind (h : v.kind = .ok k) : v.asInt? = k.int? := by
  obtain ⟨ht, hi, -, -⟩ := fields_of_kind h
  unfold asInt?
  rw [ht]
  cases k with
  | int n => exact congrArg some (hi n rfl)
  | _ => rfl

theorem asBool?_of_kind (h : v.kind = .ok k) : v.asBool? = k.bool? := by
  obtain ⟨ht, -, hb, -⟩ := fields_of_kind h
  unfold asBool?
  rw [ht]
  cases k with
  | bool b => exact congrArg some (hb b rfl)
  | _ => rfl

theorem asDouble?_of_kind (h : v.kind = .ok k) : v.asDouble? = k.double? := by
  obtain ⟨ht, -, -, hd⟩ := fields_of_kind h
  unfold asDouble?
  rw [ht]
  cases k with
  | float64 d => exact congrArg some (hd d rfl)
  | _ => rfl

theorem asNumber?_of_kind (h : v.kind = .ok k) : v.asNumber? = .ok k.number? := by
  unfold asNumber?
  rw [h]
  cases k <;> rfl

theorem asPointer?_of_kind (h : v.kind = .ok k) (t : Tag) : v.asPointer? t = .ok (k.pointer? t) := by
  unfold asPointer?
  rw [h]
  cases k with
  | heap u p => simp only [Kind.pointer?]; rfl
  | _ => rfl

theorem pointerPayload_of_kind (h : v.kind = .ok k) :
    v.pointerPayload = k.address?.elim (.error (.wrongPayload (.heap .object) k.tag)) .ok := by
  unfold pointerPayload
  rw [h, ← tag_of_kind h]
  cases k <;> rfl

theorem readsAs_of_kind (h : v.kind = .ok k) : v.ReadsAs k where
  tag := tag_of_kind h
  asInt? := asInt?_of_kind h
  asBool? := asBool?_of_kind h
  asDouble? := asDouble?_of_kind h
  asNumber? := asNumber?_of_kind h
  asPointer? := asPointer?_of_kind h
  isHeap := by
    rw [isHeap, tag_of_kind h]
    cases k <;> rfl
  bothInt? w l hw := by
    unfold Value.bothInt?
    rw [asInt?_of_kind h, asInt?_of_kind hw]
    cases k.int? <;> cases l.int? <;> rfl
  bothDouble? w l hw := by
    unfold Value.bothDouble?
    rw [asDouble?_of_kind h, asDouble?_of_kind hw]
    cases k.double? <;> cases l.double? <;> rfl
  intPayload := by rw [Value.intPayload, asInt?_of_kind h, tag_of_kind h]
  boolPayload := by rw [Value.boolPayload, asBool?_of_kind h, tag_of_kind h]
  doublePayload := by rw [Value.doublePayload, asDouble?_of_kind h, tag_of_kind h]
  pointerPayload := pointerPayload_of_kind h

end

/-! ## Rebuilding -/

/-- A value rebuilt from its tag and its own bits is the canonical one with its decoding. -/
theorem ofTagPayload_self {v : Value} {k : Kind} (h : v.kind = .ok k) :
    ofTagPayload v.tag v.bits = .ok (ofKind k) := by
  obtain ⟨ht, hi, hb, hd⟩ := fields_of_kind h
  cases k with
  | int n => rw [ht, ofKind, ← hi n rfl]; rfl
  | bool b => rw [ht, ofKind, ← hb b rfl]; rfl
  | float64 d => rw [ht, ofKind, ← hd d rfl]; rfl
  | heap t p =>
    rw [kind_of_heap ht] at h
    cases hp : Pointer.ofAddr? v.payload with
    | none => rw [hp] at h; exact absurd h (by simp)
    | some q =>
      rw [hp] at h
      cases h
      rw [ht, ofTagPayload.eq_def]
      simp only [hp]
      rfl
  | catchOffset n =>
    have hl : v.lowInt = n := by
      unfold kind at h
      rw [ht] at h
      cases h
      rfl
    rw [ht, ofKind, ← hl]
    rfl
  | _ => rw [ht]; rfl

/-- Canonical patterns with the same decoding, NaNs folded, are the same. -/
theorem eq_of_folded_kind {v w : Value} {k l : Kind} (hv : v.Canonical) (hw : w.Canonical)
    (hk : v.kind = .ok k) (hl : w.kind = .ok l) (h : k.folded = l.folded) : v = w := by
  rw [← ofKind_of_canonical hv hk, ← ofKind_of_canonical hw hl, ← ofKind_folded k, h, ofKind_folded]

/-- A reader that decodes first stops where the pattern does not decode, and nowhere else. -/
theorem nullReference_iff_error {α : Type} {v : Value} {read : Except Violation α}
    (hok : ∀ k, v.kind = .ok k → ∃ a, read = .ok a)
    (herror : ∀ e, v.kind = .error e → read = .error e) :
    v.NullReference ↔ ∃ e, read = .error e := by
  constructor
  · rintro ⟨t, ht, hp⟩
    exact ⟨_, herror _ (kind_of_nullReference ht hp)⟩
  · rintro ⟨e, he⟩
    refine Classical.byContradiction fun hn => ?_
    obtain ⟨k, hk⟩ := exists_kind_iff.mpr hn
    obtain ⟨a, ha⟩ := hok k hk
    exact absurd (ha.symm.trans he) (by simp)

theorem readsNull_of_payload {v : Value} {t : HeapTag} (ht : v.tag = .heap t)
    (hp : v.payload = 0) : v.ReadsNull t := by
  have hk : v.kind = .error (.nullPointer t) := kind_of_nullReference ht hp
  have hi : v.asInt? = none := by rw [asInt?, ht]; rfl
  have hb : v.asBool? = none := by rw [asBool?, ht]; rfl
  have hd : v.asDouble? = none := by rw [asDouble?, ht]; rfl
  constructor
  case kind => exact hk
  case asNumber? => rw [asNumber?, hk]; rfl
  case asPointer? => intro u; rw [asPointer?, hk]; rfl
  case pointerPayload => rw [pointerPayload, hk]; rfl
  case asInt? => exact hi
  case asBool? => exact hb
  case asDouble? => exact hd
  case isHeap => rw [isHeap, ht]; rfl
  case bothInt? => intro w; rw [bothInt?, hi]; rfl
  case bothDouble? => intro w; rw [bothDouble?, hd]; rfl
  case intPayload => rw [intPayload, hi, ht]; rfl
  case boolPayload => rw [boolPayload, hb, ht]; rfl
  case doublePayload => rw [doublePayload, hd, ht]; rfl
  case ofTagPayload =>
    rw [ht, ofTagPayload.eq_def]
    simp only
    rw [show (⟨v.bits⟩ : Value).payload = v.payload from rfl, (ofAddr?_payload v).mpr hp]

/-! ## The codec -/

/-- Decoding is a bijection from the canonical patterns to the kinds with one NaN. -/
theorem kind_bijOn : Set.BijOn kind {v | v.Canonical} (Except.ok '' {k | k.folded = k}) := by
  refine ⟨?mapsTo, ?injOn, ?surjOn⟩
  case mapsTo =>
    rintro v hv
    obtain ⟨k, hk⟩ := exists_kind_of_canonical hv
    exact ⟨k, folded_of_canonical hv hk, hk.symm⟩
  case injOn =>
    intro v hv w hw h
    obtain ⟨k, hk⟩ := exists_kind_of_canonical hv
    exact eq_of_folded_kind hv hw hk (h.symm.trans hk) rfl
  case surjOn =>
    rintro _ ⟨k, hk, rfl⟩
    exact ⟨ofKind k, ⟨k, rfl⟩, (kind_ofKind k).trans (congrArg Except.ok hk)⟩

/-- What makes the writing and reading of patterns faithful. -/
structure FaithfulCodec : Prop where
  /-- Decoding is one to one on canonical patterns. -/
  bijective : Set.BijOn kind {v | v.Canonical} (Except.ok '' {k | k.folded = k})
  /-- Writing undoes decoding. -/
  ofKind_kind : ∀ (v : Value) k, v.Canonical → v.kind = .ok k → ofKind k = v
  /-- Decoding undoes writing, and all NaNs are one. -/
  kind_ofKind : ∀ k, (ofKind k).kind = .ok k.folded
  /-- A double never collides with another tag. -/
  tag_ofDouble : ∀ d, (ofDouble d).tag = .float64
  /-- Every pattern but a reference to nothing decodes. -/
  decodes_iff : ∀ v : Value, (∃ k, v.kind = .ok k) ↔ ¬ v.NullReference
  /-- Every reader answers what the decoding says. -/
  reads : ∀ (v : Value) k, v.kind = .ok k → v.ReadsAs k
  /-- Rebuilding gives a canonical pattern with the same decoding. -/
  rebuilt : ∀ (v : Value) k, v.kind = .ok k → ∃ w, ofTagPayload v.tag v.bits = .ok w ∧ w.Canonical ∧
    w.kind = .ok k.folded ∧ (w = v ↔ v.Canonical) ∧
    ∀ u l, u.Canonical → u.kind = .ok l → l.folded = k.folded → u = w
  /-- Decoding, and every reader that decodes, stops on exactly the references to nothing. A pointer
  behind a guard stops elsewhere too, but for its guard. -/
  stops_iff : ∀ v : Value, (v.NullReference ↔ ∃ e, v.kind = .error e) ∧
    (v.NullReference ↔ ∃ e, v.asNumber? = .error e) ∧
    (∀ t, v.NullReference ↔ ∃ e, v.asPointer? t = .error e) ∧
    (v.NullReference ↔ ∃ t, v.pointerPayload = .error (.nullPointer t))
  /-- There, all other readers answer by the tag. -/
  null_reads : ∀ (v : Value) t, v.tag = .heap t → v.payload = 0 → v.ReadsNull t

/-- **Patterns and kinds are a faithful codec.** -/
theorem value_codec_faithful : FaithfulCodec where
  bijective := kind_bijOn
  ofKind_kind _ _ hv hk := ofKind_of_canonical hv hk
  kind_ofKind := kind_ofKind
  tag_ofDouble := tag_ofDouble
  decodes_iff _ := exists_kind_iff
  reads _ _ h := readsAs_of_kind h
  rebuilt v k h := by
    have hc : (ofKind k).Canonical := ⟨k, rfl⟩
    refine ⟨ofKind k, ofTagPayload_self h, hc, kind_ofKind k, ⟨fun hv => hv ▸ hc, ?_⟩, ?_⟩
    · exact fun hv => ofKind_of_canonical hv h
    · exact fun u l hu hl hlk => eq_of_folded_kind hu hc hl (kind_ofKind k) (by simpa using hlk)
  stops_iff v := by
    refine ⟨nullReference_iff_error (fun k hk => ⟨k, hk⟩) fun _ he => he, ?_, fun t => ?_, ?_⟩
    · refine nullReference_iff_error (fun k hk => ⟨_, asNumber?_of_kind hk⟩) fun e he => ?_
      rw [asNumber?, he]
      rfl
    · refine nullReference_iff_error (fun k hk => ⟨_, asPointer?_of_kind hk t⟩) fun e he => ?_
      rw [asPointer?, he]
      rfl
    · constructor
      · rintro ⟨t, ht, hp⟩
        exact ⟨t, (readsNull_of_payload ht hp).pointerPayload⟩
      · rintro ⟨t, he⟩
        by_contra hn
        obtain ⟨k, hk⟩ := exists_kind_iff.mpr hn
        rw [pointerPayload_of_kind hk] at he
        cases k <;> exact absurd he (by simp [Kind.address?])
  null_reads _ _ ht hp := readsNull_of_payload ht hp

end Value

end TieredVm
