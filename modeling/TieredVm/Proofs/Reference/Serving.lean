import TieredVm.Proofs.Operator.Serving
import TieredVm.Reference.Entries

/-!
# The reference interpreter under a regime

The reference interpreter serves every regime that its heap fits (`Regime.Hosts`): the constants of its
functions and the texts it has made may be stored, and the exception prepared to fail the next entry can
be shown. What its entries compute is a number, a boolean or a new text (`Value.Computed`); what they fail
with is a message of their own, the prepared exception, or what a call they made left pending.

* `tries_entered`, `keeps_observe`, `tries_convert`: the steps of an entry.
* `tries_entry_of_ne`, `tries_unaryValue`: entries that call nothing. They keep also regimes that do not
  admit what operators write on their own.
* `tries_call`, `tries_addEntry`, `keeps_plusWithin`: addition calls functions, and calls nest; by
  induction on how deep.
* `serves_reference`: every entry.
-/

namespace TieredVm

/-- What an entry of the reference interpreter computes. -/
inductive Value.Computed : Value → Prop where
  | scalar {v : Value} (h : v.Scalar) : Value.Computed v
  | text (p : Pointer) : Value.Computed (.ofPointer .string p)

theorem Value.Computed.canonical {v : Value} (h : v.Computed) : v.Canonical := by
  cases h with
  | scalar h => exact h.canonical
  | text p => exact ⟨.heap .string p, rfl⟩

theorem Value.Computed.tag_ne {v : Value} (h : v.Computed) : v.tag ≠ .exception := by
  cases h with
  | scalar h =>
    intro ht
    obtain hv | hv | hv := h.tag <;> rw [ht] at hv <;> cases hv
  | text p =>
    rw [Value.tag_ofPointer]
    nofun

namespace Regime

open Reference

variable {G : Regime State} {α β : Type}

/-! ## The heap -/

/-- What the regime knows of the interpreter's state, and which changes it allows. -/
structure Hosts (G : Regime State) : Prop where
  constants : ∀ s p code v, G.good s → s.bytecode? p = some code → v ∈ code.constants →
    G.fits v ∧ G.Shows v
  texts : ∀ s c v, G.good s → s.categoryTexts c = some v → G.fits v
  prepared : ∀ s e, G.good s → s.failNext = some e → G.Exposes e
  /-- What is taken note of makes no difference, and a failure may be used up. -/
  noted : ∀ s s', G.good s → s'.cells = s.cells → s'.categoryTexts = s.categoryTexts →
    s'.failNext = s.failNext ∨ s'.failNext = none → G.good s'
  allocated : ∀ s t, G.good s → G.good { s with cells := s.cells.push (.text t) }
  interned : ∀ s c p, G.good s → G.good
    { s with categoryTexts := fun d => if d = c then some (.ofPointer .string p) else s.categoryTexts d }

theorem bytecode?_of_cells {s s' : State} (h : s'.cells = s.cells) :
    s'.bytecode? = s.bytecode? := by
  funext p
  unfold State.bytecode? State.cellAt?
  rw [h]

/-- Where nothing is asked of values and states, nothing is asked of the heap. -/
theorem any_hosts {waits : Option Exception → Prop} {compared pardons : Prop}
    (h : compared → pardons) : (any (fun _ => True) waits compared pardons : Regime State).Hosts where
  constants _ _ _ _ _ _ _ := ⟨trivial, fun hc => .inl (h hc)⟩
  texts _ _ _ _ _ := trivial
  prepared _ _ _ _ := fun hc => .inl (h hc)
  noted _ _ _ _ _ _ := trivial
  allocated _ _ _ := trivial
  interned _ _ _ _ := trivial

/-- A new text is no function. -/
theorem bytecode?_push_text (s : State) (t : String) :
    ({ s with cells := s.cells.push (.text t) } : State).bytecode? = s.bytecode? := by
  funext p
  unfold State.bytecode? State.cellAt?
  by_cases haddr : heapBase ≤ p.addr ∧ (p.addr - heapBase) % 16 = 0
  · simp only [if_pos haddr, Array.getElem?_push]
    by_cases hsize : (p.addr - heapBase) / 16 = s.cells.size
    · rw [if_pos hsize, hsize, Array.getElem?_eq_none (Nat.le_refl _)]
    · rw [if_neg hsize]
  · simp only [if_neg haddr]

/-! ## Steps of an entry -/

/-- A conversion that refuses says why in words of its own. -/
def Spoken (x : Converted α) : Prop := ∀ e, x.run = .ok (.error e) → e.dangling = false

theorem Spoken.bind {x : Converted α} {f : α → Converted β} (hx : Spoken x) (hf : ∀ a, Spoken (f a)) :
    Spoken (x >>= f) := by
  intro e h
  rw [ExceptT.run_bind] at h
  cases hr : x.run with
  | error v => rw [hr] at h; cases h
  | ok r =>
    rw [hr] at h
    cases r with
    | error e' => cases h; exact hx e hr
    | ok a => exact hf a e h

theorem spoken_pure (a : α) : Spoken (pure a : Converted α) := fun _ h => by cases h

theorem spoken_lift (x : Except Violation α) : Spoken (x : Converted α) := fun _ h => by
  cases x <;> cases h

theorem spoken_toNumber (s : State) (v : Value) : Spoken (s.toNumber v) := by
  refine (spoken_lift v.kind).bind fun k => ?_
  cases k with
  | heap t p =>
    cases t with
    | string => exact (spoken_lift (s.textOf? v)).bind fun _ => spoken_pure _
    | symbol => exact fun _ h => by cases h; rfl
    | _ => exact spoken_pure _
  | _ => exact spoken_pure _

theorem spoken_toInt32 (s : State) (v : Value) : Spoken (s.toInt32 v) :=
  (spoken_toNumber s v).bind fun _ => spoken_pure _

theorem spoken_looseEqual (s : State) (a b : Value) : Spoken (s.looseEqual a b) := by
  refine (spoken_lift _).bind fun _ => (spoken_lift _).bind fun _ => ?_
  split
  · exact spoken_pure _
  refine (spoken_lift _).bind fun same => ?_
  split
  · exact spoken_lift _
  split
  · exact spoken_pure _
  · exact (spoken_toNumber s a).bind fun _ => (spoken_toNumber s b).bind fun _ => spoken_pure _

theorem keeps_observe (f : State → Except Violation α) : G.Keeps (observe f) fun _ => True :=
  Keeps.get_bind (fun _ => rfl) fun _ _ => keeps_expect fun _ _ => trivial

theorem tries_convert {f : State → Converted α} (hf : ∀ s, Spoken (f s)) :
    G.Tries (convert f) fun _ => True := by
  have hread : G.Keeps (observe fun s => (f s).run) fun r =>
      ∀ e, r = .error e → e.dangling = false :=
    Keeps.get_bind (fun _ => rfl) fun m _ => keeps_expect fun r hr e he => hf m.runtime e (he ▸ hr)
  refine (tries_lift hread).bind fun r hr => ?_
  cases r with
  | ok a => exact tries_pure trivial
  | error e => exact tries_throw fun _ => .inr (hr e rfl)

theorem tries_typeError (message : String) :
    G.Tries (throw (.typeError message) : Attempt State α) fun _ => False :=
  tries_throw fun _ => .inr rfl

theorem tries_answer {n : Nat} (operands : Operands (n + 1)) {v : Value} (h : v.Computed) :
    G.Tries (answer operands v) fun answered => answered.result.Computed :=
  tries_pure (by rw [Operands.result_withResult]; exact h)

theorem tries_boolean {n : Nat} (operands : Operands (n + 1)) (b : Bool) :
    G.Tries (answer operands (.ofBool b)) fun answered => answered.result.Computed :=
  tries_answer operands (.scalar (.bool b))

variable (hG : G.Admits) (hH : G.Hosts)

section

include hH

theorem tries_entered (point : EntryPoint) : G.Tries (entered point) fun _ => True := by
  have hnote : G.KeepsLocal (do
      noteCall point.name
      let s ← get
      set { s with failNext := none }
      return s.failNext) fun prepared => ∀ e, prepared = some e → G.Exposes e := fun s hs =>
    ⟨hH.noted s _ hs rfl rfl (.inr rfl), fun prepared s' h e he => by
      cases h
      exact hH.prepared s e hs he⟩
  refine (tries_lift (keeps_onRuntime hnote)).bind fun prepared hp => ?_
  cases prepared with
  | none => exact tries_pure trivial
  | some e => exact tries_throw (hp e rfl)

theorem keepsLocal_noteCall (name : String) : G.KeepsLocal (noteCall name) fun _ => True :=
  fun s hs => ⟨hH.noted s _ hs rfl rfl (.inl rfl), fun _ _ _ => trivial⟩

theorem keepsLocal_release (v : Value) : G.KeepsLocal (release v) fun _ => True :=
  fun s hs => ⟨hH.noted s _ hs rfl rfl (.inl rfl), fun _ _ _ => trivial⟩

theorem keepsLocal_duplicate {v : Value} (hv : G.fits v) : G.KeepsLocal (duplicate v) G.fits :=
  fun s hs => ⟨hH.noted s _ hs rfl rfl (.inl rfl), fun _ _ h => by cases h; exact hv⟩

omit hH in
theorem keepsLocal_observe (f : State → Except Violation α) :
    G.KeepsLocal (observeLocal f) fun _ => True := KeepsLocal.get_bind fun s hs => by
  cases f s <;> exact ⟨hs, fun _ _ _ => trivial⟩

/-- A new text is referred to by its address. -/
theorem keepsLocal_newText (t : String) :
    G.KeepsLocal (newText t) fun v => ∃ p, v = .ofPointer .string p :=
  KeepsLocal.get_bind fun s hs => by
    cases Pointer.ofAddr? (cellAddress s.cells.size) with
    | none => exact ⟨hs, nofun⟩
    | some p => exact ⟨hH.allocated s t hs, fun _ _ h => by cases h; exact ⟨p, rfl⟩⟩

theorem tries_joinOrAdd (a b : Value) : G.Tries (joinOrAdd a b) Value.Computed := by
  unfold joinOrAdd
  split
  · refine (tries_lift (keeps_observe _)).bind fun _ _ => (tries_lift (keeps_observe _)).bind
      fun _ _ => tries_lift ((keeps_onRuntime (keepsLocal_newText hH _)).mono fun v hv => ?_)
    obtain ⟨p, rfl⟩ := hv
    exact .text p
  · exact (tries_convert fun s => spoken_toNumber s a).bind fun _ _ =>
      (tries_convert fun s => spoken_toNumber s b).bind fun _ _ =>
        tries_pure (.scalar (Value.scalar_number _))

end

/-! ## Entries that call nothing -/

theorem tries_orderOf (x y : Value) : G.Tries (orderOf x y) fun _ => True := by
  refine (tries_lift (keeps_observe _)).bind fun left _ =>
    (tries_lift (keeps_observe _)).bind fun right _ => ?_
  have hnumbers : G.Tries (do
      let a ← convert (·.toNumber x)
      let b ← convert (·.toNumber y)
      return a.compare? b : Attempt State (Option Ordering)) fun _ => True :=
    (tries_convert fun s => spoken_toNumber s x).bind fun _ _ =>
      (tries_convert fun s => spoken_toNumber s y).bind fun _ _ => tries_pure trivial
  cases left with
  | none => exact hnumbers
  | some a =>
    cases right with
    | none => exact hnumbers
    | some b => exact tries_pure trivial

theorem tries_unaryValue (op : UnaryOp) (x : Value) : G.Tries (unaryValue x op) Value.Computed := by
  have hnumber : ∀ f : Double → Double, G.Tries (do
      return .number (f (← convert (·.toNumber x))) : Attempt State Value) Value.Computed := fun f =>
    (tries_convert fun s => spoken_toNumber s x).bind fun _ _ =>
      tries_pure (.scalar (Value.scalar_number _))
  cases op with
  | bitNot =>
    exact (tries_convert fun s => spoken_toInt32 s x).bind fun _ _ => tries_pure (.scalar (.int _))
  | neg => exact hnumber Double.neg
  | plus => exact hnumber id
  | inc => exact hnumber (·.add (Double.ofInt 1))
  | dec => exact hnumber (·.sub (Double.ofInt 1))

section

include hH

theorem tries_unary (op : UnaryOp) (operands : Operands 1) :
    G.Tries (unary op operands) fun answered => answered.result.Computed :=
  (tries_entered hH _).bind fun _ _ => (tries_unaryValue op _).bind fun _ h => tries_answer _ h

theorem tries_instanceOf (operands : Operands 2) :
    G.Tries (instanceOf operands) fun answered => answered.result.Computed := by
  refine (tries_entered hH _).bind fun _ _ =>
    (tries_lift (keeps_expect (p := fun _ => True) fun _ _ => trivial)).bind fun maker _ =>
      Tries.get_bind (fun _ => rfl) fun m _ => ?_
  have hmade : ∀ test : Option Pointer → Machine State → Bool,
      (∀ made m, test made m.silent = test made m) → G.Tries (do
        let made ← Attempt.lift <| Run.expect (operands.lhs.asPointer? (.heap .object))
        let m ← get
        answer operands (.ofBool (test made m)) : Attempt State (Operands 2)) fun answered =>
          answered.result.Computed := fun test htest =>
    (tries_lift (keeps_expect (p := fun _ => True) fun _ _ => trivial)).bind fun made _ =>
      Tries.get_bind (fun m => by rw [htest made m]) fun _ _ => tries_boolean _ _
  dsimp only
  split
  · exact (tries_typeError _).bind fun _ _ => hmade _ fun _ _ => rfl
  · exact hmade _ fun _ _ => rfl

theorem tries_contains (operands : Operands 2) :
    G.Tries (contains operands) fun answered => answered.result.Computed := by
  refine (tries_entered hH _).bind fun _ _ => (tries_lift (keeps_observe _)).bind fun key _ =>
    (tries_lift (keeps_expect (p := fun _ => True) fun _ _ => trivial)).bind fun holder _ =>
      Tries.get_bind (fun _ => rfl) fun m _ => ?_
  split
  · exact tries_boolean _ _
  · exact tries_boolean _ _
  · exact tries_throw fun _ => .inr rfl

/-- Every binary entry but addition keeps the regime. -/
theorem tries_entry_of_ne (power : Double → Double → Double) {op : BinaryOp} (hop : op ≠ .add)
    (operands : Operands 2) :
    G.Tries (op.entry (interpreterWith power) operands) fun answered => answered.result.Computed := by
  cases op with
  | add => exact absurd rfl hop
  | arith op =>
    exact (tries_entered hH _).bind fun _ _ => (tries_convert fun s => spoken_toNumber s _).bind
      fun _ _ => (tries_convert fun s => spoken_toNumber s _).bind fun _ _ =>
        tries_answer _ (.scalar (Value.scalar_number _))
  | logic op =>
    exact (tries_entered hH _).bind fun _ _ => (tries_convert fun s => spoken_toInt32 s _).bind
      fun _ _ => (tries_convert fun s => spoken_toInt32 s _).bind fun _ _ =>
        tries_answer _ (.scalar (.int _))
  | shr =>
    exact (tries_entered hH _).bind fun _ _ => (tries_convert fun s => spoken_toInt32 s _).bind
      fun _ _ => (tries_convert fun s => spoken_toInt32 s _).bind fun _ _ =>
        tries_answer _ (.scalar (Value.scalar_number _))
  | relational op =>
    exact (tries_entered hH _).bind fun _ _ => (tries_orderOf _ _).bind fun _ _ =>
      tries_boolean _ _
  | equal n =>
    exact (tries_entered hH _).bind fun _ _ => (tries_convert fun s => spoken_looseEqual s _ _).bind
      fun _ _ => tries_boolean _ _
  | strictEqual n =>
    exact (tries_entered hH _).bind fun _ _ => (tries_lift (keeps_observe _)).bind fun _ _ =>
      tries_boolean _ _
  | instanceOf => exact tries_instanceOf hH operands
  | contains => exact tries_contains hH operands

end

section

include hG

theorem Admits.computed {v : Value} (h : v.Computed) : G.fits v := hG.canonical v h.canonical

include hH

/-- The text of a category was made before, or it is made and kept. -/
theorem keepsLocal_categoryText (c : Category) : G.KeepsLocal (categoryText c) G.fits :=
  KeepsLocal.get_bind fun s hs => by
    cases hc : s.categoryTexts c with
    | some v => exact ⟨hs, fun _ _ h => by cases h; exact hH.texts s c v hs hc⟩
    | none =>
      refine ((keepsLocal_newText hH c.label).bind fun v hv => ?_ : G.KeepsLocal _ G.fits) s hs
      have hkeep : G.KeepsLocal (modify fun s : State => { s with
          categoryTexts := fun d => if d = c then some v else s.categoryTexts d }) fun _ => True := by
        obtain ⟨p, rfl⟩ := hv
        exact fun s hs => ⟨hH.interned s c p hs, fun _ _ _ => trivial⟩
      refine hkeep.bind fun _ _ => fun s hs => ⟨hs, fun _ _ h => ?_⟩
      obtain ⟨p, rfl⟩ := hv
      cases h
      exact hG.computed (.text p)

/-! ## Addition -/

variable {plus : Value → Value → Run State Value}
  (hplus : ∀ x y, G.fits x → G.fits y → G.Shows x → G.Shows y → G.Keeps (plus x y) G.fits)

include hplus

theorem tries_call {function : Value} (hf : G.fits function) :
    G.Tries (call plus function) G.fits := by
  have hknows : G.Knows objectModel := fun s p code v hs hcode hv => hH.constants s p code v hs hcode hv
  refine (tries_lift (p := G.fits) ?_).bind fun sum hsum => ?_
  · exact keeps_newFrame.bind fun frame _ => (keeps_enterHeld objectModel _ hf _ _).bind fun _ _ =>
      (keeps_setPcHeld objectModel hknows _ _).bind fun _ _ =>
      (keeps_constantOf objectModel hknows function 0).bind fun a ha =>
      (keeps_constantOf objectModel hknows function 1).bind fun b hb =>
      (hplus a b ha.1 hb.1 ha.2 hb.2).bind fun sum hsum => (keeps_trace objectModel).bind fun _ _ =>
      (keeps_onRuntime (p := fun _ => True) fun s hs =>
        ⟨hH.noted s _ hs rfl rfl (.inl rfl), fun _ _ _ => trivial⟩).bind fun _ _ =>
      (keeps_exit _).bind fun _ _ => keeps_pure hsum
  · dsimp only
    split
    · refine (tries_lift (keeps_takePending hG)).bind fun pending hp => ?_
      cases pending with
      | none => exact (tries_typeError _).bind fun _ h => h.elim
      | some e => exact (tries_throw (p := fun _ => False) (hp e rfl)).bind fun _ h => h.elim
    · exact tries_pure hsum

theorem tries_operandValue {v : Value} (hv : G.fits v) :
    G.Tries (operandValue plus v) G.fits := by
  refine (tries_lift (keeps_expect (p := fun _ => True) fun _ _ => trivial)).bind fun p _ =>
    Tries.get_bind (fun _ => rfl) fun m _ => ?_
  split
  · exact tries_call hG hH hplus hv
  · exact tries_pure hv

theorem tries_addEntry (operands : Operands 2) (hl : G.fits operands.lhs) (hr : G.fits operands.rhs) :
    G.Tries (addEntry plus operands) fun answered => G.fits answered.result :=
  (tries_entered hH _).bind fun _ _ => (tries_operandValue hG hH hplus hl).bind fun _ _ =>
    (tries_operandValue hG hH hplus hr).bind fun _ _ => (tries_joinOrAdd hH _ _).bind fun _ h =>
      (tries_answer _ h).mono fun _ => hG.computed

end

section

include hG hH

theorem keeps_plusWithin : ∀ (depth : Nat) (x y : Value), G.fits x → G.fits y → G.Shows x →
    G.Shows y → G.Keeps (plusWithin depth x y) G.fits
  | 0, x, y, _, _, _, _ => by
    unfold plusWithin
    cases h : BinaryOp.add.inline? x y with
    | some v => exact keeps_pure (hG.binary_inline h)
    | none => exact keeps_throw _
  | depth + 1, x, y, hx, hy, hsx, hsy => by
    unfold plusWithin
    cases h : BinaryOp.add.inline? x y with
    | some v => exact keeps_pure (hG.binary_inline h)
    | none =>
      refine keeps_handOff hG _ (fun v hv => ?_)
        (tries_addEntry hG hH (keeps_plusWithin depth) (.pair x y) hx hy)
      obtain rfl | hv := List.mem_cons.mp hv
      · exact hsx
      · obtain rfl := List.mem_singleton.mp hv
        exact hsy

theorem tries_add (operands : Operands 2) (hl : G.fits operands.lhs) (hr : G.fits operands.rhs) :
    G.Tries (add operands) fun answered => G.fits answered.result :=
  Tries.get_bind (fun _ => rfl) fun _ _ => tries_addEntry hG hH (keeps_plusWithin hG hH _) operands hl hr

/-! ## All entries -/

/-- **The reference interpreter serves every regime that its heap fits.** -/
theorem serves_reference (power : Double → Double → Double) : G.Serves (interpreterWith power) where
  knows s p code v hs hcode hv := hH.constants s p code v hs hcode hv
  duplicate _ hv := keepsLocal_duplicate hH hv
  binary op x y hx hy := by
    by_cases hop : op = .add
    · subst hop
      exact tries_add hG hH (.pair x y) hx hy
    · exact (tries_entry_of_ne hH power hop (.pair x y)).mono fun _ => hG.computed
  unary op _ _ := (tries_unary hH op _).mono fun _ => hG.computed
  truth x _ := (keepsLocal_noteCall hH _).bind fun _ _ => (keepsLocal_observe _).bind fun _ _ =>
    (keepsLocal_release hH x).bind fun _ _ => fun _ hs => ⟨hs, fun _ _ _ => trivial⟩
  category _ _ := (keepsLocal_noteCall hH _).bind fun _ _ => keepsLocal_observe _
  release x _ := keepsLocal_release hH x
  categoryText c := keepsLocal_categoryText hG hH c

end

end Regime

end TieredVm
