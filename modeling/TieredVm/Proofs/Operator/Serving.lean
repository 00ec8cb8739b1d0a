import TieredVm.Proofs.Regime
import TieredVm.Recording

/-!
# Operators under a regime

An interpreter serves a regime (`Regime.Serves`) when its entries keep it: an operator's entry with
operands that fit answers with a result that fits, or fails with an exception that can be shown. The
operators then keep the regime too, whether they answer inline or hand off, as long as the regime admits
what they write on their own (`Regime.Admits`). What has no entry asks only that the interpreter attends to
the regime (`Regime.Attends`).

* `Tries`, `Tries.bind`: attempts under a regime. Nothing is asked of an attempt that fails but that its
  exception can be shown.
* `keeps_raise`, `keeps_takePending`: the pending exception.
* `keeps_binary`, `keeps_unaryOp`, `keeps_toBool`, `keeps_logicalNot`, `keeps_typeOf`: the operators.
* `serves_recording`: the recording interpreter serves every regime that takes its state as it is.
-/

namespace TieredVm.Regime

variable {R α β : Type} {G : Regime R} {p : α → Prop} {q : β → Prop}

/-! ## Attempts -/

/-- The attempt keeps the regime, and an exception it fails with can be shown. -/
def Tries (G : Regime R) (x : Attempt R α) (post : α → Prop) : Prop :=
  G.Keeps x.run fun r => (∀ a, r = .ok a → post a) ∧ ∀ e, r = .error e → G.Exposes e

theorem tries_pure {a : α} (h : p a) : G.Tries (pure a : Attempt R α) p :=
  keeps_pure ⟨fun _ ha => by cases ha; exact h, nofun⟩

theorem tries_throw {e : Exception} (h : G.Exposes e) : G.Tries (throw e : Attempt R α) p :=
  keeps_pure ⟨nofun, fun _ he => by cases he; exact h⟩

theorem tries_lift {act : Run R α} (h : G.Keeps act p) : G.Tries (Attempt.lift act) p := by
  show G.Keeps (Except.ok <$> act) _
  rw [← bind_pure_comp]
  exact h.bind fun a ha => keeps_pure ⟨fun _ h => by cases h; exact ha, nofun⟩

theorem Tries.bind {x : Attempt R α} {f : α → Attempt R β} (hx : G.Tries x p)
    (hf : ∀ a, p a → G.Tries (f a) q) : G.Tries (x >>= f) q := by
  show G.Keeps (x >>= f).run _
  rw [ExceptT.run_bind]
  refine Keeps.bind hx fun r hr => ?_
  cases r with
  | ok a => exact hf a (hr.1 a rfl)
  | error e => exact keeps_pure ⟨nofun, fun _ he => by cases he; exact hr.2 e rfl⟩

theorem Tries.mono {p' : α → Prop} {x : Attempt R α} (h : G.Tries x p) (hp : ∀ a, p a → p' a) :
    G.Tries x p' := Keeps.mono h fun _ hr => ⟨fun a ha => hp a (hr.1 a ha), hr.2⟩

theorem Tries.get_bind {f : Machine R → Attempt R β} (hread : ∀ m, f m.silent = f m)
    (hf : ∀ m, G.Holds m → G.Tries (f m) q) : G.Tries (get >>= f) q := fun m hm => by
  show G.Ends ((f m).run m) ((f m.silent).run m.silent) _
  rw [hread m]
  exact hf m hm m hm

/-! ## What operators need -/

/-- The regime admits what operators write on their own. -/
structure Admits (G : Regime R) : Prop where
  canonical : ∀ v : Value, v.Canonical → G.fits v
  /-- An exception that can be shown may be pending, -/
  parked : ∀ e, G.Exposes e → G.waits (some e)
  /-- and what is pending can be shown. -/
  held : ∀ e, G.waits (some e) → G.Exposes e
  taken : G.waits none

/-- What the interpreter does on its own state keeps the regime. -/
structure Attends (G : Regime R) (I : Interpreter R) : Prop where
  knows : G.Knows I.toObjectModel
  duplicate : ∀ v, G.fits v → G.KeepsLocal (I.duplicate v) G.fits
  truth : ∀ x, G.fits x → G.KeepsLocal (I.truth x) fun _ => True
  category : ∀ x, G.fits x → G.KeepsLocal (I.category x) fun _ => True
  release : ∀ x, G.fits x → G.KeepsLocal (I.release x) fun _ => True
  categoryText : ∀ c, G.KeepsLocal (I.categoryText c) G.fits

/-- The interpreter's entries keep the regime, too. -/
structure Serves (G : Regime R) (I : Interpreter R) : Prop extends G.Attends I where
  binary : ∀ (op : BinaryOp) x y, G.fits x → G.fits y →
    G.Tries (op.entry I (.pair x y)) fun answered => G.fits answered.result
  unary : ∀ op x, G.fits x → G.Tries (I.unary op (.single x)) fun answered => G.fits answered.result

theorem Admits.ofBool (hG : G.Admits) (b : Bool) : G.fits (.ofBool b) :=
  hG.canonical _ ⟨.bool b, rfl⟩

theorem Admits.exception (hG : G.Admits) : G.fits .exception := hG.canonical _ ⟨.exception, rfl⟩

/-! ## The pending exception -/

theorem keeps_raise (hG : G.Admits) {e : Exception} (he : G.Exposes e) :
    G.Keeps (Machine.raise e : Run R Value) G.fits := by
  refine (keeps_emit fun hc => ?_).bind fun _ _ => (keeps_modify
    (f := fun m => { m with pending := some e }) (fun _ => rfl) fun _ hm =>
      hm.withPending (hG.parked e he)).bind fun _ _ => keeps_pure hG.exception
  refine (he hc).imp_right fun hd => ?_
  obtain ⟨s, hs⟩ := Exception.report_of_shown hd
  exact ⟨_, by rw [Event.line, hs]; rfl⟩

theorem keeps_takePending (hG : G.Admits) :
    G.Keeps (Machine.takePending : Run R (Option Exception)) fun o => ∀ e, o = some e → G.Exposes e :=
  keeps_step (fun _ => rfl) (fun _ => rfl) (fun _ => rfl)
    (fun _ hm e he => hG.held e (he ▸ hm.waits)) fun _ hm => hm.withPending hG.taken

/-! ## Operators -/

/-- A hand-off shows its operands, and raises what the entry fails with. -/
theorem keeps_handOff (hG : G.Admits) {n : Nat} (label : String) {entry : Entry R (n + 1)}
    {operands : Operands (n + 1)} (hshow : ∀ v ∈ operands.toList, G.Shows v)
    (h : G.Tries (entry operands) fun answered => G.fits answered.result) :
    G.Keeps (handOff label entry operands) G.fits := by
  refine (keeps_emit fun hc => ?_).bind fun _ _ => Keeps.bind h fun r hr => ?_
  · by_cases hp : G.pardons
    · exact .inl hp
    have hany : operands.toList.any Value.dangling = false := List.any_eq_false.mpr fun v hv => by
      rw [(hshow v hv hc).resolve_left hp]
      exact Bool.false_ne_true
    obtain ⟨ss, hs⟩ := Value.mapM_text_of_shown hany
    exact .inr ⟨_, by rw [Event.line, Value.listText, hs]; rfl⟩
  · cases r with
    | ok answered => exact keeps_pure (hr.1 answered rfl)
    | error e => exact keeps_raise hG (hr.2 e rfl)

section

variable (hG : G.Admits) {I : Interpreter R} {x y : Value}

include hG

/-- What an operator answers inline is admitted. -/
theorem Admits.binary_inline {op : BinaryOp} {v : Value} (h : op.inline? x y = some v) :
    G.fits v := by
  by_cases hzero : op.IntRemainderByZero x y
  · rw [BinaryOp.inline?_of_intRemainderByZero hzero] at h
    cases h
    exact hG.exception
  · exact hG.canonical v (BinaryOp.scalar_of_inline h hzero).canonical

theorem Admits.unary_inline {op : UnaryOp} {v : Value} (hx : G.fits x) (h : op.inline? x = some v) :
    G.fits v := by
  by_cases hop : op = .plus
  · subst hop
    rw [(UnaryOp.inline?_plus h).1]
    exact hx
  · exact hG.canonical v (UnaryOp.scalar_of_inline hop h).canonical

theorem keeps_binary (hI : G.Serves I) (op : BinaryOp) (hx : G.fits x) (hy : G.fits y)
    (hshow : ∀ v ∈ [x, y], G.Shows v) : G.Keeps (I.binary op x y) G.fits := by
  unfold Interpreter.binary
  cases h : op.inline? x y with
  | some v => exact keeps_pure (hG.binary_inline h)
  | none => exact keeps_handOff hG op.label hshow (hI.binary op x y hx hy)

theorem keeps_unaryOp (hI : G.Serves I) (op : UnaryOp) (hx : G.fits x) (hshow : G.Shows x) :
    G.Keeps (I.unaryOp op x) G.fits := by
  unfold Interpreter.unaryOp
  cases h : op.inline? x with
  | some v => exact keeps_pure (hG.unary_inline hx h)
  | none =>
    refine keeps_handOff hG op.label (fun v hv => ?_) (hI.unary op x hx)
    obtain rfl := List.mem_singleton.mp hv
    exact hshow

end

section

variable {I : Interpreter R} {x : Value} (hI : G.Attends I)

include hI

theorem keeps_toBool (hx : G.fits x) : G.Keeps (I.toBool x) fun _ => True := by
  unfold Interpreter.toBool
  cases x.small? with
  | some payload => exact keeps_pure trivial
  | none => exact keeps_onRuntime (hI.truth x hx)

theorem keeps_logicalNot (hbool : ∀ b, G.fits (.ofBool b)) (hx : G.fits x) :
    G.Keeps (I.logicalNot x) G.fits := by
  unfold Interpreter.logicalNot
  cases x.asBool? with
  | some b => exact keeps_pure (hbool !b)
  | none => exact (keeps_toBool hI hx).bind fun b _ => keeps_pure (hbool !b)

theorem keeps_typeOf (hx : G.fits x) : G.Keeps (I.typeOf x) G.fits :=
  keeps_onRuntime <| (hI.category x hx).bind fun c _ => (hI.release x hx).bind fun _ _ =>
    hI.categoryText c

end

/-! ## The recording interpreter -/

/-- The recording interpreter answers with one marker, and writes down its calls. -/
theorem serves_recording {G : Regime Recording.State} (hG : G.Admits) (hgood : ∀ s, G.good s) :
    G.Serves Recording.interpreter := by
  have hmarker : G.fits Recording.marker := hG.canonical _ ⟨.uninitialized, rfl⟩
  have hlocal : ∀ {α : Type} (act : Local Recording.State α), G.KeepsLocal act fun _ => True :=
    fun act s _ => ⟨hgood _, fun _ _ _ => trivial⟩
  have hentry : ∀ {n : Nat} (point : EntryPoint) (operands : Operands (n + 1)),
      G.Tries (Recording.entry point operands) fun answered => G.fits answered.result :=
    fun point operands => (tries_lift (keeps_onRuntime (hlocal _))).bind fun _ _ =>
      tries_pure (by rw [Operands.result_withResult]; exact hmarker)
  exact {
    knows := fun _ _ _ _ _ h => absurd h nofun
    duplicate := fun v hv s hs => ⟨hs, fun _ _ h => by cases h; exact hv⟩
    binary := fun op _ _ _ _ => by cases op <;> exact hentry _ _
    unary := fun op _ _ => hentry _ _
    truth := fun _ _ => hlocal _
    category := fun _ _ => hlocal _
    release := fun _ _ => hlocal _
    categoryText := fun c => (hlocal _).bind fun _ _ => fun s hs =>
      ⟨hs, fun _ _ h => by cases h; exact hmarker⟩ }

end TieredVm.Regime
