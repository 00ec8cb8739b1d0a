import TieredVm.Proofs.Operator.Storage
import TieredVm.Proofs.History
import TieredVm.Proofs.Reference.Serving

/-!
# The sentinel and the pending exception

An operator answers the error sentinel for one of two reasons: the remainder of two integers by zero,
which leaves what is pending alone, or the failure of the entry that it handed its operands to, whose
exception is pending afterwards. Any other answer leaves what is pending alone, also when functions were
called on the way and additions ran inside them: their failures fail the outer addition.

So what is pending is what the last failing operator failed with or what was raised last, unless it was
taken since.

* `Request.failure?`, `Request.settled?`: what a request fails with, and what it leaves pending if it
  decides that.
* `Run.Spares`, `Attempt.Spares`: operations that leave what is pending as it was when they go through.
* `spares_plusWithin`: nested additions do; by induction on how deep they nest.
* `pending_in_step`: one operator, and whole runs.
-/

namespace TieredVm

variable {R α β : Type}

/-! ## Failures -/

section

variable {n : Nat} (label : String) (entry : Entry R (n + 1)) (operands : Operands (n + 1))
  (m : Machine R)

/-- What the entry fails with that operands are handed to. -/
def handedFailure? : Option Exception :=
  match (entry operands).run (Result.state (Run.emit (.slowPath label operands.toList) m)) with
  | .ok (.error e) _ => some e
  | _ => none

/-- The same, where operands are handed over only if there is no inline answer. -/
def slowFailure? : Option Value → Option Exception
  | some _ => none
  | none => handedFailure? label entry operands m

theorem pending_emit (e : Event) : (Result.state (Run.emit e m)).pending = m.pending := by
  obtain ⟨line, hl⟩ | ⟨t, ht⟩ := e.line_cases
  · rw [Run.emit_of_line hl]
    rfl
  · rw [Run.emit_of_error ht]
    split <;> rfl

variable {label entry operands m} {v : Value} {m' : Machine R}

/-- A raised exception is pending. -/
theorem Machine.raise_cases {e : Exception} (h : raise e m = .ok v m') :
    v = .exception ∧ m'.pending = some e := by
  obtain ⟨-, n, -, h⟩ := Run.ok_of_bind h
  cases h
  exact ⟨rfl, rfl⟩

/-- A hand-off that goes through gives what its entry answers, or raises what it fails with. -/
theorem handOff_cases (h : handOff label entry operands m = .ok v m') :
    (handedFailure? label entry operands m = none ∧ ∃ answered n, n.pending = m.pending ∧
      (entry operands).run n = .ok (.ok answered) m' ∧ v = answered.result) ∨
    ∃ e, handedFailure? label entry operands m = some e ∧ v = .exception ∧ m'.pending = some e := by
  obtain ⟨⟨⟩, n, hemit, h⟩ := Run.ok_of_bind h
  have hn : Result.state (Run.emit (.slowPath label operands.toList) m) = n := by rw [hemit]; rfl
  have hpending : n.pending = m.pending := by rw [← hn, pending_emit]
  obtain ⟨r, n', hentry, h⟩ := Run.ok_of_bind h
  unfold handedFailure?
  rw [hn, hentry]
  cases r with
  | ok answered =>
    cases h
    exact .inl ⟨rfl, answered, n, hpending, hentry, rfl⟩
  | error e =>
    obtain ⟨hv, hm'⟩ := Machine.raise_cases h
    exact .inr ⟨e, rfl, hv, hm'⟩

end

theorem logicalNot_cases {I : Interpreter R} {x v : Value} {m m' : Machine R}
    (h : I.logicalNot x m = .ok v m') : ∃ b, v = .ofBool b := by
  unfold Interpreter.logicalNot at h
  cases hb : x.asBool? with
  | some b =>
    rw [hb] at h
    cases h
    exact ⟨_, rfl⟩
  | none =>
    rw [hb] at h
    obtain ⟨b, n, -, h⟩ := Run.ok_of_bind h
    cases h
    exact ⟨_, rfl⟩

namespace Request

variable (I : Interpreter R) (m : Machine R)

/-- The exception that a request's entry fails with, where the request is handed to one. -/
def failure? : Request R → Option Exception
  | binary op x y => slowFailure? op.label (op.entry I) (.pair x y) m (op.inline? x y)
  | unary op x => slowFailure? op.label (I.unary op) (.single x) m (op.inline? x)
  | _ => none

/-- Is this the remainder of two integers by zero? -/
def RemainderByZero : Request R → Prop
  | binary op x y => op.IntRemainderByZero x y
  | _ => False

/-- What a request leaves pending, if it decides that. -/
def settled? : Request R → Option (Option Exception)
  | raise e => some (some e)
  | takePending => some none
  | r => (r.failure? I m).map some

/-- The sentinel and the pending exception are in step when an operator answers. -/
structure InStep (r : Request R) : Prop where
  /-- It answers the sentinel for one of two reasons; -/
  sentinel : ∀ a m', r.perform I m = .ok a m' →
    ((∃ v ∈ a.values, v.tag = .exception) ↔ r.RemainderByZero ∨ (r.failure? I m).isSome)
  /-- for the first, what is pending is left alone, -/
  untouched : ∀ a m', r.perform I m = .ok a m' → r.RemainderByZero → m'.pending = m.pending
  /-- for the second, the failure is pending, -/
  parked : ∀ a m' e, r.perform I m = .ok a m' → r.failure? I m = some e → m'.pending = some e
  /-- and without a sentinel nothing changes. -/
  spared : ∀ a m', r.perform I m = .ok a m' → (∀ v ∈ a.values, v.tag ≠ .exception) →
    m'.pending = m.pending

end Request

/-! ## Operations that leave what is pending alone -/

/-- Nothing is asked but that one thing is pending. -/
abbrev Regime.untaken (R : Type) (pending : Option Exception) : Regime R :=
  Regime.any (fun _ => True) (· = pending) False False

theorem Regime.untaken_holds (m : Machine R) : (Regime.untaken R m.pending).Holds m :=
  any_holds trivial rfl

theorem Regime.untaken_attends (pending : Option Exception) (I : Interpreter R) :
    (Regime.untaken R pending).Attends I where
  knows _ _ _ _ _ _ _ := ⟨trivial, False.elim⟩
  duplicate _ _ _ _ := ⟨trivial, fun _ _ _ => trivial⟩
  truth _ _ _ _ := ⟨trivial, fun _ _ _ => trivial⟩
  category _ _ _ _ := ⟨trivial, fun _ _ _ => trivial⟩
  release _ _ _ _ := ⟨trivial, fun _ _ _ => trivial⟩
  categoryText _ _ _ := ⟨trivial, fun _ _ _ => trivial⟩

/-- What keeps every regime of this kind leaves what is pending alone, however it ends. -/
theorem Regime.pending_of_keeps {x : Run R α} {p : Option Exception → α → Prop}
    (h : ∀ pending, (Regime.untaken R pending).Keeps x (p pending)) (m : Machine R) :
    (Result.state (x m)).pending = m.pending :=
  (h m.pending m (untaken_holds m)).holds.waits

namespace Run

/-- The operation leaves what is pending as it was when its answer meets a condition. -/
def Spares (x : Run R α) (q : α → Prop) : Prop :=
  ∀ m a m', x m = .ok a m' → q a → m'.pending = m.pending

variable {x : Run R α} {f : α → Run R β} {p : Option Exception → α → Prop} {q : α → Prop}
  {q' : β → Prop}

theorem spares_of_keeps (h : ∀ pending, (Regime.untaken R pending).Keeps x (p pending)) :
    Spares x q := by
  intro m a m' hm _
  have hp := Regime.pending_of_keeps h m
  rw [hm] at hp
  exact hp

theorem Spares.bind (hx : Spares x fun _ => True) (hf : ∀ a, Spares (f a) q') : Spares (x >>= f) q' := by
  intro m b m' h hb
  obtain ⟨a, n, hn, h⟩ := ok_of_bind h
  exact (hf a n b m' h hb).trans (hx m a n hn trivial)

/-- What an operation answers may be answered later. -/
theorem Spares.finally {f : α → Run R α} (hx : Spares x q)
    (hf : ∀ a pending, (Regime.untaken R pending).Keeps (f a) (· = a)) : Spares (x >>= f) q := by
  intro m b m' h hb
  obtain ⟨a, n, hn, h⟩ := ok_of_bind h
  have hn' := hf a n.pending n (Regime.untaken_holds n)
  obtain rfl := hn'.answered b m' h
  exact (spares_of_keeps (q := fun _ => True) (hf b) n b m' h trivial).trans (hx m b n hn hb)

end Run

namespace Attempt

/-- The attempt leaves what is pending as it was when it succeeds. -/
def Spares (x : Attempt R α) (p : α → Prop) : Prop :=
  ∀ m a m', x.run m = .ok (.ok a) m' → m'.pending = m.pending ∧ p a

variable {x : Attempt R α} {f : α → Attempt R β} {p : α → Prop} {q : β → Prop}

theorem spares_of_tries (h : ∀ pending, (Regime.untaken R pending).Tries x p) : Spares x p := by
  intro m a m' hm
  exact ⟨Run.spares_of_keeps (q := fun _ => True) (x := x.run) h m _ m' hm trivial,
    ((h m.pending m (Regime.untaken_holds m)).answered _ m' hm).1 a rfl⟩

theorem Spares.bind (hx : Spares x p) (hf : ∀ a, p a → Spares (f a) q) : Spares (x >>= f) q := by
  intro m b m' h
  rw [ExceptT.run_bind] at h
  obtain ⟨r, n, hn, h⟩ := Run.ok_of_bind h
  cases r with
  | ok a =>
    obtain ⟨hpending, ha⟩ := hx m a n hn
    obtain ⟨hpending', hb⟩ := hf a ha n b m' h
    exact ⟨hpending'.trans hpending, hb⟩
  | error e => cases h

theorem run_get_bind (f : Machine R → Attempt R β) (m : Machine R) :
    (get >>= f : Attempt R β).run m = (f m).run m := rfl

theorem lift_cases {act : Run R α} {m m' : Machine R} {r : Except Exception α}
    (h : (lift act).run m = .ok r m') : ∃ a, r = .ok a ∧ act m = .ok a m' := by
  change EStateM.map _ act m = _ at h
  rw [EStateM.map] at h
  cases ha : act m with
  | ok a n =>
    rw [ha] at h
    cases h
    exact ⟨a, rfl, rfl⟩
  | error s n => rw [ha] at h; cases h

end Attempt

/-! ## Additions -/

namespace Reference

open Regime

/-- A call leaves what is pending alone if it succeeds and the addition it makes does if it succeeds. -/
theorem spares_call {plus : Value → Value → Run State Value}
    (hplus : ∀ a b, (plus a b).Spares (·.isException = false)) (function : Value) :
    (call plus function).Spares fun _ => True := by
  have hknows : ∀ pending, (untaken State pending).Knows objectModel :=
    fun _ _ _ _ _ _ _ _ => ⟨trivial, False.elim⟩
  intro m v m' h
  rw [call, ExceptT.run_bind] at h
  obtain ⟨r, n, hn, h⟩ := Run.ok_of_bind h
  obtain ⟨sum, rfl, hsum⟩ := Attempt.lift_cases hn
  dsimp only at h
  -- A failed addition makes the call fail, so a call that succeeds did not take what was pending.
  cases he : sum.isException with
  | true =>
    rw [he, if_pos rfl] at h
    have htake : (Attempt.lift Machine.takePending).run n =
        .ok (.ok n.pending) { n with pending := none } := rfl
    rw [Attempt.bind_of_ok htake] at h
    cases hp : n.pending <;> rw [hp] at h <;> cases h
  | false =>
    rw [he, if_neg Bool.false_ne_true] at h
    cases h
    refine ⟨(?_ : Run.Spares _ (·.isException = false)) m v m' hsum he, trivial⟩
    exact Run.Spares.bind (Run.spares_of_keeps fun _ => keeps_newFrame) fun frame =>
      Run.Spares.bind (Run.spares_of_keeps fun _ => keeps_enterHeld objectModel _ trivial _ _) fun _ =>
      Run.Spares.bind (Run.spares_of_keeps fun p => keeps_setPcHeld objectModel (hknows p) _ _) fun _ =>
      Run.Spares.bind (Run.spares_of_keeps fun p => keeps_constantOf objectModel (hknows p) _ _) fun a =>
      Run.Spares.bind (Run.spares_of_keeps fun p => keeps_constantOf objectModel (hknows p) _ _) fun b =>
      (hplus a b).finally fun sum _ => (keeps_trace objectModel).bind fun _ _ =>
        (keeps_onRuntime (p := fun _ => True) fun _ _ => ⟨trivial, fun _ _ _ => trivial⟩).bind fun _ _ =>
        (keeps_exit _).bind fun _ _ => keeps_pure rfl

theorem spares_operandValue {plus : Value → Value → Run State Value}
    (hplus : ∀ a b, (plus a b).Spares (·.isException = false)) (v : Value) :
    (operandValue plus v).Spares fun _ => True := by
  refine Attempt.Spares.bind (Attempt.spares_of_tries (p := fun _ => True) fun _ =>
    tries_lift (keeps_expect fun _ _ => trivial)) fun p _ => ?_
  intro m w m' h
  rw [Attempt.run_get_bind] at h
  split at h
  · exact spares_call hplus v m w m' h
  · cases h
    exact ⟨rfl, trivial⟩

theorem spares_addEntry {plus : Value → Value → Run State Value}
    (hplus : ∀ a b, (plus a b).Spares (·.isException = false)) (operands : Operands 2) :
    (addEntry plus operands).Spares fun answered => answered.result.Computed :=
  Attempt.Spares.bind (Attempt.spares_of_tries fun _ => tries_entered (any_hosts id) _) fun _ _ =>
    (spares_operandValue hplus _).bind fun _ _ => (spares_operandValue hplus _).bind fun _ _ =>
      Attempt.Spares.bind (Attempt.spares_of_tries fun _ => tries_joinOrAdd (any_hosts id) _ _)
        fun _ h => Attempt.spares_of_tries fun _ => tries_answer _ h

/-- A nested addition leaves what is pending alone, unless it fails. -/
theorem spares_plusWithin : ∀ (depth : Nat) (x y : Value),
    (plusWithin depth x y).Spares (·.isException = false)
  | 0, x, y => by
    unfold plusWithin
    cases BinaryOp.add.inline? x y with
    | some v => exact Run.spares_of_keeps (p := fun _ _ => True) fun _ => keeps_pure trivial
    | none => exact Run.spares_of_keeps (p := fun _ _ => True) fun _ => keeps_throw _
  | depth + 1, x, y => by
    unfold plusWithin
    cases BinaryOp.add.inline? x y with
    | some v => exact Run.spares_of_keeps (p := fun _ _ => True) fun _ => keeps_pure trivial
    | none =>
      intro m v m' h hv
      obtain ⟨-, answered, n, hn, hentry, -⟩ | ⟨e, -, rfl, -⟩ := handOff_cases h
      · exact (spares_addEntry (spares_plusWithin depth) _ n answered m' hentry).1.trans hn
      · exact absurd hv (by decide)

/-! ## Entries -/

/-- An entry that succeeds leaves what is pending alone, and what it answers is no sentinel. -/
theorem spares_entry (power : Double → Double → Double) (op : BinaryOp) (operands : Operands 2) :
    (op.entry (interpreterWith power) operands).Spares fun answered => answered.result.Computed := by
  by_cases hop : op = .add
  · subst hop
    intro m answered m' h
    have hadd : BinaryOp.add.entry (interpreterWith power) operands = add operands := rfl
    rw [hadd, add, Attempt.run_get_bind] at h
    exact spares_addEntry (spares_plusWithin _) operands m answered m' h
  · exact Attempt.spares_of_tries fun _ => tries_entry_of_ne (any_hosts id) power hop operands

theorem spares_unary (op : UnaryOp) (operands : Operands 1) :
    (unary op operands).Spares fun answered => answered.result.Computed :=
  Attempt.spares_of_tries fun _ => tries_unary (any_hosts id) op operands

/-! ## Operators -/

/-- What an operator comes to that answered, given whether it is a remainder by zero and what its entry
failed with. -/
inductive Comes (m m' : Machine State) (v : Value) (zero : Prop) : Option Exception → Prop where
  | remainder (hzero : zero) (hv : v = .exception) (hm : m'.pending = m.pending) : Comes m m' v zero none
  | failed {e : Exception} (hzero : ¬ zero) (hv : v = .exception) (hm : m'.pending = some e) :
    Comes m m' v zero (some e)
  | answered (hzero : ¬ zero) (hv : v.tag ≠ .exception) (hm : m'.pending = m.pending) :
    Comes m m' v zero none

/-- An operator whose inline answers are no sentinels but for one, with an entry that does as entries do. -/
theorem inlineOr_comes {n : Nat} {label : String} {entry : Entry State (n + 1)}
    {operands : Operands (n + 1)} {answer? : Option Value} {zero : Prop} {m m' : Machine State}
    {v : Value} (hzero : zero → answer? = some .exception)
    (hinline : ∀ w, answer? = some w → ¬ zero → w.tag ≠ .exception)
    (hentry : (entry operands).Spares fun answered => answered.result.Computed)
    (h : inlineOr label entry operands answer? m = .ok v m') :
    Comes m m' v zero (slowFailure? label entry operands m answer?) := by
  cases answer? with
  | some w =>
    cases h
    by_cases hz : zero
    · exact .remainder hz (Option.some.inj (hzero hz)) rfl
    · exact .answered hz (hinline v rfl hz) rfl
  | none =>
    have hz : ¬ zero := fun hz => absurd (hzero hz) nofun
    obtain ⟨hnone, answered, n, hn, hrun, rfl⟩ | ⟨e, hsome, rfl, hm'⟩ := handOff_cases h
    · obtain ⟨hspared, hcomputed⟩ := hentry n answered m' hrun
      rw [slowFailure?, hnone]
      exact .answered hz hcomputed.tag_ne (hspared.trans hn)
    · rw [slowFailure?, hsome]
      exact .failed hz rfl hm'

section

variable (power : Double → Double → Double) {m m' : Machine State} {v x y : Value}

theorem binary_comes {op : BinaryOp} (h : (interpreterWith power).binary op x y m = .ok v m') :
    Comes m m' v (op.IntRemainderByZero x y)
      ((Request.binary op x y).failure? (interpreterWith power) m) :=
  inlineOr_comes BinaryOp.inline?_of_intRemainderByZero
    (fun _ hv hzero => (Value.Computed.scalar (BinaryOp.scalar_of_inline hv hzero)).tag_ne)
    (spares_entry power op _) h

theorem unary_comes {op : UnaryOp} (h : (interpreterWith power).unaryOp op x m = .ok v m') :
    Comes m m' v False ((Request.unary op x).failure? (interpreterWith power) m) := by
  refine inlineOr_comes False.elim (fun w hv _ => ?_) (spares_unary op _) h
  by_cases hop : op = .plus
  · subst hop
    obtain ⟨rfl, ht⟩ := UnaryOp.inline?_plus hv
    exact Value.tag_ne_exception_of_number ht
  · exact (Value.Computed.scalar (UnaryOp.scalar_of_inline hop hv)).tag_ne

end

/-! ## Categories -/

/-- What is kept as the text of a category is a text. -/
def State.Labelled (s : State) : Prop := ∀ c v, s.categoryTexts c = some v → v.tag = .heap .string

theorem tag_categoryText {c : Category} {s s' : State} {v : Value} (hs : s.Labelled)
    (h : categoryText c s = .ok v s') : v.tag = .heap .string := by
  rw [categoryText_apply] at h
  split at h
  · rename_i hv
    cases h
    exact hs c v hv
  · cases h
  · cases h
    exact Value.tag_ofPointer _ _

end Reference

open Reference

/-- Nothing is asked but that what is kept as a text is one. -/
abbrev Regime.labelled : Regime State := Regime.any State.Labelled (fun _ => True) False False

theorem Regime.labelled_admits : labelled.Admits :=
  ⟨fun _ _ => trivial, fun _ _ => trivial, fun _ _ => False.elim, trivial⟩

theorem Regime.labelled_hosts : labelled.Hosts where
  constants _ _ _ _ _ _ _ := ⟨trivial, False.elim⟩
  texts _ _ _ _ _ := trivial
  prepared _ _ _ _ := False.elim
  noted s s' hs _ htexts _ := by
    show s'.Labelled
    rw [State.Labelled, htexts]
    exact hs
  allocated _ _ hs := hs
  interned s c p hs d v hv := by
    by_cases hd : d = c
    · obtain rfl := Option.some.inj ((if_pos hd).symm.trans hv)
      exact Value.tag_ofPointer _ _
    · exact hs d v ((if_neg hd).symm.trans hv)

/-- The text of a category is a text. -/
theorem Regime.keeps_typeOf_tag (power : Double → Double → Double) (x : Value) :
    labelled.Keeps ((interpreterWith power).typeOf x) (·.tag = .heap .string) := by
  have hserves := serves_reference labelled_admits labelled_hosts power
  exact keeps_onRuntime <| (hserves.category x trivial).bind fun c _ =>
    (hserves.release x trivial).bind fun _ _ => fun s hs =>
      ⟨(hserves.categoryText c s hs).1, fun v s' hv => tag_categoryText hs hv⟩

/-! ## Requests -/

namespace Request

/-- A request that does not decide what is pending leaves it alone, however it ends. -/
theorem pending_of_not_settles (I : Interpreter R) {r : Request R} (hr : ¬ r.Settles) (m : Machine R) :
    (Result.state (r.perform I m)).pending = m.pending :=
  Regime.pending_of_keeps (fun p => Regime.keeps_request_of_not_settles (fun _ => trivial)
    (Regime.untaken_attends p I) hr (Regime.fitsRequest_any fun _ _ _ _ => trivial)
    fun _ _ => False.elim) m

theorem pending_of_not_settles_of_ok {I : Interpreter R} {r : Request R} (hr : ¬ r.Settles)
    {m m' : Machine R} {a : Response} (h : r.perform I m = .ok a m') : m'.pending = m.pending := by
  have hp := pending_of_not_settles I hr m
  rw [h] at hp
  exact hp

section

variable (power : Double → Double → Double) {m m' : Machine State} {a : Response}

/-- What a request leaves pending that goes through. -/
theorem pending_of_ok {r : Request State} (h : r.perform (interpreterWith power) m = .ok a m') :
    m'.pending = (r.settled? (interpreterWith power) m).getD m.pending := by
  have hcomes : ∀ {v zero failure}, Comes m m' v zero failure →
      m'.pending = (failure.map some).getD m.pending := by
    rintro v zero failure (⟨-, -, hm⟩ | ⟨-, -, hm⟩ | ⟨-, -, hm⟩) <;> exact hm
  cases r with
  | binary op x y =>
    obtain ⟨v, n, hv, h⟩ := Run.ok_of_bind h
    cases h
    exact hcomes (binary_comes power hv)
  | unary op x =>
    obtain ⟨v, n, hv, h⟩ := Run.ok_of_bind h
    cases h
    exact hcomes (unary_comes power hv)
  | raise e =>
    obtain ⟨v, n, hv, h⟩ := Run.ok_of_bind h
    cases h
    exact (Machine.raise_cases hv).2
  | takePending =>
    cases h
    rfl
  | _ => exact pending_of_not_settles_of_ok id h

/-- An operator with an entry is in step. -/
theorem inStep_of_comes {r : Request State}
    (h : ∀ a m', r.perform (interpreterWith power) m = .ok a m' → ∃ v, a.values = [v] ∧
      Comes m m' v r.RemainderByZero (r.failure? (interpreterWith power) m)) :
    r.InStep (interpreterWith power) m where
  sentinel a m' ha := by
    obtain ⟨v, hv, hc⟩ := h a m' ha
    rw [hv]
    generalize r.failure? (interpreterWith power) m = failure at hc ⊢
    cases hc with
    | remainder hzero hv => subst hv; exact ⟨fun _ => .inl hzero, fun _ => ⟨_, List.mem_cons_self, rfl⟩⟩
    | failed hzero hv => subst hv; exact ⟨fun _ => .inr rfl, fun _ => ⟨_, List.mem_cons_self, rfl⟩⟩
    | answered hzero hv =>
      constructor
      · rintro ⟨w, hw, ht⟩
        obtain rfl := List.mem_singleton.mp hw
        exact absurd ht hv
      · rintro (hz | hf)
        · exact absurd hz hzero
        · exact absurd hf nofun
  untouched a m' ha hz := by
    obtain ⟨v, -, hc⟩ := h a m' ha
    generalize r.failure? (interpreterWith power) m = failure at hc
    cases hc with
    | remainder _ _ hm => exact hm
    | failed hzero => exact absurd hz hzero
    | answered hzero => exact absurd hz hzero
  parked a m' e ha hf := by
    obtain ⟨v, -, hc⟩ := h a m' ha
    rw [hf] at hc
    cases hc with
    | failed _ _ hm => exact hm
  spared a m' ha hv := by
    obtain ⟨v, hvs, hc⟩ := h a m' ha
    have ht := hv v (by rw [hvs]; exact List.mem_cons_self)
    generalize r.failure? (interpreterWith power) m = failure at hc
    cases hc with
    | remainder _ hv => subst hv; exact absurd rfl ht
    | failed _ hv => subst hv; exact absurd rfl ht
    | answered _ _ hm => exact hm

/-- An operator without an entry is in step if it never answers the sentinel. -/
theorem inStep_of_not_settles {I : Interpreter R} {r : Request R} {m : Machine R} (hr : ¬ r.Settles)
    (h : ∀ a m', r.perform I m = .ok a m' → ∀ v ∈ a.values, v.tag ≠ .exception) : r.InStep I m := by
  have hzero : ¬ r.RemainderByZero := by cases r <;> first | exact id | exact absurd trivial hr
  have hfailure : r.failure? I m = none := by cases r <;> first | rfl | exact absurd trivial hr
  constructor
  case sentinel =>
    intro a m' ha
    rw [hfailure]
    constructor
    · rintro ⟨v, hv, ht⟩
      exact absurd ht (h a m' ha v hv)
    · rintro (hz | hf)
      · exact absurd hz hzero
      · exact absurd hf nofun
  case untouched => exact fun a m' _ hz => absurd hz hzero
  case parked =>
    intro a m' e _ hf
    rw [hfailure] at hf
    cases hf
  case spared => exact fun a m' ha _ => pending_of_not_settles_of_ok hr ha

/-- **Every operator is in step.** -/
theorem inStep {r : Request State} (hr : r.IsOperator) (hm : m.runtime.Labelled) :
    r.InStep (interpreterWith power) m := by
  cases r with
  | binary op x y =>
    refine inStep_of_comes power fun a m' h => ?_
    obtain ⟨v, n, hv, h⟩ := Run.ok_of_bind h
    cases h
    exact ⟨v, rfl, binary_comes power hv⟩
  | unary op x =>
    refine inStep_of_comes power fun a m' h => ?_
    obtain ⟨v, n, hv, h⟩ := Run.ok_of_bind h
    cases h
    exact ⟨v, rfl, unary_comes power hv⟩
  | logicalNot x =>
    refine inStep_of_not_settles id fun a m' h v hv => ?_
    obtain ⟨w, n, hw, h⟩ := Run.ok_of_bind h
    cases h
    obtain rfl := List.mem_singleton.mp hv
    obtain ⟨b, rfl⟩ := logicalNot_cases hw
    exact (Value.Computed.scalar (.bool b)).tag_ne
  | toBool x =>
    refine inStep_of_not_settles id fun a m' h v hv => ?_
    obtain ⟨b, n, -, h⟩ := Run.ok_of_bind h
    cases h
    exact absurd hv List.not_mem_nil
  | typeOf x =>
    refine inStep_of_not_settles id fun a m' h v hv => ?_
    obtain ⟨w, n, hw, h⟩ := Run.ok_of_bind h
    cases h
    obtain rfl := List.mem_singleton.mp hv
    rw [(Regime.keeps_typeOf_tag power x m (Regime.any_holds hm trivial)).answered v m' hw]
    nofun
  | _ => exact absurd hr id

end

end Request

/-! ## Histories -/

section

variable (I : Interpreter R)

/-- What is pending after a history: what was settled last, or what was pending before it. -/
def settledBy (h : List (Machine R × Request R)) (pending : Option Exception) : Option Exception :=
  (h.filterMap fun asked => asked.2.settled? I asked.1).getLast?.getD pending

/-- Before every request of a history, what is pending is what the requests before it settled. -/
def InOrder : List (Machine R × Request R) → Option Exception → Prop
  | [], _ => True
  | (m, r) :: rest, pending => m.pending = pending ∧ InOrder rest ((r.settled? I m).getD pending)

/-- What one request of a history makes of what is pending. -/
def settle (pending : Option Exception) (asked : Machine R × Request R) : Option Exception :=
  (asked.2.settled? I asked.1).getD pending

variable {I} {m : Machine R} {r : Request R} {h : List (Machine R × Request R)}
  {pending : Option Exception}

theorem settledBy_cons :
    settledBy I ((m, r) :: h) pending = settledBy I h ((r.settled? I m).getD pending) := by
  unfold settledBy
  rw [List.filterMap_cons]
  dsimp only
  cases r.settled? I m with
  | none => rfl
  | some e =>
    dsimp only
    rw [List.getLast?_cons]
    rfl

theorem foldl_settle : h.foldl (settle I) pending = settledBy I h pending := by
  induction h generalizing pending with
  | nil => rfl
  | cons asked h ih => rw [List.foldl_cons, ih, settle, ← settledBy_cons]

theorem inOrder_of_follows (hh : Follows Machine.pending (settle I) h pending) :
    InOrder I h pending := by
  induction h generalizing pending with
  | nil => trivial
  | cons asked h ih => exact ⟨hh.1, ih hh.2⟩

/-- In the middle of a history, too, what is pending is what was settled last. -/
theorem InOrder.pending_eq {before after : List (Machine R × Request R)}
    (hh : InOrder I (before ++ (m, r) :: after) pending) : m.pending = settledBy I before pending := by
  induction before generalizing pending with
  | nil => exact hh.1
  | cons head before ih =>
    obtain ⟨n, q⟩ := head
    rw [settledBy_cons]
    exact ih hh.2

end

/-! ## Runs -/

/-- The request goes through. -/
def Request.Answers (I : Interpreter R) (m : Machine R) (r : Request R) : Prop :=
  ∃ a m', r.perform I m = .ok a m'

/-- Along a run in which every request goes through, and after it, what is pending is what was settled
last. -/
theorem Caller.inOrder_history (power : Double → Double → Double) (c : Caller State)
    {m : Machine State} (hc : c.Along (interpreterWith power)
      (fun m r => r.Answers (interpreterWith power) m) (fun _ _ => True) m) :
    InOrder (interpreterWith power) (c.history (interpreterWith power) m) m.pending ∧
      (Result.state (c.run (interpreterWith power) m)).pending =
        settledBy (interpreterWith power) (c.history (interpreterWith power) m) m.pending := by
  obtain ⟨hfollows, hlast⟩ :=
    Caller.follows Machine.pending (settle (interpreterWith power)) (fun h => h.2) c <|
      hc.mono (fun m r ⟨a, n, h⟩ => ⟨a, n, h, Request.pending_of_ok power h⟩) fun _ _ h => h
  exact ⟨inOrder_of_follows hfollows, hlast.trans foldl_settle⟩

/-- What the program around the machine does to the interpreter's state keeps texts texts. -/
def Request.KeepsLabels (r : Request State) : Prop :=
  ∀ act, r = .host act → ∀ s, s.Labelled → (Result.state (act s)).Labelled

/-- The sentinel and the pending exception are in step along a run, and after it. -/
structure PendingInStep (I : Interpreter State) (c : Caller State) (m : Machine State) : Prop where
  /-- Every operator applied is in step, -/
  operators : c.Along I (fun m r => r.IsOperator → r.InStep I m) (fun _ _ => True) m
  /-- and at every request, -/
  throughout : ∀ before n r after, c.history I m = before ++ (n, r) :: after →
    n.pending = settledBy I before m.pending
  /-- as at the end, what is pending is what was settled last. -/
  afterwards : (Result.state (c.run I m)).pending = settledBy I (c.history I m) m.pending

/-- **The sentinel and the pending exception stay in step**, along every run of the reference interpreter
in which all requests go through. -/
theorem pending_in_step (power : Double → Double → Double) (c : Caller State) (m : Machine State)
    (hlabels : m.runtime.Labelled)
    (hcalm : c.Along (interpreterWith power)
      (fun m r => r.KeepsLabels ∧ r.Answers (interpreterWith power) m) (fun _ _ => True) m) :
    PendingInStep (interpreterWith power) c m := by
  have hserves := Regime.serves_reference Regime.labelled_admits Regime.labelled_hosts power
  obtain ⟨-, hheld⟩ := Caller.ends (G := Regime.labelled) False.elim c (Regime.any_holds hlabels trivial) <|
    hcalm.mono
      (fun m r h hm => (Regime.keeps_request Regime.labelled_admits hserves
        (Regime.fitsRequest_any h.1)
        (fun _ _ => False.elim) m hm).mono fun _ _ => trivial)
      fun m s _ hm => Regime.keeps_openFrame (G := Regime.labelled) trivial False.elim m hm
  obtain ⟨hordered, hlast⟩ := c.inOrder_history power (hcalm.mono (fun _ _ h => h.2) fun _ _ h => h)
  constructor
  case operators =>
    exact hheld.mono (fun m r h hr => Request.inStep power hr h.1.good) fun _ _ _ => trivial
  case throughout =>
    intro before n r after hsplit
    rw [hsplit] at hordered
    exact hordered.pending_eq
  case afterwards => exact hlast

/-- Prepares a failure, runs into it, and computes a remainder by zero while it is pending. -/
def Caller.failing : Caller State :=
  .ask (.host do
    modify fun s => { s with failNext := some (.typeError "not today") }
    return .done) fun _ =>
  .ask (.binary .add .null .null) fun _ =>
  .ask (.binary (.arith .mod) (.ofInt 1) (.ofInt 0)) fun _ => .done .done

theorem pending_in_step_failing :
    ({} : State).Labelled ∧
      Caller.failing.Along (interpreterWith Double.power)
        (fun m r => r.KeepsLabels ∧ r.Answers (interpreterWith Double.power) m) (fun _ _ => True)
        { runtime := {} } ∧
      PendingInStep (interpreterWith Double.power) Caller.failing { runtime := {} } ∧
      (Result.state (Caller.failing.run (interpreterWith Double.power) { runtime := {} })).pending =
        some (.typeError "not today") := by
  have hlabels : ({} : State).Labelled := nofun
  have hkeeps : ∀ {op : BinaryOp} {x y : Value}, (Request.binary op x y).KeepsLabels := nofun
  have hcalm : Caller.failing.Along (interpreterWith Double.power)
      (fun m r => r.KeepsLabels ∧ r.Answers (interpreterWith Double.power) m) (fun _ _ => True)
      { runtime := {} } := by
    refine ⟨⟨?_, _, _, rfl⟩, fun _ _ h => ?_⟩
    · rintro act ⟨⟩ s hs
      exact hs
    cases h
    refine ⟨⟨hkeeps, _, _, rfl⟩, fun _ _ h => ?_⟩
    cases h
    refine ⟨⟨hkeeps, _, _, rfl⟩, fun _ _ h => ?_⟩
    cases h
    trivial
  have hstep := pending_in_step Double.power Caller.failing { runtime := {} } hlabels hcalm
  exact ⟨hlabels, hcalm, hstep, hstep.afterwards⟩

end TieredVm
