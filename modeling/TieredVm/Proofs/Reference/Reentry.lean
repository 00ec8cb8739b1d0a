import TieredVm.Proofs.Frame.Resumed
import TieredVm.Proofs.Interpreter.Functions
import TieredVm.Proofs.Reference.CallTree
import TieredVm.Proofs.Reference.Steps

/-!
# Additions that call functions

The reference interpreter adds a function by calling it, and the call adds through the operator again,
under a frame of its own. Such a nest of calls does on a machine what `Addend.evaluate` does on the
tree that the operands unfold to: the same value or the same exception, the same texts, and a trace for
every call in the same order. Frames come and go; the machine is resumed as it was.

* `Evaluates`, `Answers`: an attempt, or an operator, does what an evaluation does.
* `joinOrAdd_evaluates`, `additionOf_evaluates`, `call_evaluates`: one addition, one call.
* `handOff_answers`, `sum_answers`: the operator, handed off or answered inline.
* `Unfolds.runs`: an operand, by induction on its tree.
* `nested_additions`: the addition operator.
-/

namespace TieredVm

/-- The linked frames of a machine are the activations of some stack. -/
def Machine.Represented {R : Type} (m : Machine R) : Prop := ∃ s, Represents m.journal.isSome m s

theorem Machine.Represented.resumed {R : Type} {m m' : Machine R} (h : m.Represented)
    (hr : m.Resumed m') : m'.Represented := by
  obtain ⟨s, hs⟩ := h
  exact ⟨_, hr.recording ▸ hs.resumed hr⟩

theorem Machine.Represented.refl {R : Type} {m : Machine R} (h : m.Represented) : m.Resumed m := by
  obtain ⟨s, hs⟩ := h
  exact hs.resumed_self

namespace Reference

variable {s₀ : State} {base : List String} {m m' : Machine State} {log log' : Log}

/-! ## Doing what an evaluation does -/

/-- An attempt does what an evaluation does, beginning in the state that the log describes. -/
inductive Evaluates (s₀ : State) (base : List String) (m : Machine State) :
    EStateM.Result Exception Log Value →
      EStateM.Result Stop (Machine State) (Except Exception Value) → Prop where
  | ok {v : Value} {log : Log} {m' : Machine State} (shown : v.dangling = false)
      (resumed : m.Resumed m') (runtime : m'.runtime = s₀.after base log)
      (pending : m'.pending = m.pending) : Evaluates s₀ base m (.ok v log) (.ok (.ok v) m')
  | error {e : Exception} {log : Log} {m' : Machine State} (shown : e.dangling = false)
      (resumed : m.Resumed m') (runtime : m'.runtime = s₀.after base log) :
      Evaluates s₀ base m (.error e log) (.ok (.error e) m')

/-- An operator does what an evaluation does: a value is answered, and an exception is pending. -/
inductive Answers (s₀ : State) (base : List String) (m : Machine State) :
    EStateM.Result Exception Log Value → EStateM.Result Stop (Machine State) Value → Prop where
  | ok {v : Value} {log : Log} {m' : Machine State} (shown : v.dangling = false)
      (sound : v.isException = false) (resumed : m.Resumed m')
      (runtime : m'.runtime = s₀.after base log) (pending : m'.pending = m.pending) :
      Answers s₀ base m (.ok v log) (.ok v m')
  | error {e : Exception} {log : Log} {m' : Machine State} (shown : e.dangling = false)
      (resumed : m.Resumed m') (runtime : m'.runtime = s₀.after base log)
      (pending : m'.pending = some e) : Answers s₀ base m (.error e log)
        (.ok .exception m')

/-- What follows an attempt begins where it ended. -/
theorem Evaluates.bind {x : Attempt State Value} {f : Value → Attempt State Value}
    {sx : Evaluation Value} {sf : Value → Evaluation Value}
    (hx : Evaluates s₀ base m (sx log) (x.run m))
    (hf : ∀ v log' m', sx log = .ok v log' → v.dangling = false → m.Resumed m' →
      m'.runtime = s₀.after base log' → Evaluates s₀ base m' (sf v log') ((f v).run m')) :
    Evaluates s₀ base m ((sx >>= sf) log) ((x >>= f).run m) := by
  show Evaluates s₀ base m (EStateM.bind sx sf log) _
  unfold EStateM.bind
  generalize hs : sx log = rs at hx
  generalize hr : x.run m = r at hx
  cases hx with
  | error shown resumed runtime =>
    rw [Attempt.bind_of_error hr]
    exact .error shown resumed runtime
  | @ok v log' m' shown resumed runtime pending =>
    rw [Attempt.bind_of_ok hr]
    have hv := hf v log' m' hs shown resumed runtime
    simp only
    generalize sf v log' = rs' at hv ⊢
    generalize (f v).run m' = r' at hv ⊢
    cases hv with
    | ok shown' resumed' runtime' pending' =>
      exact .ok shown' (resumed.trans resumed') runtime' (pending'.trans pending)
    | error shown' resumed' runtime' => exact .error shown' (resumed.trans resumed') runtime'

/-- What is noted beforehand, and resumes the machine, belongs to the attempt. -/
theorem Evaluates.after {x : Attempt State Unit} {f : Attempt State Value}
    {r : EStateM.Result Exception Log Value} (hx : x.run m = .ok (.ok ()) m') (hr : m.Resumed m')
    (hp : m'.pending = m.pending) (hf : Evaluates s₀ base m' r (f.run m')) :
    Evaluates s₀ base m r ((x >>= fun _ => f).run m) := by
  rw [Attempt.bind_of_ok hx]
  generalize f.run m' = r' at hf ⊢
  cases hf with
  | ok shown resumed runtime pending => exact .ok shown (hr.trans resumed) runtime (pending.trans hp)
  | error shown resumed runtime => exact .error shown (hr.trans resumed) runtime

/-! ## One addition -/

theorem State.RoomFor.mono {s : State} {i j : Nat} (h : s.RoomFor j) (hij : i ≤ j) : s.RoomFor i := by
  unfold State.RoomFor cellAddress at *
  omega

/-- With room on the heap, the next text has an address. -/
theorem State.textRef_eq {s : State} {made : Nat} (room : s.RoomFor (made + 1)) :
    ∃ p, s.textRef made = .ofPointer .string p ∧ p.addr = cellAddress (s.cells.size + made) := by
  have hfits : cellAddress (s.cells.size + made) < 0x1000000000000 := by
    unfold State.RoomFor cellAddress at *
    omega
  have hpos : 0 < cellAddress (s.cells.size + made) := by
    unfold cellAddress heapBase
    omega
  exact ⟨⟨_, hpos, hfits⟩, rfl, rfl⟩

/-- The next text gets a cell. -/
theorem newText_evaluates (hm : m.Represented) (hrt : m.runtime = s₀.after base log) (t : String)
    (room : s₀.RoomFor (log.texts.length + 1)) :
    Evaluates s₀ base m
      (.ok (s₀.textRef log.texts.length) { log with texts := log.texts ++ [t] })
      ((Attempt.lift (Run.onRuntime (newText t))).run m) := by
  have hsize : m.runtime.cells.size = s₀.cells.size + log.texts.length := by
    rw [hrt]
    simp [State.after, State.withTexts]
  obtain ⟨p, hp, haddr⟩ := State.textRef_eq room
  rw [Attempt.lift_of_ok (onRuntime_newText (by rw [hsize, haddr]) t), hp]
  refine .ok ?_ (hm.refl.withRuntime _) ?_ rfl
  · rw [Value.dangling, Value.kind_ofPointer]
  · show ({ m.runtime with cells := m.runtime.cells.push (.text t) } : State) = _
    rw [hrt]
    simp [State.after, State.withTexts]

/-- The number of a value is the same under whatever texts were made since. -/
theorem convert_toNumber {v : Value} (hrt : m.runtime = s₀.after base log)
    (hv : v.dangling = false) :
    (convert (·.toNumber v)).run m = .ok ((s₀.withTexts log.texts).numberOf v) m := by
  refine convert_of_run ?_
  rw [hrt]
  exact ((s₀.withTexts log.texts).toNumber_of_shown hv).1

theorem observe_toText {v : Value} (hrt : m.runtime = s₀.after base log)
    (hv : v.dangling = false) :
    observe (·.toText v) m = .ok ((s₀.withTexts log.texts).shownText v) m := by
  refine observe_of_ok ?_
  rw [hrt]
  exact State.toText_of_shown (s₀.withTexts log.texts) hv

/-- Joining or adding two values does what their sum is said to be. -/
theorem joinOrAdd_evaluates {a b : Value} (hm : m.Represented)
    (hrt : m.runtime = s₀.after base log) (ha : a.dangling = false) (hb : b.dangling = false)
    (room : s₀.RoomFor (Result.state (s₀.plainSum a b log)).texts.length) :
    Evaluates s₀ base m (s₀.plainSum a b log) ((joinOrAdd a b).run m) := by
  unfold joinOrAdd
  unfold State.plainSum at room ⊢
  simp only at room ⊢
  by_cases hs : a.tag = .heap .string ∨ b.tag = .heap .string
  · rw [if_pos hs] at room ⊢
    rw [if_pos hs, Attempt.bind_of_ok (Attempt.lift_of_ok (observe_toText hrt ha)),
      Attempt.bind_of_ok (Attempt.lift_of_ok (observe_toText hrt hb))]
    exact newText_evaluates hm hrt _ (by simpa [Result.state] using room)
  · rw [if_neg hs, if_neg hs]
    have hca := convert_toNumber hrt ha
    have hcb := convert_toNumber hrt hb
    cases hx : (s₀.withTexts log.texts).numberOf a with
    | error e =>
      rw [hx] at hca
      rw [Attempt.bind_of_error hca]
      exact .error ((State.toNumber_of_shown _ ha).2 e hx) hm.refl hrt
    | ok x =>
      rw [hx] at hca
      rw [Attempt.bind_of_ok hca]
      cases hy : (s₀.withTexts log.texts).numberOf b with
      | error e =>
        rw [hy] at hcb
        rw [Attempt.bind_of_error hcb]
        exact .error ((State.toNumber_of_shown _ hb).2 e hy) hm.refl hrt
      | ok y =>
        rw [hy] at hcb
        rw [Attempt.bind_of_ok hcb]
        exact .ok (Value.shown_of_number (Value.tag_number _)) hm.refl hrt rfl

/-- The addition of two operands, each standing for what a call to it gives. -/
def additionOf (plus : Value → Value → Run State Value) (x y : Value) : Attempt State Value := do
  entered .add
  let a ← operandValue plus x
  let b ← operandValue plus y
  joinOrAdd a b

theorem addEntry_eq (plus : Value → Value → Run State Value) (operands : Operands 2) :
    addEntry plus operands =
      additionOf plus operands.lhs operands.rhs >>= fun v => answer operands v := by
  simp [addEntry, additionOf]

/-- An evaluation makes at least the texts that its first part makes. -/
theorem texts_le_bind {x : Evaluation Value} {f : Value → Evaluation Value}
    (hf : ∀ v log, log.texts.length ≤ (Result.state (f v log)).texts.length) (log : Log) :
    (Result.state (x log)).texts.length ≤ (Result.state ((x >>= f) log)).texts.length := by
  show _ ≤ (Result.state (EStateM.bind x f log)).texts.length
  unfold EStateM.bind
  cases x log with
  | ok v log' => exact hf v log'
  | error e log' => exact Nat.le_refl _

theorem evaluated_of_bind {x : Evaluation Value} {f : Value → Evaluation Value} {v : Value}
    (h : (x >>= f) log = .ok v log') : ∃ a log₁, x log = .ok a log₁ ∧ f a log₁ = .ok v log' := by
  change EStateM.bind x f log = _ at h
  unfold EStateM.bind at h
  cases hx : x log with
  | ok a log₁ => rw [hx] at h; exact ⟨a, log₁, rfl, h⟩
  | error e log₁ => rw [hx] at h; exact absurd h (by simp)

theorem bind_of_evaluated {x : Evaluation Value} {f : Value → Evaluation Value} {v : Value}
    (h : x log = .ok v log') : (x >>= f) log = f v log' := by
  show EStateM.bind x f log = _
  rw [EStateM.bind, h]

/-- The operands are evaluated from left to right, and then they are added. -/
theorem additionOf_evaluates {plus : Value → Value → Run State Value} {x y : Value}
    {left right : Evaluation Value} {p : List (List Value)} (hm : m.Represented)
    (hrt : m.runtime = s₀.after base log) (hnone : s₀.failNext = none)
    (hmade : ∀ log, Made p log (right log))
    (hleft : ∀ m' log', m.Resumed m' → m'.runtime = s₀.after base log' →
      s₀.RoomFor (Result.state (left log')).texts.length →
      Evaluates s₀ base m' (left log') ((operandValue plus x).run m'))
    (hright : ∀ m' log', m.Resumed m' → m'.runtime = s₀.after base log' →
      s₀.RoomFor (Result.state (right log')).texts.length →
      Evaluates s₀ base m' (right log') ((operandValue plus y).run m'))
    (room : s₀.RoomFor (Result.state ((left >>= fun a => right >>= fun b => s₀.plainSum a b)
      { log with handedOff := log.handedOff + 1 })).texts.length) :
    Evaluates s₀ base m
      ((left >>= fun a => right >>= fun b => s₀.plainSum a b)
        { log with handedOff := log.handedOff + 1 })
      ((additionOf plus x y).run m) := by
  have hsum : ∀ a b log, log.texts.length ≤ (Result.state (s₀.plainSum a b log)).texts.length :=
    fun a b log => (s₀.plainSum_made a b log).texts
  have hrest : ∀ a log, log.texts.length ≤
      (Result.state ((right >>= fun b => s₀.plainSum a b) log)).texts.length := fun a log =>
    Nat.le_trans (hmade log).texts (texts_le_bind (fun b log => hsum a b log) log)
  have hcalls : ({ m.runtime with calls := m.runtime.calls ++ [EntryPoint.add.name] } : State) =
      s₀.after base { log with handedOff := log.handedOff + 1 } := by
    rw [hrt]
    simp [State.after, State.withTexts, List.replicate_succ']
  have hnoted := entered_of_none (m := m) (by rw [hrt]; exact hnone) .add
  have hres : m.Resumed { m with runtime := { m.runtime with
      calls := m.runtime.calls ++ [EntryPoint.add.name] } } := hm.refl.withRuntime _
  refine Evaluates.after hnoted hres rfl ?_
  refine Evaluates.bind (hleft _ _ hres hcalls (room.mono (texts_le_bind hrest _))) ?_
  intro a log₁ m₁ ha hav hres₁ hrt₁
  rw [bind_of_evaluated ha] at room
  have hres₁ := hres.trans hres₁
  refine Evaluates.bind (hright _ _ hres₁ hrt₁ (room.mono (texts_le_bind (hsum a) _))) ?_
  intro b log₂ m₂ hb hbv hres₂ hrt₂
  rw [bind_of_evaluated hb] at room
  exact joinOrAdd_evaluates (hm.resumed (hres₁.trans hres₂)) hrt₂ hav hbv room

/-- An inline sum is a number. -/
theorem tag_of_inline_sum {x y v : Value} (h : BinaryOp.add.inline? x y = some v) :
    v.tag = .int ∨ v.tag = .float64 := by
  unfold BinaryOp.inline? at h
  split at h
  case h_1 a b hab =>
    cases h
    unfold BinaryOp.addInt
    split
    · exact .inl (Value.tag_ofInt _)
    · exact .inr (Value.tag_ofDouble _)
  case h_2 =>
    split at h
    · cases h
      exact .inr (Value.tag_ofDouble _)
    · exact absurd h (by simp)

/-- A sum is never the error sentinel. -/
theorem isException_plainSum {a b v : Value} (h : s₀.plainSum a b log = .ok v log')
    (room : s₀.RoomFor log'.texts.length) : v.isException = false := by
  refine Value.isException_of_tag_ne ?_
  unfold State.plainSum at h
  simp only at h
  split at h
  · cases h
    have room : s₀.RoomFor (log.texts.length + 1) := by simpa using room
    obtain ⟨p, hp, -⟩ := State.textRef_eq room
    rw [hp, Value.tag_ofPointer]
    exact nofun
  · split at h
    · cases h
      exact Value.tag_ne_exception_of_number (Value.tag_number _)
    · exact absurd h (by simp)
    · exact absurd h (by simp)

theorem isException_sum {left right : Evaluation Value} {v : Value}
    (h : (left >>= fun a => right >>= fun b => s₀.plainSum a b) log = .ok v log')
    (room : s₀.RoomFor log'.texts.length) : v.isException = false := by
  obtain ⟨a, log₁, -, h⟩ := evaluated_of_bind h
  obtain ⟨b, log₂, -, h⟩ := evaluated_of_bind h
  exact isException_plainSum h room

/-- What is handed off to an entry is answered, or parked, as the addition of the operands ends. -/
theorem handOff_answers {plus : Value → Value → Run State Value} {entry : Entry State 2}
    {x y : Value} {label : String} {spec : EStateM.Result Exception Log Value} (hm : m.Represented)
    (hx : x.dangling = false) (hy : y.dangling = false)
    (hentry : ∀ line, (entry (.pair x y)).run (m.noted line) =
      (addEntry plus (.pair x y)).run (m.noted line))
    (heval : ∀ line, Evaluates s₀ base (m.noted line) spec
      ((additionOf plus x y).run (m.noted line)))
    (hsound : ∀ v log, spec = .ok v log → v.isException = false) :
    Answers s₀ base m spec (handOff label entry (.pair x y) m) := by
  have hshown : m.unrecordable (Operands.pair x y).toList = false := by
    simp [Machine.unrecordable, Operands.pair, Operands.toList, hx, hy]
  obtain ⟨line, hands⟩ := handOff_hands label entry (.pair x y) m hshown
  have hres : m.Resumed (m.noted line) := hm.refl.noted line
  have hrun := hentry line
  rw [addEntry_eq, Operands.lhs_pair, Operands.rhs_pair] at hrun
  have heval := heval line
  generalize hr : (additionOf plus x y).run (m.noted line) = r at heval
  cases heval with
  | ok shown resumed runtime pending =>
    rw [Attempt.bind_of_ok hr] at hrun
    have hout := hands.answered _ _ hrun
    rw [Operands.result_withResult] at hout
    rw [hout]
    exact .ok shown (hsound _ _ rfl) (hres.trans resumed) runtime pending
  | error shown resumed runtime =>
    rw [Attempt.bind_of_error hr] at hrun
    obtain ⟨line', hout⟩ := hands.raised _ _ hrun (by rw [shown, Bool.and_false])
    rw [hout]
    exact .error shown ((hres.trans (resumed.withPending _)).noted _) runtime rfl

/-- The addition operator does what the sum of its operands is said to be. -/
theorem sum_answers {plus : Value → Value → Run State Value} {entry : Entry State 2} {x y : Value}
    {left right : Evaluation Value} {p : List (List Value)} (hm : m.Represented)
    (hrt : m.runtime = s₀.after base log) (hnone : s₀.failNext = none) (hx : x.dangling = false)
    (hy : y.dangling = false) (hmade : ∀ log, Made p log (right log))
    (hentry : ∀ m', m'.runtime = s₀.after base log →
      (entry (.pair x y)).run m' = (addEntry plus (.pair x y)).run m')
    (hleft : ∀ m' log', m.Resumed m' → m'.runtime = s₀.after base log' →
      s₀.RoomFor (Result.state (left log')).texts.length →
      Evaluates s₀ base m' (left log') ((operandValue plus x).run m'))
    (hright : ∀ m' log', m.Resumed m' → m'.runtime = s₀.after base log' →
      s₀.RoomFor (Result.state (right log')).texts.length →
      Evaluates s₀ base m' (right log') ((operandValue plus y).run m'))
    (room : s₀.RoomFor (Result.state (s₀.sumOf x y left right log)).texts.length) :
    Answers s₀ base m (s₀.sumOf x y left right log)
      (inlineOr BinaryOp.add.label entry (.pair x y) (BinaryOp.add.inline? x y) m) := by
  unfold State.sumOf at room ⊢
  cases hv : BinaryOp.add.inline? x y with
  | some v =>
    have ht := tag_of_inline_sum hv
    have he := Value.isException_of_tag_ne (Value.tag_ne_exception_of_number ht)
    exact .ok (Value.shown_of_number ht) he hm.refl hrt rfl
  | none =>
    rw [hv] at room
    have room : s₀.RoomFor (Result.state ((left >>= fun a => right >>= fun b => s₀.plainSum a b)
      { log with handedOff := log.handedOff + 1 })).texts.length := room
    rw [inlineOr_none _ _ _ rfl]
    show Answers s₀ base m ((left >>= fun a => right >>= fun b => s₀.plainSum a b)
      { log with handedOff := log.handedOff + 1 }) _
    refine handOff_answers hm hx hy (fun line => hentry (m.noted line) hrt) (fun line => ?_) ?_
    · have hres : m.Resumed (m.noted line) := hm.refl.noted line
      exact additionOf_evaluates (hm.resumed hres) hrt hnone hmade
        (fun m' log' h => hleft m' log' (hres.trans h))
        (fun m' log' h => hright m' log' (hres.trans h)) room
    · intro v log' hs
      rw [hs] at room
      exact isException_sum hs room

/-! ## One call -/

/-- A stack trace shows the functions on a path, innermost first, above a given trace. -/
def Traced (s₀ : State) (base : List String) (path : List Value) (m : Machine State) : Prop :=
  ∃ entries, Chain.trace s₀.bytecode? m = .ok entries ∧
    entries.map TraceEntry.report = path.map s₀.callLine ++ base

theorem Traced.resumed {path : List Value} (h : Traced s₀ base path m) (hm : m.Represented)
    (hr : m.Resumed m') : Traced s₀ base path m' := by
  obtain ⟨entries, he, hl⟩ := h
  obtain ⟨s, hs⟩ := hm
  refine ⟨entries, ?_, hl⟩
  rw [Chain.trace, hs.walk_resumed hr]
  exact he

theorem Traced.began {path : List Value} {f : Value} {code : Bytecode} (h : Traced s₀ base path m)
    (hm : m.Represented) (hcode : s₀.code? f = some code) (line : String) :
    Traced s₀ base (f :: path) (m.began f line) := by
  obtain ⟨entries, he, hl⟩ := h
  obtain ⟨s, hs⟩ := hm
  obtain ⟨p, hpointer, hp⟩ := State.asPointer?_of_code? hcode
  have hentry : Chain.traceEntry s₀.bytecode? { function := f, pc := some 0, argCount := 0
                                                localCount := 0, openCaptures := 0 } =
      .ok code.firstEntry := by
    unfold Chain.traceEntry
    simp only [hpointer, bind, Except.bind, Option.bind, hp]
    rfl
  refine ⟨code.firstEntry :: entries, ?_, ?_⟩
  · rw [Chain.trace] at he
    rw [Chain.trace, hs.walk_began, List.mapM_cons, hentry, he]
    rfl
  · rw [List.map_cons, hl, List.map_cons, State.callLine, hcode]
    rfl

/-- The trace taken of a machine. -/
theorem trace_of_traced {path : List Value} (h : Traced s₀ base path m)
    (hrt : m.runtime = s₀.after base log) :
    ∃ entries, objectModel.trace m = .ok entries m ∧
      entries.map TraceEntry.report = path.map s₀.callLine ++ base := by
  obtain ⟨entries, he, hl⟩ := h
  refine ⟨entries, ?_, hl⟩
  rw [ObjectModel.trace, Run.bind_of_ok (Run.get_apply m)]
  show (Run.expect (Chain.trace m.runtime.bytecode? m) : Run State _) m = _
  rw [hrt, State.bytecode?_after, he]
  rfl

theorem chainTrace_of_trace {entries : List TraceEntry}
    (h : objectModel.trace m = .ok entries m) : Chain.trace m.runtime.bytecode? m = .ok entries := by
  rw [ObjectModel.trace, Run.bind_of_ok (Run.get_apply m)] at h
  change (Run.expect (Chain.trace m.runtime.bytecode? m) : Run State _) m = _ at h
  cases ht : Chain.trace m.runtime.bytecode? m with
  | ok entries' => rw [ht] at h; cases h; rfl
  | error v => rw [ht] at h; exact absurd h Run.violate_ne_ok

/-- A call enters a frame of its own at the first offset. -/
theorem call_begins {α : Type} {f : Value} {code : Bytecode} (hm : m.Represented)
    (hrt : m.runtime = s₀.after base log) (hcode : s₀.code? f = some code)
    (nullary : code.argCount = 0) : ∃ line, ∀ k : FrameId → Run State α, (do
      let frame ← Machine.newFrame
      objectModel.enter (some frame) f 0 0
      objectModel.setPc (some frame) 0
      k frame) m = k m.freshFrame (m.began f line) := by
  obtain ⟨p, hpointer, hp⟩ := State.asPointer?_of_code? hcode
  obtain ⟨s, hs⟩ := hm
  have hbytecode : objectModel.bytecode m.runtime p = some code := by
    show m.runtime.bytecode? p = _
    rw [hrt, State.bytecode?_after, hp]
  let m₁ : Machine State := { m with freshFrame := m.freshFrame + 1 }
  have hcode? : objectModel.codeOf? f m₁ = .ok (some code) m₁ := by
    rw [ObjectModel.codeOf?_apply, hpointer, ← hbytecode]
    rfl
  obtain ⟨line, hshown⟩ := Chain.enter_shown (m := m₁) (hs.idle (Nat.le_refl _))
    (fun _ => State.shown_of_code? hcode) 0 0
  have henter : objectModel.enter (some m.freshFrame) f 0 0 m₁ =
      .ok () ((m₁.entered m.freshFrame f 0 0).noted line) := by
    rw [ObjectModel.enter, Run.bind_of_ok hcode?]
    simp only [nullary, Nat.lt_irrefl, if_false]
    exact hshown
  let m₂ : Machine State := (m₁.entered m.freshFrame f 0 0).noted line
  have hframe : m₂.frames.get m.freshFrame =
      { below := m.chain.current, function := f, state := .active } := Store.get_set_self ..
  have hcodeOf : objectModel.codeOf (m₂.frames.get m.freshFrame).function m₂ = .ok code m₂ := by
    rw [hframe]
    exact objectModel.codeOf_of_bytecode hpointer hbytecode
  have hsetPc : objectModel.setPc (some m.freshFrame) 0 m₂ = .ok () (m.began f line) := by
    rw [ObjectModel.setPc, Run.bind_of_ok (Run.get_apply m₂), Run.bind_of_ok hcodeOf]
    exact Chain.setPc_inside (by rw [hframe]) (by simp [Bytecode.containsPc])
  refine ⟨line, fun k => ?_⟩
  rw [Run.bind_of_ok (Machine.newFrame_apply m), Run.bind_of_ok henter, Run.bind_of_ok hsetPc]

/-- What a call does under its frame. -/
def underFrame (plus : Value → Value → Run State Value) (f : Value) (frame : FrameId) :
    Run State Value := do
  let a ← objectModel.constantOf f 0
  let b ← objectModel.constantOf f 1
  let sum ← plus a b
  let lines := (← objectModel.trace).map TraceEntry.report
  Run.onRuntime (modify fun s => { s with traces := s.traces ++ [lines] })
  Chain.exit (some frame)
  return sum

theorem call_eq (plus : Value → Value → Run State Value) (f : Value) : call plus f = (do
    let sum ← Attempt.lift do
      let frame ← Machine.newFrame
      objectModel.enter (some frame) f 0 0
      objectModel.setPc (some frame) 0
      underFrame plus f frame
    if sum.isException then
      match ← Attempt.lift Machine.takePending with
      | some e => throw e
      | none => throw (.typeError "exception sentinel without an error")
    return sum) := rfl

/-- A call takes its trace and leaves its frame, whether the addition failed or not. -/
theorem leaves_call {plus : Value → Value → Run State Value} {f a b v : Value} {path : List Value}
    {line : String} {m₃ : Machine State} (hm : (m.began f line).Represented)
    (htrace : Traced s₀ base path (m.began f line))
    (hplus : plus a b (m.began f line) = .ok v m₃) (hres : (m.began f line).Resumed m₃)
    (hrt : m₃.runtime = s₀.after base log) : ∃ m₄, (do
      let sum ← plus a b
      let lines := (← objectModel.trace).map TraceEntry.report
      Run.onRuntime (modify fun s => { s with traces := s.traces ++ [lines] })
      Chain.exit (some m.freshFrame)
      return sum : Run State Value) (m.began f line) = .ok v m₄ ∧ m.Resumed m₄ ∧
      m₄.runtime = s₀.after base { log with calls := log.calls ++ [path] } ∧
      m₄.pending = m₃.pending := by
  obtain ⟨entries, hentries, hlines⟩ := trace_of_traced (htrace.resumed hm hres) hrt
  let m₃' : Machine State := { m₃ with
    runtime := { m₃.runtime with traces := m₃.runtime.traces ++ [entries.map TraceEntry.report] } }
  have hpush : Run.onRuntime (modify fun s => { s with
      traces := s.traces ++ [entries.map TraceEntry.report] }) m₃ = .ok ⟨⟩ m₃' := rfl
  have hres₃ : (m.began f line).Resumed m₃' := hres.withRuntime _
  obtain ⟨m₄, hexit, hres₄, hrt₄, hpending⟩ := hres₃.exit_began
  refine ⟨m₄, ?_, hres₄, ?_, hpending⟩
  · rw [Run.bind_of_ok hplus, Run.bind_of_ok hentries, Run.bind_of_ok hpush, Run.bind_of_ok hexit]
    rfl
  · rw [hrt₄]
    show ({ m₃.runtime with
      traces := m₃.runtime.traces ++ [entries.map TraceEntry.report] } : State) = _
    rw [hrt, hlines]
    simp [State.after, State.withTexts]

/-- **A call does what adding its constants does**, and leaves its trace. -/
theorem call_evaluates {plus : Value → Value → Run State Value} {f a b : Value} {code : Bytecode}
    {outward : List Value} {sum : Evaluation Value} (hm : m.Represented)
    (hrt : m.runtime = s₀.after base log) (hcode : s₀.code? f = some code)
    (nullary : code.argCount = 0) (first : code.constant? 0 = some a)
    (second : code.constant? 1 = some b) (htrace : Traced s₀ base outward m)
    (hplus : ∀ m', m'.Represented → m'.runtime = s₀.after base log →
      Traced s₀ base (f :: outward) m' → Answers s₀ base m' (sum log) (plus a b m')) :
    Evaluates s₀ base m (Evaluation.leaving (f :: outward) sum log) ((call plus f).run m) := by
  obtain ⟨line, hbegins⟩ := call_begins (α := Value) hm hrt hcode nullary
  have hbegan : (m.began f line).Represented := by
    obtain ⟨s, hs⟩ := hm
    have hrec : (m.began f line).journal.isSome = m.journal.isSome := (hs.began f line).recording
    exact ⟨_, hrec ▸ hs.began f line⟩
  have htrace := htrace.began hm hcode line
  obtain ⟨p, hpointer, hp⟩ := State.asPointer?_of_code? hcode
  have hcodeOf : objectModel.codeOf f (m.began f line) = .ok code (m.began f line) := by
    refine objectModel.codeOf_of_bytecode hpointer ?_
    show m.runtime.bytecode? p = _
    rw [hrt, State.bytecode?_after, hp]
  have hconstant : ∀ {i c}, code.constant? i = some c →
      objectModel.constantOf f i (m.began f line) = .ok c (m.began f line) := fun hc => by
    rw [ObjectModel.constantOf, Run.bind_of_ok hcodeOf, Bytecode.constant, hc]
    rfl
  have hsum := hplus (m.began f line) hbegan hrt htrace
  rw [call_eq]
  unfold Evaluation.leaving
  generalize hspec : sum log = spec at hsum
  generalize hout : plus a b (m.began f line) = out at hsum
  have hunder : underFrame plus f m.freshFrame (m.began f line) = _ :=
    (Run.bind_of_ok (hconstant first) _).trans (Run.bind_of_ok (hconstant second) _)
  cases hsum with
  | @ok v log' m₃ shown sound resumed runtime pending =>
    obtain ⟨m₄, hbody, hres, hrt₄, hpending⟩ := leaves_call hbegan htrace hout resumed runtime
    rw [Attempt.bind_of_ok (Attempt.lift_of_ok ((hbegins _).trans (hunder.trans hbody)))]
    simp only [sound]
    exact .ok shown hres hrt₄ (hpending.trans pending)
  | @error e log' m₃ shown resumed runtime pending =>
    obtain ⟨m₄, hbody, hres, hrt₄, hpending⟩ := leaves_call hbegan htrace hout resumed runtime
    rw [Attempt.bind_of_ok (Attempt.lift_of_ok ((hbegins _).trans (hunder.trans hbody)))]
    have htake : Machine.takePending m₄ = .ok (some e) { m₄ with pending := none } := by
      rw [← pending, ← hpending]
      rfl
    have hsentinel : Value.exception.isException = true := by decide
    simp only [hsentinel, if_true]
    rw [Attempt.bind_of_ok (Attempt.lift_of_ok htake)]
    exact .error shown (hres.withPending none) hrt₄

/-! ## Nested calls -/

/-- With calls nested so deep, an operand does on any machine what its tree evaluates to. A trace must
have been possible before, if the operand is called. -/
def Runs (s₀ : State) (base : List String) (depth : Nat) (v : Value) (t : Addend) : Prop :=
  ∀ {outward : List Value} {m : Machine State} {log : Log}, m.Represented →
    m.runtime = s₀.after base log →
    ((s₀.code? v).isSome = true → Traced s₀ base outward m) →
    s₀.RoomFor (Result.state (t.evaluate s₀ outward log)).texts.length →
    Evaluates s₀ base m (t.evaluate s₀ outward log) ((operandValue (plusWithin depth) v).run m)

theorem State.Unfolds.shown {v : Value} {t : Addend} (h : s₀.Unfolds v t) : v.dangling = false := by
  cases h with
  | plain shown _ => exact shown
  | call hcode => exact shown_of_code? hcode

/-- The addition operator does what the sum of two trees is said to be. -/
theorem Runs.sum {depth : Nat} {x y : Value} {l r : Addend} {outward : List Value}
    {entry : Entry State 2} (hnone : s₀.failNext = none) (hx : s₀.Unfolds x l)
    (hy : s₀.Unfolds y r) (hl : Runs s₀ base depth x l) (hr : Runs s₀ base depth y r)
    (hm : m.Represented) (hrt : m.runtime = s₀.after base log)
    (htrace : (s₀.code? x).isSome = true ∨ (s₀.code? y).isSome = true → Traced s₀ base outward m)
    (hentry : ∀ m', m'.runtime = s₀.after base log →
      (entry (.pair x y)).run m' = (addEntry (plusWithin depth) (.pair x y)).run m')
    (room : s₀.RoomFor (Result.state (s₀.sumOf x y (l.evaluate s₀ outward)
      (r.evaluate s₀ outward) log)).texts.length) :
    Answers s₀ base m (s₀.sumOf x y (l.evaluate s₀ outward) (r.evaluate s₀ outward) log)
      (inlineOr BinaryOp.add.label entry (.pair x y) (BinaryOp.add.inline? x y) m) := by
  refine sum_answers hm hrt hnone hx.shown hy.shown (hy.evaluate_made outward) hentry ?_ ?_ room
  · intro m' log' hres hrt' room'
    exact hl (hm.resumed hres) hrt' (fun hc => (htrace (.inl hc)).resumed hm hres) room'
  · intro m' log' hres hrt' room'
    exact hr (hm.resumed hres) hrt' (fun hc => (htrace (.inr hc)).resumed hm hres) room'

/-- Only a function is called. -/
theorem operandValue_apply (plus : Value → Value → Run State Value) {v : Value}
    (shown : v.dangling = false) : (operandValue plus v).run m =
      if (m.runtime.code? v).isSome then (call plus v).run m else .ok (.ok v) m := by
  obtain ⟨k, hk⟩ := Value.exists_kind_of_shown shown
  have hpointer := Value.asPointer?_of_kind hk (.heap .object)
  have hread : (Run.expect (v.asPointer? (.heap .object)) : Run State (Option Pointer)) m =
      .ok (k.pointer? (.heap .object)) m := by
    rw [hpointer]
    rfl
  have hany : (k.pointer? (.heap .object)).any m.runtime.isFunction =
      (m.runtime.code? v).isSome := by
    unfold State.code?
    rw [hpointer]
    cases k.pointer? (.heap .object) <;> rfl
  have hget : (get : Attempt State (Machine State)).run m = .ok (.ok m) m := rfl
  rw [operandValue, Attempt.bind_of_ok (Attempt.lift_of_ok hread), Attempt.bind_of_ok hget, hany]
  split <;> rfl

/-- **An operand does what its tree evaluates to**, by induction on the tree. -/
theorem State.Unfolds.runs {v : Value} {t : Addend} (hnone : s₀.failNext = none)
    (h : s₀.Unfolds v t) : ∀ {depth : Nat}, t.height ≤ depth → Runs s₀ base depth v t := by
  induction h with
  | plain shown hcode =>
    intro depth _ outward m log hm hrt _ _
    rw [operandValue_apply _ shown, hrt, State.code?_after, hcode]
    exact .ok shown hm.refl hrt rfl
  | @call f a b code l r hcode nullary first second left right ihl ihr =>
    intro depth hdepth outward m log hm hrt htrace room
    obtain ⟨depth, rfl⟩ : ∃ d, depth = d + 1 := ⟨depth - 1, by
      have : l.height.max r.height + 1 ≤ depth := hdepth
      omega⟩
    have hheight : max l.height r.height ≤ depth := Nat.le_of_succ_le_succ hdepth
    have hsome : (m.runtime.code? f).isSome = true := by
      rw [hrt, State.code?_after, hcode]
      rfl
    rw [operandValue_apply _ (State.shown_of_code? hcode), if_pos hsome]
    refine call_evaluates hm hrt hcode nullary first second (htrace (by rw [hcode]; rfl)) ?_
    intro m' hm' hrt' htrace'
    rw [left.operand_eq, right.operand_eq]
    have hroom : s₀.RoomFor (Result.state (s₀.sumOf a b (l.evaluate s₀ (f :: outward))
        (r.evaluate s₀ (f :: outward)) log)).texts.length := by
      rw [Addend.evaluate, left.operand_eq, right.operand_eq, Evaluation.leaving] at room
      split at room <;> rename_i hs <;> rw [hs] <;> exact room
    exact Runs.sum hnone left right (ihl (by omega)) (ihr (by omega)) hm' hrt' (fun _ => htrace')
      (fun _ _ => rfl) hroom

/-! ## The operator -/

/-- What an addition leaves of a machine, when its evaluation left the given log. -/
structure Leaves (base : List String) (m : Machine State) (log : Log) (m' : Machine State) : Prop where
  /-- Current frame, depth, memory and captured variables are as before, and so are the frames. -/
  resumed : m.Resumed m'
  /-- In particular, no linked frame has changed. -/
  linked : ∀ id, (m.frames.get id).state = .active → m'.frames.get id = m.frames.get id
  walk : Chain.walk m' = Chain.walk m
  represented : m'.Represented
  /-- There is a trace for every call made: the functions on the path outwards, above the trace of
  before. -/
  traces : m'.runtime.traces =
    m.runtime.traces ++ log.calls.map fun path => path.map m.runtime.callLine ++ base
  /-- Texts were made and additions counted as well, and nothing else. -/
  runtime : m'.runtime = m.runtime.after base log

theorem Leaves.of_resumed (hm : m.Represented) (hres : m.Resumed m')
    (hrt : m'.runtime = m.runtime.after base log) : Leaves base m log m' where
  resumed := hres
  linked id hid := by
    refine hres.frames id (Nat.lt_of_not_le fun hle => ?_)
    obtain ⟨s, hs⟩ := hm
    exact hs.idle hle hid
  walk := by
    obtain ⟨s, hs⟩ := hm
    exact hs.walk_resumed hres
  represented := hm.resumed hres
  traces := by rw [hrt]; rfl
  runtime := hrt

theorem Answers.leaves {v : Value} {out : EStateM.Result Stop (Machine State) Value}
    (hm : m.Represented) (h : Answers m.runtime base m (.ok v log) out) :
    ∃ m', out = .ok v m' ∧ m'.pending = m.pending ∧ Leaves base m log m' := by
  cases h with
  | ok _ _ resumed runtime pending => exact ⟨_, rfl, pending, .of_resumed hm resumed runtime⟩

theorem Answers.leaves_failed {e : Exception} {out : EStateM.Result Stop (Machine State) Value}
    (hm : m.Represented) (h : Answers m.runtime base m (.error e log) out) :
    ∃ m', out = .ok .exception m' ∧ m'.pending = some e ∧ Leaves base m log m' := by
  cases h with
  | error _ resumed runtime pending => exact ⟨_, rfl, pending, .of_resumed hm resumed runtime⟩

/-- The addition operator adds up two trees. -/
structure AddsUp (base : List String) (m : Machine State) (l r : Addend)
    (out : EStateM.Result Stop (Machine State) Value) : Prop where
  /-- Without a failure, the sum is answered, every call of the trees was made, in post-order, and what
  was pending still is. -/
  answered : ∀ v log, m.runtime.sumOf l.operand r.operand (l.evaluate m.runtime [])
      (r.evaluate m.runtime []) {} = .ok v log → m.runtime.RoomFor log.texts.length →
    log.calls = l.paths [] ++ r.paths [] ∧
      ∃ m', out = .ok v m' ∧ m'.pending = m.pending ∧ Leaves base m log m'
  /-- The first exception is pending in place of any older, and the answer is the sentinel. Of the calls
  of the trees, those up to there were made, in post-order. -/
  failed : ∀ e log, m.runtime.sumOf l.operand r.operand (l.evaluate m.runtime [])
      (r.evaluate m.runtime []) {} = .error e log → m.runtime.RoomFor log.texts.length →
    log.calls.Sublist (l.paths [] ++ r.paths []) ∧
      ∃ m', out = .ok .exception m' ∧ m'.pending = some e ∧ Leaves base m log m'

/-- **Nested additions keep stack, traces and exceptions straight.** The operands of an addition unfold
to trees of calls, and the addition does what these trees add up to. -/
theorem nested_additions (power : Double → Double → Double) (m : Machine State)
    (hm : m.Represented) (hnone : m.runtime.failNext = none) (x y : Value)
    (hx : m.runtime.Evaluable x) (hy : m.runtime.Evaluable y) (base : List String)
    (htrace : (m.runtime.code? x).isSome = true ∨ (m.runtime.code? y).isSome = true →
      ∃ entries, objectModel.trace m = .ok entries m ∧ entries.map TraceEntry.report = base) :
    ∃ l r, m.runtime.Unfolds x l ∧ m.runtime.Unfolds y r ∧
      AddsUp base m l r ((interpreterWith power).binary .add x y m) := by
  obtain ⟨l, hl, hlh⟩ := hx.exists_unfolds
  obtain ⟨r, hr, hrh⟩ := hy.exists_unfolds
  refine ⟨l, r, hl, hr, ?_⟩
  have htraced : (m.runtime.code? x).isSome = true ∨ (m.runtime.code? y).isSome = true →
      Traced m.runtime base [] m := fun h => by
    obtain ⟨entries, he, hreport⟩ := htrace h
    exact ⟨entries, chainTrace_of_trace he, hreport⟩
  have hrt : m.runtime = m.runtime.after base {} := State.after_nil.symm
  have hentry : ∀ m', m'.runtime = m.runtime.after base {} →
      (add (.pair x y)).run m' =
        (addEntry (plusWithin m.runtime.functionCount) (.pair x y)).run m' := fun m' hm' => by
    have hget : (get : Attempt State (Machine State)).run m' = .ok (.ok m') m' := rfl
    rw [add, Attempt.bind_of_ok hget, hm', State.after_nil]
  have hmade := hl.sum_made hr (hl.evaluate_made []) (hr.evaluate_made []) {}
  have hsum := Runs.sum hnone hl hr (hl.runs hnone hlh) (hr.runs hnone hrh) hm hrt htraced hentry
  rw [binary_eq]
  constructor
  case answered =>
    intro v log hv room
    rw [hl.operand_eq, hr.operand_eq] at hv
    rw [hv] at hmade hsum
    exact ⟨by simpa using hmade.all v log rfl, (hsum room).leaves hm⟩
  case failed =>
    intro e log hv room
    rw [hl.operand_eq, hr.operand_eq] at hv
    rw [hv] at hmade hsum
    obtain ⟨made, hcalls, hsub⟩ := hmade.some
    obtain rfl : log.calls = made := hcalls.trans (List.nil_append made)
    exact ⟨hsub, (hsum room).leaves_failed hm⟩

/-! ### A failure in a nested call -/

namespace Nested

def symbol : Value := .boxed HeapTag.symbol.box (cellAddress 0)

def inner : Value := .boxed HeapTag.object.box (cellAddress 1)

def outer : Value := .boxed HeapTag.object.box (cellAddress 2)

/-- A function that adds 1 to a symbol, and one that adds 100 to what that one gives. -/
def heap : State where
  cells := #[.text "Symbol()",
    .function { name := some "inner", codeLength := 4, constants := #[symbol, .ofInt 1] } [],
    .function { name := some "outer", codeLength := 4, constants := #[inner, .ofInt 100] } []]

theorem leadsTo {v w : Value} (h : heap.LeadsTo v w) :
    (v = outer ∧ (w = inner ∨ w = .ofInt 100)) ∨ (v = inner ∧ (w = symbol ∨ w = .ofInt 1)) := by
  obtain ⟨code, hcode, hw⟩ := h
  have hv : v ∈ [inner, outer] := State.mem_functions hcode
  rw [List.mem_pair] at hv
  rcases hv with rfl | rfl
  · cases hcode
    exact .inr ⟨rfl, hw.imp (fun h => (Option.some.inj h).symm) fun h => (Option.some.inj h).symm⟩
  · cases hcode
    exact .inl ⟨rfl, hw.imp (fun h => (Option.some.inj h).symm) fun h => (Option.some.inj h).symm⟩

/-- What can be met in the heap. -/
def values : List Value := [outer, inner, symbol, .ofInt 100, .ofInt 1]

theorem evaluable {v : Value} (hv : v ∈ values) : heap.Evaluable v := by
  have hreach : ∀ {w}, heap.Reaches v w → w ∈ values := fun h => by
    induction h with
    | refl => exact hv
    | tail _ hw _ =>
      rcases leadsTo hw with ⟨-, rfl | rfl⟩ | ⟨-, rfl | rfl⟩ <;> decide
  have holder : ∀ w u, heap.LeadsTo w u → u.payload < w.payload := fun w u h => by
    rcases leadsTo h with ⟨rfl, rfl | rfl⟩ | ⟨rfl, rfl | rfl⟩ <;> decide
  constructor
  case shown => exact fun w hw => (by decide : ∀ w ∈ values, w.dangling = false) w (hreach hw)
  case acyclic => exact fun w _ => State.acyclic_of_older (fun v w h _ => holder v w h) w
  case callable =>
    intro w code _ hcode
    have hw : w ∈ [inner, outer] := State.mem_functions hcode
    rw [List.mem_pair] at hw
    rcases hw with rfl | rfl <;> cases hcode <;> exact ⟨rfl, by decide⟩

theorem unfolds_one : heap.Unfolds (.ofInt 1) (.plain (.ofInt 1)) := .plain (by decide) rfl

theorem unfolds_outer : heap.Unfolds outer
    (.call outer (.call inner (.plain symbol) (.plain (.ofInt 1))) (.plain (.ofInt 100))) :=
  .call rfl rfl rfl rfl (.call rfl rfl rfl rfl (.plain (by decide) rfl) unfolds_one)
    (.plain (by decide) rfl)

/-- Nothing is linked, and an older exception is pending. -/
def start : Machine State := { runtime := heap, pending := some (.error .rangeError "older") }

end Nested

open Nested in
/-- The symbol's failure passes through both calls, and both leave their trace. -/
theorem nested_additions_failing : start.Represented ∧ heap.failNext = none ∧
    heap.Evaluable outer ∧ heap.Evaluable (.ofInt 1) ∧
    (∃ entries, objectModel.trace start = .ok entries start ∧ entries.map TraceEntry.report = []) ∧
    ∃ m, interpreter.binary .add outer (.ofInt 1) start = .ok .exception m ∧
      m.pending = some (.typeError "cannot convert a Symbol to a number") ∧
      m.runtime.traces = [["at inner", "at outer"], ["at outer"]] := by
  have hrest : start.AtRest :=
    ⟨rfl, fun _ => (by decide : FrameState.unlinked ≠ .active), fun _ => rfl⟩
  have houter : heap.Evaluable outer := evaluable (by decide)
  have hone : heap.Evaluable (.ofInt 1) := evaluable (by decide)
  have htrace : ∃ entries, objectModel.trace start = .ok entries start ∧
      entries.map TraceEntry.report = [] := ⟨[], rfl, rfl⟩
  refine ⟨⟨_, hrest.represents⟩, rfl, houter, hone, htrace, ?_⟩
  obtain ⟨l, r, hl, hr, hadds⟩ := nested_additions Double.power start ⟨_, hrest.represents⟩ rfl outer
    (.ofInt 1) houter hone [] fun _ => htrace
  obtain rfl := hl.unique unfolds_outer
  obtain rfl := hr.unique unfolds_one
  obtain ⟨-, m, hm, hpending, hleaves⟩ := hadds.failed (.typeError "cannot convert a Symbol to a number")
    { handedOff := 3, calls := [[inner, outer], [outer]] } rfl (by decide)
  exact ⟨m, hm, hpending, hleaves.traces⟩

end Reference

end TieredVm
