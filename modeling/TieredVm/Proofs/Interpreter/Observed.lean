import TieredVm.Operator.Apply
import TieredVm.Proofs.Run

/-!
# An interpreter whose calls are observed

`Interpreter.observed` is an interpreter with a list next to its state, to which every call made to
it is added. It does what the interpreter does, and its entries run with the interpreter's own
state; so what an entry calls in turn is not listed, only what is called from outside.

* `Result.observed`: a result, with a list of calls next to the state it leaves.
* `emit_observed`, `raise_observed`: what needs no interpreter calls none.
* `onRuntime_observed`, `entry_observed`: one call is one entry of the list.
-/

namespace TieredVm

variable {R α β : Type}

/-- A call made to the interpreter. -/
inductive Call where
  /-- An operator's entry, with the operands in slot order. -/
  | entry (e : EntryPoint) (operands : List Value)
  | duplicate (v : Value)
  | truth (v : Value)
  | category (v : Value)
  | categoryText (c : Category)
  | release (v : Value)
deriving DecidableEq

/-- An interpreter's state with the calls made so far. -/
abbrev Observed (R : Type) := R × List Call

/-! ## Machines and results -/

/-- The machine with a list of calls next to the interpreter's state. -/
def Machine.observed (m : Machine R) (calls : List Call) : Machine (Observed R) :=
  { m with runtime := (m.runtime, calls) }

/-- The machine without the list of calls. -/
def Machine.plain (m : Machine (Observed R)) : Machine R := { m with runtime := m.runtime.1 }

/-- A result with a list of calls next to the state it leaves. -/
def Result.observed (calls : List Call) :
    EStateM.Result Stop (Machine R) α → EStateM.Result Stop (Machine (Observed R)) α
  | .ok a m => .ok a (m.observed calls)
  | .error e m => .error e (m.observed calls)

/-! ## The interpreter -/

/-- An operation that counts as one call. -/
def Run.observed (c : Call) (act : Run R α) : Run (Observed R) α := fun m =>
  Result.observed (m.runtime.2 ++ [c]) (act m.plain)

/-- A result on the interpreter's state with a list of calls next to it. -/
def Result.listing (calls : List Call) : EStateM.Result Stop R α → EStateM.Result Stop (Observed R) α
  | .ok a r => .ok a (r, calls)
  | .error e r => .error e (r, calls)

/-- An operation on the interpreter's state that counts as one call. -/
def Local.observed (c : Call) (act : Local R α) : Local (Observed R) α := fun r =>
  Result.listing (r.2 ++ [c]) (act r.1)

/-- An entry that counts as one call. -/
def Entry.observed {n : Nat} (e : EntryPoint) (entry : Entry R n) : Entry (Observed R) n :=
  fun operands => ExceptT.mk (Run.observed (.entry e operands.toList) (entry operands).run)

/-- The interpreter whose calls are listed. -/
def Interpreter.observed (I : Interpreter R) : Interpreter (Observed R) where
  bytecode r := I.bytecode r.1
  captures r := I.captures r.1
  duplicate v := Local.observed (.duplicate v) (I.duplicate v)
  add := Entry.observed .add I.add
  arith op := Entry.observed (.arith op) (I.arith op)
  logic op := Entry.observed (.logic op) (I.logic op)
  shr := Entry.observed .shr I.shr
  unary op := Entry.observed (.unary op) (I.unary op)
  relational op := Entry.observed (.relational op) (I.relational op)
  equal n := Entry.observed (.equal n) (I.equal n)
  strictEqual n := Entry.observed (.strictEqual n) (I.strictEqual n)
  instanceOf := Entry.observed .instanceOf I.instanceOf
  contains := Entry.observed .contains I.contains
  truth v := Local.observed (.truth v) (I.truth v)
  category v := Local.observed (.category v) (I.category v)
  categoryText c := Local.observed (.categoryText c) (I.categoryText c)
  release v := Local.observed (.release v) (I.release v)

/-- Every binary operator's entry is listed as its own entry point. -/
theorem BinaryOp.entry_observed (op : BinaryOp) (I : Interpreter R) :
    op.entry I.observed = Entry.observed op.entryPoint (op.entry I) := by
  cases op <;> rfl

/-! ## What is listed -/

variable (m : Machine R) (calls : List Call)

/-- What follows the calls of an operation makes none. -/
theorem Run.bind_observed {x : Run R α} {y : Run (Observed R) α} {f : α → Run R β}
    {g : α → Run (Observed R) β} {made : List Call}
    (hxy : y (m.observed calls) = Result.observed made (x m))
    (hfg : ∀ a m', g a (m'.observed made) = Result.observed made (f a m')) :
    (y >>= g) (m.observed calls) = Result.observed made ((x >>= f) m) := by
  rw [Run.bind_apply, Run.bind_apply, hxy]
  cases x m with
  | ok a m' => exact hfg a m'
  | error e m' => rfl

theorem Run.emit_observed (e : Event) :
    emit e (m.observed calls) = Result.observed calls (emit e m) := by
  cases hl : e.line with
  | ok line => rw [emit_of_line hl, emit_of_line hl]; rfl
  | error v =>
    rw [emit_of_error hl, emit_of_error hl]
    show (if m.journal.isSome then _ else _) = _
    split <;> rfl

theorem Machine.raise_observed (e : Exception) :
    raise e (m.observed calls) = Result.observed calls (raise e m) :=
  Run.bind_observed m calls (Run.emit_observed m calls (.raised e)) fun _ _ => rfl

/-- What operations on the interpreter's state alone list is listed. -/
theorem Run.onRuntime_observed {x : Local R α} {y : Local (Observed R) α} {made : List Call}
    (h : y (m.runtime, calls) = Result.listing made (x m.runtime)) :
    onRuntime y (m.observed calls) = Result.observed made (onRuntime x m) := by
  have hy : y (m.observed calls).runtime = Result.listing made (x m.runtime) := h
  simp only [onRuntime, hy]
  cases x m.runtime with
  | ok a r => rfl
  | error s r =>
    cases s with
    | abort a => rfl
    | panic p => cases p <;> rfl

end TieredVm
