import TieredVm.Proofs.Run
import TieredVm.Reference.Entries

/-!
# What each step of the reference interpreter's operators does

An operator's entry takes note of being called, converts its operands and answers. The lemmas here
open these steps one by one, for the cases in which they go through or refuse with an exception.

* `Attempt.bind_of_ok`, `Attempt.bind_of_error`: an exception ends an attempt.
* `entered_of_none`, `observe_of_ok`, `convert_of_run`: the steps.
* `newText_of_room`, `newText_of_full`: a text gets the next cell, while there is room for it.
-/

namespace TieredVm

namespace Attempt

variable {R α β : Type} {m m' : Machine R} {a : α} {e : Exception}

theorem bind_of_ok {x : Attempt R α} (h : x.run m = .ok (.ok a) m') (f : α → Attempt R β) :
    (x >>= f).run m = (f a).run m' := by
  rw [ExceptT.run_bind, Run.bind_of_ok h]

theorem bind_of_error {x : Attempt R α} (h : x.run m = .ok (.error e) m') (f : α → Attempt R β) :
    (x >>= f).run m = .ok (.error e) m' := by
  rw [ExceptT.run_bind, Run.bind_of_ok h]
  rfl

theorem lift_of_ok {act : Run R α} (h : act m = .ok a m') :
    (lift act).run m = .ok (.ok a) m' := by
  show EStateM.map _ act m = _
  rw [EStateM.map, h]

end Attempt

theorem Run.ok_of_onRuntime {R α : Type} {act : Local R α} {m m' : Machine R} {a : α}
    (h : Run.onRuntime act m = .ok a m') : act m.runtime = .ok a m'.runtime := by
  unfold Run.onRuntime at h
  cases ha : act m.runtime with
  | ok b s =>
    rw [ha] at h
    cases h
    rfl
  | error e s =>
    rw [ha] at h
    cases e with
    | abort a => cases h
    | panic p => cases p <;> cases h

namespace Reference

/-! ## Steps on the interpreter's own state -/

section

variable {s : State} {α : Type} {a : α}

theorem noteCall_apply (name : String) (s : State) :
    noteCall name s = .ok () { s with calls := s.calls ++ [name] } := rfl

theorem release_apply (v : Value) (s : State) :
    release v s = .ok () { s with released := s.released ++ [v] } := rfl

theorem observeLocal_of_ok {f : State → Except Violation α} (h : f s = .ok a) :
    observeLocal f s = .ok a s := by
  rw [observeLocal, Result.bind_of_ok (Result.get_apply s), h]
  rfl

theorem observeLocal_of_error {f : State → Except Violation α} {v : Violation} (h : f s = .error v) :
    observeLocal f s = .error (Stop.violation v) s := by
  rw [observeLocal, Result.bind_of_ok (Result.get_apply s), h]
  rfl

/-- A text gets the next cell. -/
theorem newText_of_room {p : Pointer} (h : Pointer.ofAddr? (cellAddress s.cells.size) = some p)
    (t : String) :
    newText t s = .ok (.ofPointer .string p) { s with cells := s.cells.push (.text t) } := by
  rw [newText, allocate, Result.bind_of_ok (Result.get_apply s), h]
  rfl

theorem newText_of_full (h : Pointer.ofAddr? (cellAddress s.cells.size) = none) (t : String) :
    newText t s = .error (.abort .outOfMemory) s := by
  rw [newText, allocate, Result.bind_of_ok (Result.get_apply s), h]
  rfl

end

/-! ## Steps of an entry -/

variable {m : Machine State} {α : Type} {a : α}

theorem entered_of_none (h : m.runtime.failNext = none) (point : EntryPoint) :
    (entered point).run m = .ok (.ok ())
      { m with runtime := { m.runtime with calls := m.runtime.calls ++ [point.name] } } := by
  have hrun : (Run.onRuntime (do
      noteCall point.name
      let s ← get
      set { s with failNext := none }
      return s.failNext) : Run State (Option Exception)) m = .ok none
        { m with runtime := { m.runtime with calls := m.runtime.calls ++ [point.name] } } := by
    show EStateM.Result.ok m.runtime.failNext _ = _
    rw [h, ← h]
  rw [entered, Attempt.bind_of_ok (Attempt.lift_of_ok hrun)]
  rfl

theorem observe_of_ok {f : State → Except Violation α} (h : f m.runtime = .ok a) :
    observe f m = .ok a m := by
  rw [observe, Run.bind_of_ok (Run.get_apply m), h]
  rfl

theorem convert_of_run {f : State → Converted α} {r : Except Exception α}
    (h : (f m.runtime).run = .ok r) : (convert f).run m = .ok r m := by
  have hread : observe (fun s => (f s).run) m = .ok r m := observe_of_ok h
  rw [convert, Attempt.bind_of_ok (Attempt.lift_of_ok hread)]
  cases r <;> rfl

theorem onRuntime_newText {p : Pointer} (h : p.addr = cellAddress m.runtime.cells.size) (t : String) :
    Run.onRuntime (newText t) m = .ok (.ofPointer .string p)
      { m with runtime := { m.runtime with cells := m.runtime.cells.push (.text t) } } := by
  rw [Run.onRuntime, newText_of_room (by rw [← h, Pointer.ofAddr?_addr])]

end Reference

end TieredVm
