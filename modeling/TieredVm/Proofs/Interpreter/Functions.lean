import TieredVm.Interpreter.Functions
import TieredVm.Proofs.Run

/-!
# What a function object answers

A function object holds a captured variable (`Holds`) when it has bytecode, is a closure of as many
variables as the bytecode declares, and the index is among them. Reading a captured variable answers
its value, duplicated, exactly when the function object holds one (`capturedOf_of_holds`,
`holds_of_capturedOf`), and is refused otherwise (`capturedOf_cases`).

`declared` is the code that a frame of the function is held to. `enter_apply` and `attachLocals_apply`
say what the transitions make of it.
-/

namespace TieredVm

variable {R : Type}

namespace Value

/-- Only a reference to nothing has no pointer to answer. -/
theorem asPointer?_eq_error {t : Tag} {v : Value} {e : Violation} (h : v.asPointer? t = .error e) :
    ∃ u, e = .nullPointer u := by
  unfold asPointer? at h
  cases hk : v.kind with
  | error e' =>
    rw [hk] at h
    obtain rfl : e' = e := Except.error.inj h
    exact kind_eq_error hk
  | ok k =>
    rw [hk] at h
    cases k <;> exact absurd h (by simp [bind, Except.bind, pure, Except.pure])

/-- What can be shown can be asked for its pointer. -/
theorem asPointer?_of_shown {t : Tag} {v : Value} (h : v.dangling = false) :
    ∃ p, v.asPointer? t = .ok p := by
  unfold dangling at h
  unfold asPointer?
  cases hk : v.kind with
  | error e =>
    rw [hk] at h
    cases h
  | ok k => cases k <;> exact ⟨_, rfl⟩

/-- What refers to an object has a kind. -/
theorem kind_of_asPointer? {t : Tag} {v : Value} {p : Pointer} (h : v.asPointer? t = .ok (some p)) :
    ∃ k, v.kind = .ok k := by
  unfold asPointer? at h
  cases hk : v.kind with
  | ok k => exact ⟨k, rfl⟩
  | error e =>
    rw [hk] at h
    exact absurd h (by simp [bind, Except.bind])

end Value

namespace ObjectModel

variable (O : ObjectModel R) {m m' : Machine R} {function : Value} {index : Nat}

/-- A function object holds a captured variable where its bytecode declares one. -/
def Holds (m : Machine R) (function : Value) (index : Nat)
    (c : Capture) : Prop :=
  ∃ p code held, function.asPointer? (.heap .object) = .ok (some p) ∧
    O.bytecode m.runtime p = some code ∧ O.captures m.runtime p = some held ∧
    held.length = code.closureVars.length ∧ held[index]? = some c

theorem codeOf?_apply (function : Value) : O.codeOf? function m =
    (Run.expect ((function.asPointer? (.heap .object)).map fun p => p.bind (O.bytecode m.runtime))
      : Run R _) m := by
  unfold codeOf?
  cases function.asPointer? (.heap .object) <;> rfl

theorem objectOf_of_pointer {p : Pointer} (h : function.asPointer? (.heap .object) = .ok (some p))
    (use : FunctionUse) : (objectOf use function : Run R Pointer) m = .ok p m := by
  rw [objectOf, h, Run.expect_ok, pure_bind]
  rfl

theorem codeOf_of_bytecode {p : Pointer} {code : Bytecode}
    (h : function.asPointer? (.heap .object) = .ok (some p))
    (hcode : O.bytecode m.runtime p = some code) : O.codeOf function m = .ok code m := by
  rw [codeOf, Run.bind_of_ok (objectOf_of_pointer h _), Run.bind_of_ok (Run.get_apply m), hcode]
  rfl

theorem capturedOf_of_holds {c : Capture} (h : O.Holds m function index c) :
    O.capturedOf function index m = Run.onRuntime (O.duplicate (m.captureValue c)) m := by
  obtain ⟨p, code, held, hp, hcode, hheld, hlen, hc⟩ := h
  have hi : ¬ code.closureVars.length ≤ index := by
    have hlt := (List.getElem?_eq_some_iff.mp hc).1
    omega
  rw [capturedOf, Run.bind_of_ok (objectOf_of_pointer hp _),
    Run.bind_of_ok (O.codeOf_of_bytecode hp hcode)]
  simp only [if_neg hi]
  rw [Run.bind_of_ok (Run.get_apply m), hheld]
  simp only [hlen, ne_eq, not_true_eq_false, if_false, hc]
  rw [Run.bind_of_ok (Run.get_apply m)]

theorem objectOf_of_ok {use : FunctionUse} {p : Pointer} {m' : Machine R}
    (h : (objectOf use function : Run R Pointer) m = .ok p m') :
    function.asPointer? (.heap .object) = .ok (some p) ∧ m' = m := by
  unfold objectOf at h
  cases hp : function.asPointer? (.heap .object) with
  | error v =>
    rw [hp, Run.expect_error] at h
    obtain ⟨_, _, hv, -⟩ := Run.ok_of_bind h
    exact absurd hv Run.violate_ne_ok
  | ok o =>
    rw [hp, Run.expect_ok, pure_bind] at h
    cases o with
    | none => exact absurd h Run.violate_ne_ok
    | some q =>
      cases h
      exact ⟨rfl, rfl⟩

theorem codeOf_of_ok {code : Bytecode} {m' : Machine R} (h : O.codeOf function m = .ok code m') :
    ∃ p, function.asPointer? (.heap .object) = .ok (some p) ∧
      O.bytecode m.runtime p = some code ∧ m' = m := by
  obtain ⟨p, n, ho, hn⟩ := Run.ok_of_bind h
  obtain ⟨hp, rfl⟩ := objectOf_of_ok ho
  refine ⟨p, hp, ?_⟩
  rw [Run.bind_of_ok (Run.get_apply n)] at hn
  cases hcode : O.bytecode n.runtime p with
  | none =>
    rw [hcode] at hn
    obtain ⟨_, _, -, hv⟩ := Run.ok_of_bind hn
    exact absurd hv Run.violate_ne_ok
  | some q =>
    rw [hcode] at hn
    cases hn
    exact ⟨rfl, rfl⟩

/-! ## Every other read is refused -/

/-- A captured variable of a function with bytecode is held, or the closure does not match what the
bytecode declares. -/
theorem capturedOf_of_bytecode {p : Pointer} {code : Bytecode}
    (hp : function.asPointer? (.heap .object) = .ok (some p))
    (hcode : O.bytecode m.runtime p = some code) :
    (∃ c, O.Holds m function index c) ∨
      ∃ v, O.capturedOf function index m = Run.violate v m ∧
        ∀ f n, v = .closureOutOfRange index f n → n ≤ index := by
  obtain ⟨k, hk⟩ := Value.kind_of_asPointer? hp
  rw [capturedOf, Run.bind_of_ok (objectOf_of_pointer hp _),
    Run.bind_of_ok (O.codeOf_of_bytecode hp hcode)]
  by_cases hi : code.closureVars.length ≤ index
  · refine .inr ⟨.closureOutOfRange index code.displayName code.closureVars.length, ?_, ?_⟩
    · simp only [if_pos hi]
      rfl
    · intro f n h
      cases h
      exact hi
  simp only [if_neg hi]
  rw [Run.bind_of_ok (Run.get_apply m)]
  cases hheld : O.captures m.runtime p with
  | none =>
    refine .inr ⟨.notClosure k, ?_, fun _ _ h => by cases h⟩
    rw [hk]
    rfl
  | some held =>
    by_cases hlen : held.length = code.closureVars.length
    · have hlt : index < held.length := by omega
      exact .inl ⟨held[index], p, code, held, hp, hcode, hheld, hlen, List.getElem?_eq_getElem hlt⟩
    · refine .inr ⟨.captureMismatch code.displayName held.length code.closureVars.length, ?_,
        fun _ _ h => by cases h⟩
      simp only [ne_eq, hlen, not_false_eq_true, if_true]
      rfl

/-- A function object holds the captured variable, or reading it is refused. It is refused for its
index only if fewer are declared. -/
theorem capturedOf_cases (function : Value) (index : Nat) :
    (∃ c, O.Holds m function index c) ∨
      ∃ v, O.capturedOf function index m = Run.violate v m ∧
        ∀ f n, v = .closureOutOfRange index f n → n ≤ index := by
  cases hp : function.asPointer? (.heap .object) with
  | error v =>
    obtain ⟨u, rfl⟩ := Value.asPointer?_eq_error hp
    refine .inr ⟨.nullPointer u, ?_, fun _ _ h => by cases h⟩
    rw [capturedOf, Run.bind_apply, objectOf, hp]
    rfl
  | ok o =>
    cases o with
    | none =>
      refine .inr ⟨.notAnObject .closureValue function.tag, ?_, fun _ _ h => by cases h⟩
      rw [capturedOf, Run.bind_apply, objectOf, hp]
      rfl
    | some p =>
      cases hcode : O.bytecode m.runtime p with
      | some code => exact O.capturedOf_of_bytecode hp hcode
      | none =>
        obtain ⟨k, hk⟩ := Value.kind_of_asPointer? hp
        have hobject := fun use => objectOf_of_pointer (R := R) (m := m) hp use
        refine .inr ⟨.notBytecode k, ?_, fun _ _ h => by cases h⟩
        rw [capturedOf, Run.bind_of_ok (hobject _), Run.bind_apply, codeOf,
          Run.bind_of_ok (hobject _), Run.bind_of_ok (Run.get_apply m), hcode, hk]
        rfl

/-- Only a closure answers a captured variable. -/
theorem holds_of_capturedOf {v : Value} (h : O.capturedOf function index m = .ok v m') :
    ∃ c, O.Holds m function index c := by
  rcases O.capturedOf_cases (m := m) function index with hc | ⟨e, he, -⟩
  · exact hc
  · exact absurd (he.symm.trans h) Run.violate_ne_ok

/-! ## The code that frames are held to -/

/-- The bytecode of a value, if it is a bytecode function. A reference to nothing has no answer. -/
def declared (s : R) (function : Value) : Except Violation (Option Bytecode) :=
  (function.asPointer? (.heap .object)).map fun p => p.bind (O.bytecode s)

/-- A frame is entered for a function that has no bytecode, or with all its declared arguments. -/
theorem enter_apply (frame : Option FrameId) (function : Value) (args : Address) (argCount : Nat) :
    O.enter frame function args argCount m =
      match O.declared m.runtime function with
      | .error v => Run.violate v m
      | .ok none => Chain.enter frame function args argCount m
      | .ok (some code) =>
        if argCount < code.argCount then
          Run.violate (.tooFewArguments code.displayName code.argCount argCount) m
        else Chain.enter frame function args argCount m := by
  unfold enter
  rw [Run.bind_apply, codeOf?_apply, ← declared]
  cases O.declared m.runtime function with
  | error v => rfl
  | ok layout =>
    cases layout with
    | none => rfl
    | some code =>
      simp only [Run.expect_ok, Run.pure_apply]
      split <;> rfl

/-- A frame gets locals if its function has no bytecode, or exactly those it declares. -/
theorem attachLocals_apply (id : FrameId) (locals : Address) (count : Nat) :
    O.attachLocals (some id) locals count m =
      match O.declared m.runtime (m.frames.get id).function with
      | .error v => Run.violate v m
      | .ok none => Chain.attachLocals (some id) locals count m
      | .ok (some code) =>
        if count ≠ code.varCount then
          Run.violate (.wrongLocalCount code.displayName code.varCount count) m
        else Chain.attachLocals (some id) locals count m := by
  unfold attachLocals
  simp only
  rw [Run.bind_of_ok (Run.get_apply m), Run.bind_apply, codeOf?_apply, ← declared]
  cases O.declared m.runtime (m.frames.get id).function with
  | error v => rfl
  | ok layout =>
    cases layout with
    | none => rfl
    | some code =>
      simp only [Run.expect_ok, Run.pure_apply]
      split <;> rfl

theorem declared_of_codeOf {code : Bytecode} (h : O.codeOf function m = .ok code m') :
    O.declared m.runtime function = .ok (some code) := by
  obtain ⟨p, hp, hcode, -⟩ := O.codeOf_of_ok h
  rw [declared, hp]
  exact congrArg Except.ok hcode

end ObjectModel

end TieredVm
