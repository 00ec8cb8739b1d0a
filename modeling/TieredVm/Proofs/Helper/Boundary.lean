import Mathlib.Algebra.Group.Int.Defs
import Mathlib.Algebra.Group.Nat.Defs
import Mathlib.Logic.Function.Basic
import TieredVm.Helper.Call
import TieredVm.Proofs.Run

/-!
# Helpers and the operations behind them

Generated code knows an operation only by a kind, under which the table has a routine on signed words.
`HelperCall` is the operation that a kind stands for, on what the words stand for: values, frames,
buffers, counts and offsets. `HelperCall.Says` reads words as such a call, parameter by parameter.

* `Says.iff_read`: words say at most one call, and they say one exactly when their counts, indices and
  offsets are in range (`HelperKind.InRange`).
* `HelperCall.read_words`: no call is out of reach whose addresses and numbers words can hold.
* `HelperKind.body_routine`: the routine in the table is the one for the helper, kind by kind: it does
  what the words say, with their parameters in their places.
* `callHelper_refines`: all of it, for every helper, every interpreter and all words, with the boundary
  that turns panics into aborts.
-/

namespace TieredVm

variable {R : Type}

/-! ## Words -/

namespace Word

/-- The word that points at a frame; no frame is zero. -/
def ofFrame? (frame : Option FrameId) : Word := frame.elim 0 ofAddress

/-- Every word is the pattern of exactly one value. -/
theorem ofValue_bijective : Function.Bijective ofValue :=
  ⟨Function.LeftInverse.injective toValue_ofValue, fun w => ⟨w.toValue, ofValue_toValue w⟩⟩

theorem toAddress_ofAddress {a : Address} (h : a < 2 ^ 64) : (ofAddress a).toAddress = a := by
  simp [ofAddress, toAddress, UInt64.toNat_ofNat_of_lt' h]

theorem toFrame?_ofFrame? {frame : Option FrameId}
    (h : ∀ id, frame = some id → 0 < id ∧ id < 2 ^ 64) : (ofFrame? frame).toFrame? = frame := by
  cases frame with
  | none => rfl
  | some id =>
    obtain ⟨hpos, hlt⟩ := h id rfl
    have haddress : (ofAddress id).toAddress = id := toAddress_ofAddress hlt
    have hne : ofAddress id ≠ 0 := by
      intro hz
      rw [hz] at haddress
      exact absurd haddress (Nat.ne_of_lt hpos)
    show (if ofAddress id = 0 then none else some (ofAddress id).toAddress) = some id
    rw [if_neg hne, haddress]

/-- A count is what its word says, if that is a natural number. -/
theorem toLength_eq_ok {use : LengthUse} {w : Word} {n : Nat} :
    w.toLength use = .ok n ↔ w.toInt = n := by
  unfold toLength
  split
  · rw [Except.ok.injEq]
    omega
  · simp only [reduceCtorEq, false_iff]
    omega

theorem toLength_ofNat {use : LengthUse} {n : Nat} (h : n < 2 ^ 63) :
    toLength use (Int64.ofNat n) = .ok n :=
  toLength_eq_ok.mpr (Int64.toInt_ofNat_of_lt h)

/-- An offset is what its word says, if that is a 32-bit natural number. -/
theorem toPc_eq_ok {w : Word} {n : Nat} : w.toPc = .ok n ↔ w.toInt = n ∧ n < 2 ^ 32 := by
  unfold toPc
  split
  · rw [Except.ok.injEq]
    omega
  · simp only [reduceCtorEq, false_iff]
    omega

theorem toPc_ofNat {n : Nat} (h : n < 2 ^ 32) : toPc (Int64.ofNat n) = .ok n :=
  toPc_eq_ok.mpr ⟨Int64.toInt_ofNat_of_lt (by omega), h⟩

end Word

/-! ## Calls -/

/-- The operation behind a helper, with what its words stand for. -/
inductive HelperCall where
  | binary (op : BinaryOp) (x y : Value)
  | unary (op : UnaryOp) (x : Value)
  | logicalNot (x : Value)
  | toBool (x : Value)
  | typeOf (x : Value)
  | enter (frame : Option FrameId) (function : Value) (args : Address) (argCount : Nat)
  | attachLocals (frame : Option FrameId) (locals : Address) (count : Nat)
  | setPc (frame : Option FrameId) (pc : Nat)
  | exit (frame : Option FrameId)
  | constant (function : Value) (index : Nat)
  | captured (function : Value) (index : Nat)

namespace HelperCall

/-- The helper that makes the call. -/
def kind : HelperCall → HelperKind
  | binary op _ _ => .binary op
  | unary op _ => .unary op
  | logicalNot _ => .logicalNot
  | toBool _ => .toBool
  | typeOf _ => .typeOf
  | enter .. => .enter
  | attachLocals .. => .attachLocals
  | setPc .. => .setPc
  | exit _ => .exit
  | constant .. => .constant
  | captured .. => .captured

/-- Performs the operation. A value is answered as its pattern, truth as `1` or `0`, and a frame
transition answers `0`. -/
def perform (I : Interpreter R) : HelperCall → Run R Word
  | binary op x y => return .ofValue (← I.binary op x y)
  | unary op x => return .ofValue (← I.unaryOp op x)
  | logicalNot x => return .ofValue (← I.logicalNot x)
  | toBool x => return if ← I.toBool x then 1 else 0
  | typeOf x => return .ofValue (← I.typeOf x)
  | enter frame function args argCount => do
    I.enter frame function args argCount
    return 0
  | attachLocals frame locals count => do
    I.attachLocals frame locals count
    return 0
  | setPc frame pc => do
    I.setPc frame pc
    return 0
  | exit frame => do
    Chain.exit frame
    return 0
  | constant function index => return .ofValue (← I.constantOf function index)
  | captured function index => return .ofValue (← I.capturedOf function index)

/-- What the words of a helper say, in the order of its parameters. -/
inductive Says : (k : HelperKind) → Words k.wordCount → HelperCall → Prop where
  | binary (op : BinaryOp) (x y : Word) :
    Says (.binary op) #v[x, y] (.binary op x.toValue y.toValue)
  | unary (op : UnaryOp) (x : Word) : Says (.unary op) #v[x] (.unary op x.toValue)
  | logicalNot (x : Word) : Says .logicalNot #v[x] (.logicalNot x.toValue)
  | toBool (x : Word) : Says .toBool #v[x] (.toBool x.toValue)
  | typeOf (x : Word) : Says .typeOf #v[x] (.typeOf x.toValue)
  | enter (frame function argc argv : Word) {n : Nat} (hn : argc.toInt = n) :
    Says .enter #v[frame, function, argc, argv]
      (.enter frame.toFrame? function.toValue argv.toAddress n)
  | attachLocals (frame locals count : Word) {n : Nat} (hn : count.toInt = n) :
    Says .attachLocals #v[frame, locals, count]
      (.attachLocals frame.toFrame? locals.toAddress n)
  | setPc (frame pc : Word) {n : Nat} (hn : pc.toInt = n) (hlt : n < 2 ^ 32) :
    Says .setPc #v[frame, pc] (.setPc frame.toFrame? n)
  | exit (frame : Word) : Says .exit #v[frame] (.exit frame.toFrame?)
  | constant (function index : Word) {n : Nat} (hn : index.toInt = n) :
    Says .constant #v[function, index] (.constant function.toValue n)
  | captured (function index : Word) {n : Nat} (hn : index.toInt = n) :
    Says .captured #v[function, index] (.captured function.toValue n)

/-- Can words hold the addresses and the numbers of a call? -/
def FitsWords : HelperCall → Prop
  | enter frame _ args argCount =>
    (∀ id, frame = some id → 0 < id ∧ id < 2 ^ 64) ∧ args < 2 ^ 64 ∧ argCount < 2 ^ 63
  | attachLocals frame locals count =>
    (∀ id, frame = some id → 0 < id ∧ id < 2 ^ 64) ∧ locals < 2 ^ 64 ∧ count < 2 ^ 63
  | setPc frame pc => (∀ id, frame = some id → 0 < id ∧ id < 2 ^ 64) ∧ pc < 2 ^ 32
  | exit frame => ∀ id, frame = some id → 0 < id ∧ id < 2 ^ 64
  | constant _ index | captured _ index => index < 2 ^ 63
  | _ => True

end HelperCall

/-- Are the counts, indices and offsets among a helper's words in range? -/
def HelperKind.InRange : (k : HelperKind) → Words k.wordCount → Prop
  | .enter, a | .attachLocals, a => 0 ≤ (a.word 2).toInt
  | .setPc, a => 0 ≤ (a.word 1).toInt ∧ (a.word 1).toInt ≤ 2 ^ 32 - 1
  | .constant, a | .captured, a => 0 ≤ (a.word 1).toInt
  | _, _ => True

/-! ## Reading words -/

/-- The call that words say, or what is wrong with them. -/
def HelperKind.read : (k : HelperKind) → Words k.wordCount → Except Violation HelperCall
  | .binary op, a => .ok (.binary op (a.value 0) (a.value 1))
  | .unary op, a => .ok (.unary op (a.value 0))
  | .logicalNot, a => .ok (.logicalNot (a.value 0))
  | .toBool, a => .ok (.toBool (a.value 0))
  | .typeOf, a => .ok (.typeOf (a.value 0))
  | .enter, a => ((a.word 2).toLength .argumentCount).map
      (.enter (a.word 0).toFrame? (a.value 1) (a.word 3).toAddress)
  | .attachLocals, a => ((a.word 2).toLength .localCount).map
      (.attachLocals (a.word 0).toFrame? (a.word 1).toAddress)
  | .setPc, a => (a.word 1).toPc.map (.setPc (a.word 0).toFrame?)
  | .exit, a => .ok (.exit (a.word 0).toFrame?)
  | .constant, a => ((a.word 1).toLength .constantIndex).map (.constant (a.value 0))
  | .captured, a => ((a.word 1).toLength .closureIndex).map (.captured (a.value 0))

theorem Except.map_eq_ok {ε α β : Type} {x : Except ε α} {f : α → β} {b : β} :
    x.map f = .ok b ↔ ∃ a, x = .ok a ∧ f a = b := by
  cases x <;> simp [Except.map]

namespace HelperCall

/-- **Words say what is read from them, and nothing else.** -/
theorem Says.iff_read {k : HelperKind} {a : Words k.wordCount} {c : HelperCall} :
    Says k a c ↔ k.read a = .ok c := by
  constructor
  · intro h
    cases h with
    | enter frame function argc argv hn =>
      exact Except.map_eq_ok.mpr ⟨_, Word.toLength_eq_ok.mpr hn, rfl⟩
    | attachLocals frame locals count hn =>
      exact Except.map_eq_ok.mpr ⟨_, Word.toLength_eq_ok.mpr hn, rfl⟩
    | setPc frame pc hn hlt => exact Except.map_eq_ok.mpr ⟨_, Word.toPc_eq_ok.mpr ⟨hn, hlt⟩, rfl⟩
    | constant function index hn =>
      exact Except.map_eq_ok.mpr ⟨_, Word.toLength_eq_ok.mpr hn, rfl⟩
    | captured function index hn =>
      exact Except.map_eq_ok.mpr ⟨_, Word.toLength_eq_ok.mpr hn, rfl⟩
    | _ => rfl
  · intro h
    obtain ⟨⟨l⟩, hl⟩ := a
    cases k with
    | binary op =>
      match l, hl, h with
      | [x, y], _, h => cases h; exact .binary op x y
    | unary op =>
      match l, hl, h with
      | [x], _, h => cases h; exact .unary op x
    | logicalNot =>
      match l, hl, h with
      | [x], _, h => cases h; exact .logicalNot x
    | toBool =>
      match l, hl, h with
      | [x], _, h => cases h; exact .toBool x
    | typeOf =>
      match l, hl, h with
      | [x], _, h => cases h; exact .typeOf x
    | enter =>
      match l, hl, h with
      | [frame, function, argc, argv], _, h =>
        obtain ⟨n, hn, rfl⟩ := Except.map_eq_ok.mp h
        exact .enter frame function argc argv (Word.toLength_eq_ok.mp hn)
    | attachLocals =>
      match l, hl, h with
      | [frame, locals, count], _, h =>
        obtain ⟨n, hn, rfl⟩ := Except.map_eq_ok.mp h
        exact .attachLocals frame locals count (Word.toLength_eq_ok.mp hn)
    | setPc =>
      match l, hl, h with
      | [frame, pc], _, h =>
        obtain ⟨n, hn, rfl⟩ := Except.map_eq_ok.mp h
        obtain ⟨hn, hlt⟩ := Word.toPc_eq_ok.mp hn
        exact .setPc frame pc hn hlt
    | exit =>
      match l, hl, h with
      | [frame], _, h => cases h; exact .exit frame
    | constant =>
      match l, hl, h with
      | [function, index], _, h =>
        obtain ⟨n, hn, rfl⟩ := Except.map_eq_ok.mp h
        exact .constant function index (Word.toLength_eq_ok.mp hn)
    | captured =>
      match l, hl, h with
      | [function, index], _, h =>
        obtain ⟨n, hn, rfl⟩ := Except.map_eq_ok.mp h
        exact .captured function index (Word.toLength_eq_ok.mp hn)

/-- The words for a call. -/
def words : (c : HelperCall) → Words c.kind.wordCount
  | binary _ x y => #v[.ofValue x, .ofValue y]
  | unary _ x | logicalNot x | toBool x | typeOf x => #v[.ofValue x]
  | enter frame function args argCount =>
    #v[.ofFrame? frame, .ofValue function, .ofNat argCount, .ofAddress args]
  | attachLocals frame locals count =>
    #v[.ofFrame? frame, .ofAddress locals, .ofNat count]
  | setPc frame pc => #v[.ofFrame? frame, .ofNat pc]
  | exit frame => #v[.ofFrame? frame]
  | constant function index | captured function index => #v[.ofValue function, .ofNat index]

/-- **Every call that words can hold is said by its words.** -/
theorem read_words {c : HelperCall} (h : c.FitsWords) : c.kind.read c.words = .ok c := by
  cases c with
  | binary op x y =>
    show Except.ok (binary op (Word.ofValue x).toValue (Word.ofValue y).toValue) = _
    rw [Word.toValue_ofValue, Word.toValue_ofValue]
  | unary op x => exact congrArg (fun v => Except.ok (unary op v)) (Word.toValue_ofValue x)
  | logicalNot x => exact congrArg (fun v => Except.ok (logicalNot v)) (Word.toValue_ofValue x)
  | toBool x => exact congrArg (fun v => Except.ok (toBool v)) (Word.toValue_ofValue x)
  | typeOf x => exact congrArg (fun v => Except.ok (typeOf v)) (Word.toValue_ofValue x)
  | enter frame function args argCount =>
    obtain ⟨hf, ha, hn⟩ := h
    show (Word.toLength .argumentCount (Int64.ofNat argCount)).map
      (enter (Word.ofFrame? frame).toFrame? (Word.ofValue function).toValue
        (Word.ofAddress args).toAddress) = _
    rw [Word.toLength_ofNat hn, Word.toFrame?_ofFrame? hf, Word.toValue_ofValue,
      Word.toAddress_ofAddress ha]
    rfl
  | attachLocals frame locals count =>
    obtain ⟨hf, hl, hn⟩ := h
    show (Word.toLength .localCount (Int64.ofNat count)).map
      (attachLocals (Word.ofFrame? frame).toFrame? (Word.ofAddress locals).toAddress) = _
    rw [Word.toLength_ofNat hn, Word.toFrame?_ofFrame? hf, Word.toAddress_ofAddress hl]
    rfl
  | setPc frame pc =>
    obtain ⟨hf, hn⟩ := h
    show (Word.toPc (Int64.ofNat pc)).map (setPc (Word.ofFrame? frame).toFrame?) = _
    rw [Word.toPc_ofNat hn, Word.toFrame?_ofFrame? hf]
    rfl
  | exit frame =>
    show Except.ok (exit (Word.ofFrame? frame).toFrame?) = _
    rw [Word.toFrame?_ofFrame? h]
  | constant function index =>
    show (Word.toLength .constantIndex (Int64.ofNat index)).map
      (constant (Word.ofValue function).toValue) = _
    rw [Word.toLength_ofNat h, Word.toValue_ofValue]
    rfl
  | captured function index =>
    show (Word.toLength .closureIndex (Int64.ofNat index)).map
      (captured (Word.ofValue function).toValue) = _
    rw [Word.toLength_ofNat h, Word.toValue_ofValue]
    rfl

end HelperCall

/-- Words are in range exactly when something can be read from them. -/
theorem HelperKind.inRange_iff_read {k : HelperKind} {a : Words k.wordCount} :
    k.InRange a ↔ ∃ c, k.read a = .ok c := by
  have hlength : ∀ {use : LengthUse} {w : Word} {f : Nat → HelperCall},
      0 ≤ w.toInt ↔ ∃ c, (w.toLength use).map f = .ok c := by
    intro use w f
    by_cases h : 0 ≤ w.toInt
    · rw [Word.toLength, if_pos h]
      exact iff_of_true h ⟨_, rfl⟩
    · rw [Word.toLength, if_neg h]
      exact iff_of_false h (by rintro ⟨c, hc⟩; cases hc)
  have hpc : ∀ {w : Word} {f : Nat → HelperCall},
      0 ≤ w.toInt ∧ w.toInt ≤ 2 ^ 32 - 1 ↔ ∃ c, w.toPc.map f = .ok c := by
    intro w f
    by_cases h : 0 ≤ w.toInt ∧ w.toInt < 0x100000000
    · rw [Word.toPc, if_pos h]
      exact iff_of_true ⟨h.1, by omega⟩ ⟨_, rfl⟩
    · rw [Word.toPc, if_neg h]
      exact iff_of_false (by omega) (by rintro ⟨c, hc⟩; cases hc)
  cases k with
  | enter | attachLocals | constant | captured => exact hlength
  | setPc => exact hpc
  | _ => exact iff_of_true trivial ⟨_, rfl⟩

/-! ## Performing -/

namespace Run

variable {α β γ : Type}

theorem expect_map_bind (x : Except Violation α) (f : α → β) (g : β → Run R γ) :
    expect (x.map f) >>= g = expect x >>= fun a => g (f a) := by
  cases x <;> rfl

/-- The boundary changes nothing about an answer. -/
theorem atBoundary_of_ok {act : Run R α} {m m' : Machine R} {a : α} (h : act m = .ok a m') :
    atBoundary act m = .ok a m' := by
  rw [atBoundary, h]

/-- A panic does not pass the boundary. -/
theorem atBoundary_of_panic {act : Run R α} {m m' : Machine R} {p : Panic}
    (h : act m = .error (.panic p) m') : atBoundary act m = .error (.abort (.escaped p)) m' := by
  rw [atBoundary, h]

theorem atBoundary_of_abort {act : Run R α} {m m' : Machine R} {x : Abort}
    (h : act m = .error (.abort x) m') : atBoundary act m = .error (.abort x) m' := by
  rw [atBoundary, h]

end Run

namespace HelperKind

variable (I : Interpreter R)

/-- The table has the right routine for every binary operator. -/
theorem body_routine_binary (op : BinaryOp) (a : Words 2) :
    (binary op).routine.body I (a.cast (binary op).routine_wordCount.symm) =
      Word.ofValue <$> I.binary op (a.value 0) (a.value 1) := by
  cases op with
  | arith op => cases op <;> rfl
  | logic op => cases op <;> rfl
  | relational op => cases op <;> rfl
  | equal negate => cases negate <;> rfl
  | strictEqual negate => cases negate <;> rfl
  | _ => rfl

theorem body_routine_unary (op : UnaryOp) (a : Words 1) :
    (unary op).routine.body I (a.cast (unary op).routine_wordCount.symm) =
      Word.ofValue <$> I.unaryOp op (a.value 0) := by
  cases op <;> rfl

/-- **The routine in the table for a helper reads its words and then performs the call they say.** -/
theorem body_routine (k : HelperKind) (a : Words k.wordCount) :
    k.routine.body I (a.cast k.routine_wordCount.symm) =
      Run.expect (k.read a) >>= HelperCall.perform I := by
  cases k with
  | binary op => exact (body_routine_binary I op a).trans (map_eq_pure_bind _ _)
  | unary op => exact (body_routine_unary I op a).trans (map_eq_pure_bind _ _)
  | enter | attachLocals | setPc =>
    rw [read, Run.expect_map_bind]
    rfl
  | constant | captured =>
    rw [read, Run.expect_map_bind]
    simp only [HelperCall.perform, bind_pure_comp]
    rfl
  | logicalNot | toBool | typeOf =>
    rw [read, Run.expect_ok, pure_bind, HelperCall.perform, bind_pure_comp]
    rfl
  | exit => rfl

end HelperKind

namespace Interpreter

variable (I : Interpreter R) {k : HelperKind} {a : Words k.wordCount}

/-- Calling a helper is reading its words and performing the call, up to the boundary. -/
theorem callHelper_eq (k : HelperKind) (a : Words k.wordCount) :
    I.callHelper k a = atBoundary (Run.expect (k.read a) >>= HelperCall.perform I) := by
  rw [callHelper, Routine.call, HelperKind.body_routine]

theorem callHelper_of_read {c : HelperCall} (h : k.read a = .ok c) :
    I.callHelper k a = atBoundary (c.perform I) := by
  rw [callHelper_eq, h, Run.expect_ok, pure_bind]

theorem callHelper_of_unreadable {v : Violation} (h : k.read a = .error v) (m : Machine R) :
    I.callHelper k a m =
      .error (.abort (.escaped (.violation v))) (m.noted ("ERROR " ++ v.message)) := by
  rw [callHelper_eq, h, Run.expect_error]
  rfl

end Interpreter

/-- Calling a helper with words is making the call that the words say. -/
structure HelperRefines (I : Interpreter R) (k : HelperKind) (a : Words k.wordCount)
    (m : Machine R) : Prop where
  /-- The table has a routine for the helper, which takes the helper's words, and it is called. -/
  stored : ∃ r, HelperTable.runtime.get? k = some r ∧
    ∃ h : r.wordCount = k.wordCount, I.callHelper k a = r.call I (a.cast h.symm)
  /-- Words and values are the same patterns. -/
  patterns : Function.Bijective Word.ofValue ∧ ∀ v, (Word.ofValue v).toUInt64 = v.bits
  /-- Words say at most one call. -/
  unique : ∀ c d, HelperCall.Says k a c → HelperCall.Says k a d → c = d
  /-- They say one exactly when their counts, indices and offsets are in range. -/
  says_iff : (∃ c, HelperCall.Says k a c) ↔ k.InRange a
  /-- Every call of this helper that words can hold is said by some. -/
  covered : ∀ c : HelperCall, c.kind = k → c.FitsWords → ∃ b, HelperCall.Says k b c
  /-- The helper answers exactly when the call does, the same, and leaves the same machine. -/
  answers : ∀ c, HelperCall.Says k a c → ∀ w m',
    I.callHelper k a m = .ok w m' ↔ c.perform I m = .ok w m'
  /-- When the call panics the helper aborts. -/
  panics : ∀ c, HelperCall.Says k a c → ∀ p m', c.perform I m = .error (.panic p) m' →
    I.callHelper k a m = .error (.abort (.escaped p)) m'
  aborts : ∀ c, HelperCall.Says k a c → ∀ x m', c.perform I m = .error (.abort x) m' →
    I.callHelper k a m = .error (.abort x) m'
  /-- Words that say nothing abort too, before anything happens. -/
  refused : ¬ k.InRange a → ∃ v, k.read a = .error v ∧ I.callHelper k a m =
    .error (.abort (.escaped (.violation v))) (m.noted ("ERROR " ++ v.message))

/-- **Every helper is the operation behind it, on what its words stand for.** -/
theorem callHelper_refines (I : Interpreter R) (k : HelperKind) (a : Words k.wordCount)
    (m : Machine R) : HelperRefines I k a m := by
  constructor
  case stored => exact ⟨k.routine, (Option.some_get _).symm, k.routine_wordCount, rfl⟩
  case patterns => exact ⟨Word.ofValue_bijective, fun v => by simp [Word.ofValue]⟩
  case unique =>
    intro c d hc hd
    exact Except.ok.inj ((HelperCall.Says.iff_read.mp hc).symm.trans (HelperCall.Says.iff_read.mp hd))
  case says_iff =>
    rw [HelperKind.inRange_iff_read]
    exact exists_congr fun c => HelperCall.Says.iff_read
  case covered =>
    rintro c rfl hfits
    exact ⟨c.words, HelperCall.Says.iff_read.mpr (HelperCall.read_words hfits)⟩
  case answers =>
    intro c hc w m'
    rw [I.callHelper_of_read (HelperCall.Says.iff_read.mp hc)]
    cases hr : c.perform I m with
    | ok x n => rw [Run.atBoundary_of_ok hr]
    | error s n =>
      cases s with
      | panic p => rw [Run.atBoundary_of_panic hr]; simp
      | abort x => rw [Run.atBoundary_of_abort hr]
  case panics =>
    intro c hc p m' hr
    rw [I.callHelper_of_read (HelperCall.Says.iff_read.mp hc), Run.atBoundary_of_panic hr]
  case aborts =>
    intro c hc x m' hr
    rw [I.callHelper_of_read (HelperCall.Says.iff_read.mp hc), Run.atBoundary_of_abort hr]
  case refused =>
    intro hrange
    cases hread : k.read a with
    | ok c => exact absurd (HelperKind.inRange_iff_read.mpr ⟨c, hread⟩) hrange
    | error v => exact ⟨v, rfl, I.callHelper_of_unreadable hread m⟩

end TieredVm
