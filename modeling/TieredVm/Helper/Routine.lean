import TieredVm.Helper.Word
import TieredVm.Interpreter.Functions
import TieredVm.Operator.Apply

/-!
# Routines

What generated code jumps to. A routine knows nothing of the table that it may be stored in: it has its
own signature, and its own operation behind it.

* `Routine` has one constructor for each `extern` function `heron_rt_*`. Most are named as the function
  is; `bitAnd` is `heron_rt_bit_and` and so on, `contains` is `heron_rt_in`, `logicalNot` is
  `heron_rt_lnot`, `enter` is `heron_rt_frame_init`, `attachLocals`, `setPc` and `exit` are the other
  `heron_rt_frame_*`, `constant` is `heron_rt_function_cpool` and `captured` is
  `heron_rt_function_var_ref`.
* `Routine.binary` and `Routine.unary` are the functions that `binary_helpers!` and `unary_helpers!`
  make, and the rows of `Routine.body` that use them are the lines `heron_rt_x => ops::y` there:
  `Interpreter.binary` at an operator is its function in `ops`, `mod` being `ops::rem`.
* `Routine.call` is a routine as it is called, with the end of the process where a panic would leave an
  `extern` function.
-/

namespace TieredVm

variable {R : Type}

/-- Turns a panic into an abort: a panic cannot unwind through generated code. -/
def atBoundary {α : Type} (act : Run R α) : Run R α := fun m =>
  match act m with
  | .error (.panic p) m => .error (.abort (.escaped p)) m
  | r => r

/-- A routine that generated code can be linked against. -/
inductive Routine where
  | add | sub | mul | div | mod | pow
  | bitAnd | bitOr | bitXor | shl | sar | shr
  | lt | le | gt | ge | eq | ne | strictEq | strictNe
  | instanceOf | contains
  | neg | plus | bitNot | inc | dec | logicalNot
  | toBool
  | typeOf
  | enter | attachLocals | setPc | exit
  | constant | captured
deriving DecidableEq, Repr

namespace Routine

/-- How many words a routine takes after the context. -/
def wordCount : Routine → Nat
  | neg | plus | bitNot | inc | dec | logicalNot | toBool | typeOf => 1
  | enter => 4
  | attachLocals => 3
  | setPc => 2
  | exit => 1
  | constant | captured => 2
  | _ => 2

/-- A routine for an operation on two values. -/
def binary (op : Value → Value → Run R Value) (a : Words 2) : Run R Word :=
  Word.ofValue <$> op (a.value 0) (a.value 1)

/-- A routine for an operation on one value. -/
def unary (op : Value → Run R Value) (a : Words 1) : Run R Word :=
  Word.ofValue <$> op (a.value 0)

/-- What a routine does with its words. -/
def body (I : Interpreter R) : (r : Routine) → Words r.wordCount → Run R Word
  | add, a => binary (I.binary .add) a
  | sub, a => binary (I.binary (.arith .sub)) a
  | mul, a => binary (I.binary (.arith .mul)) a
  | div, a => binary (I.binary (.arith .div)) a
  | mod, a => binary (I.binary (.arith .mod)) a
  | pow, a => binary (I.binary (.arith .pow)) a
  | bitAnd, a => binary (I.binary (.logic .and)) a
  | bitOr, a => binary (I.binary (.logic .or)) a
  | bitXor, a => binary (I.binary (.logic .xor)) a
  | shl, a => binary (I.binary (.logic .shl)) a
  | sar, a => binary (I.binary (.logic .sar)) a
  | shr, a => binary (I.binary .shr) a
  | lt, a => binary (I.binary (.relational .lt)) a
  | le, a => binary (I.binary (.relational .le)) a
  | gt, a => binary (I.binary (.relational .gt)) a
  | ge, a => binary (I.binary (.relational .ge)) a
  | eq, a => binary (I.binary (.equal false)) a
  | ne, a => binary (I.binary (.equal true)) a
  | strictEq, a => binary (I.binary (.strictEqual false)) a
  | strictNe, a => binary (I.binary (.strictEqual true)) a
  | instanceOf, a => binary (I.binary .instanceOf) a
  | contains, a => binary (I.binary .contains) a
  | neg, a => unary (I.unaryOp .neg) a
  | plus, a => unary (I.unaryOp .plus) a
  | bitNot, a => unary (I.unaryOp .bitNot) a
  | inc, a => unary (I.unaryOp .inc) a
  | dec, a => unary (I.unaryOp .dec) a
  | logicalNot, a => unary I.logicalNot a
  | typeOf, a => unary I.typeOf a
  | toBool, a => (fun b => if b then 1 else 0) <$> I.toBool (a.value 0)
  | enter, a => do
    let count ← Run.expect ((a.word 2).toLength .argumentCount)
    I.enter (a.word 0).toFrame? (a.value 1) (a.word 3).toAddress count
    return 0
  | attachLocals, a => do
    let count ← Run.expect ((a.word 2).toLength .localCount)
    I.attachLocals (a.word 0).toFrame? (a.word 1).toAddress count
    return 0
  | setPc, a => do
    let pc ← Run.expect (a.word 1).toPc
    I.setPc (a.word 0).toFrame? pc
    return 0
  | exit, a => do
    Chain.exit (a.word 0).toFrame?
    return 0
  | constant, a => do
    let index ← Run.expect ((a.word 1).toLength .constantIndex)
    Word.ofValue <$> I.constantOf (a.value 0) index
  | captured, a => do
    let index ← Run.expect ((a.word 1).toLength .closureIndex)
    Word.ofValue <$> I.capturedOf (a.value 0) index

/-- Calls a routine. -/
def call (I : Interpreter R) (r : Routine) (a : Words r.wordCount) : Run R Word :=
  atBoundary (r.body I a)

end Routine

end TieredVm
