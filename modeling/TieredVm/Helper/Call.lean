import TieredVm.Helper.Routine
import TieredVm.Helper.Table

/-!
# Calling helpers with raw words

Generated code knows a helper by its kind alone, and calls whatever routine the table has for it.

* `HelperTable.runtime` is the table that `build_runtime_helpers` makes, entry by entry. The safety
  condition of `set` is `HelperKind.routine_wordCount`.
* `Interpreter.callHelper` calls a helper through that table.
-/

namespace TieredVm

/-- The table of the routines of this library. -/
def HelperTable.runtime : HelperTable Routine := .ofSets
  [(.binary .add, .add),
    (.binary (.arith .sub), .sub),
    (.binary (.arith .mul), .mul),
    (.binary (.arith .div), .div),
    (.binary (.arith .mod), .mod),
    (.binary (.arith .pow), .pow),
    (.binary (.logic .and), .bitAnd),
    (.binary (.logic .or), .bitOr),
    (.binary (.logic .xor), .bitXor),
    (.binary (.logic .shl), .shl),
    (.binary (.logic .sar), .sar),
    (.binary .shr, .shr),
    (.binary (.relational .lt), .lt),
    (.binary (.relational .le), .le),
    (.binary (.relational .gt), .gt),
    (.binary (.relational .ge), .ge),
    (.binary (.equal false), .eq),
    (.binary (.equal true), .ne),
    (.binary (.strictEqual false), .strictEq),
    (.binary (.strictEqual true), .strictNe),
    (.binary .instanceOf, .instanceOf),
    (.binary .contains, .contains),
    (.unary .neg, .neg),
    (.unary .plus, .plus),
    (.unary .bitNot, .bitNot),
    (.unary .inc, .inc),
    (.unary .dec, .dec),
    (.logicalNot, .logicalNot),
    (.toBool, .toBool),
    (.typeOf, .typeOf),
    (.enter, .enter),
    (.attachLocals, .attachLocals),
    (.setPc, .setPc),
    (.exit, .exit),
    (.constant, .constant),
    (.captured, .captured)]

/-- The table has a routine for every helper. -/
theorem HelperTable.runtime_isComplete : runtime.isComplete = true := by decide

/-- The routine that the table has for a helper. -/
def HelperKind.routine (k : HelperKind) : Routine :=
  (HelperTable.runtime.get? k).get
    (HelperTable.runtime.isComplete_iff.mp HelperTable.runtime_isComplete k)

/-- The routine of a helper takes the words that calls of the helper have. -/
theorem HelperKind.routine_wordCount (k : HelperKind) : k.routine.wordCount = k.wordCount := by
  have hall : ∀ j ∈ all, j.routine.wordCount = j.wordCount := by decide
  exact hall k k.mem_all

/-- Calls a helper from generated code. -/
def Interpreter.callHelper {R : Type} (I : Interpreter R) (k : HelperKind) (words : Words k.wordCount) :
    Run R Word :=
  k.routine.call I (words.cast k.routine_wordCount.symm)

end TieredVm
