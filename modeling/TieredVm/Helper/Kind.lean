import TieredVm.Operator.Basic

/-!
# Helpers

The helpers that generated code can call, one per operator and one per frame or function
operation. Each has a place in the table, a symbol to link it by, and a fixed number of 64-bit
parameters, the first of which is always the context. Which routine a helper leads to is up to a table.

`HelperKind` is the enumeration of that name: `all` is `ALL`, `symbol` is `symbol_name`, and
`paramCount` and `returnCount` are `param_count` and `return_count`. The operators are told apart by
the operator that a constructor takes; `name` is the name of a kind there.
-/

namespace TieredVm

/-- A helper that generated code can call. -/
inductive HelperKind where
  /-- `Add` to `In`. -/
  | binary (op : BinaryOp)
  /-- `Neg` to `Dec`. -/
  | unary (op : UnaryOp)
  /-- `LNot`. -/
  | logicalNot
  | toBool
  | typeOf
  /-- `FrameInit`. -/
  | enter
  /-- `FrameAttachLocals`. -/
  | attachLocals
  /-- `FrameSetPc`. -/
  | setPc
  /-- `FrameExit`. -/
  | exit
  /-- `FunctionCpool`. -/
  | constant
  /-- `FunctionVarRef`. -/
  | captured
deriving DecidableEq, Repr

namespace HelperKind

/-- All helpers, in table order. -/
def all : List HelperKind :=
  [.binary .add, .binary (.arith .sub), .binary (.arith .mul), .binary (.arith .div),
    .binary (.arith .mod), .binary (.arith .pow), .binary (.logic .and), .binary (.logic .or),
    .binary (.logic .xor), .binary (.logic .shl), .binary (.logic .sar), .binary .shr,
    .binary (.relational .lt), .binary (.relational .le), .binary (.relational .gt),
    .binary (.relational .ge), .binary (.equal false), .binary (.equal true),
    .binary (.strictEqual false), .binary (.strictEqual true), .binary .instanceOf,
    .binary .contains, .unary .neg, .unary .plus, .unary .bitNot, .unary .inc, .unary .dec,
    .logicalNot, .toBool, .typeOf, .enter, .attachLocals, .setPc, .exit, .constant, .captured]

/-- The name of a helper. -/
def name : HelperKind → String
  | binary .add => "Add"
  | binary (.arith op) => op.name
  | binary (.logic .and) => "BitAnd"
  | binary (.logic .or) => "BitOr"
  | binary (.logic .xor) => "BitXor"
  | binary (.logic .shl) => "Shl"
  | binary (.logic .sar) => "Sar"
  | binary .shr => "Shr"
  | binary (.relational op) => op.name
  | binary (.equal false) => "Eq"
  | binary (.equal true) => "Ne"
  | binary (.strictEqual false) => "StrictEq"
  | binary (.strictEqual true) => "StrictNe"
  | binary .instanceOf => "InstanceOf"
  | binary .contains => "In"
  | unary op => op.name
  | logicalNot => "LNot"
  | toBool => "ToBool"
  | typeOf => "TypeOf"
  | enter => "FrameInit"
  | attachLocals => "FrameAttachLocals"
  | setPc => "FrameSetPc"
  | exit => "FrameExit"
  | constant => "FunctionCpool"
  | captured => "FunctionVarRef"

/-- The end of a helper's symbol. -/
def symbolStem : HelperKind → String
  | binary (.logic .and) => "bit_and"
  | binary (.logic .or) => "bit_or"
  | binary (.logic .xor) => "bit_xor"
  | binary op => op.label
  | unary op => op.label
  | logicalNot => "lnot"
  | toBool => "to_bool"
  | typeOf => "typeof"
  | enter => "frame_init"
  | attachLocals => "frame_attach_locals"
  | setPc => "frame_set_pc"
  | exit => "frame_exit"
  | constant => "function_cpool"
  | captured => "function_var_ref"

/-- The symbol a helper is linked by. -/
def symbol (k : HelperKind) : String := "heron_rt_" ++ k.symbolStem

/-- How many words a helper takes after the context. -/
def wordCount : HelperKind → Nat
  | binary _ => 2
  | unary _ | logicalNot | toBool | typeOf => 1
  | enter => 4
  | attachLocals => 3
  | setPc => 2
  | exit => 1
  | constant | captured => 2

/-- How many parameters a helper has, the context included. -/
def paramCount (k : HelperKind) : Nat := k.wordCount + 1

/-- Every helper answers one word. -/
def returnCount (_ : HelperKind) : Nat := 1

/-- The place of a helper in the table. -/
def index (k : HelperKind) : Nat := all.idxOf k

/-- The helper with the given name. -/
def ofName? (s : String) : Option HelperKind := all.find? fun k => k.name == s

theorem mem_all (k : HelperKind) : k ∈ all := by
  cases k with
  | binary op =>
    cases op with
    | arith o => cases o <;> simp [all]
    | logic o => cases o <;> simp [all]
    | relational o => cases o <;> simp [all]
    | equal n => cases n <;> simp [all]
    | strictEqual n => cases n <;> simp [all]
    | _ => simp [all]
  | unary o => cases o <;> simp [all]
  | _ => simp [all]

theorem nodup_all : all.Nodup := by decide

end HelperKind

end TieredVm
