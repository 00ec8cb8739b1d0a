import TieredVm.Interpreter.Basic

/-!
# Binary operators

The binary operators of the running program, the entry of the interpreter that each hands its
operands to, and the name under which the hand-off is recorded.

`BinaryOp` has one constructor for each entry of `SlowPath` that takes two operands, with its
selector. `label` is the name that `ops` hands to `slow_path::binary`.
-/

namespace TieredVm

/-- A binary operator. -/
inductive BinaryOp where
  | add
  | arith (op : ArithOp)
  | logic (op : LogicOp)
  | shr
  | relational (op : RelOp)
  | equal (negate : Bool)
  | strictEqual (negate : Bool)
  | instanceOf
  | contains
deriving DecidableEq, Repr

namespace BinaryOp

/-- The name under which a hand-off is recorded. -/
def label : BinaryOp → String
  | add => "add"
  | arith .sub => "sub"
  | arith .mul => "mul"
  | arith .div => "div"
  | arith .mod => "mod"
  | arith .pow => "pow"
  | logic .and => "and"
  | logic .or => "or"
  | logic .xor => "xor"
  | logic .shl => "shl"
  | logic .sar => "sar"
  | shr => "shr"
  | relational .lt => "lt"
  | relational .le => "le"
  | relational .gt => "gt"
  | relational .ge => "ge"
  | equal false => "eq"
  | equal true => "ne"
  | strictEqual false => "strict_eq"
  | strictEqual true => "strict_ne"
  | instanceOf => "instanceof"
  | contains => "in"

/-- The entry point an operator hands its operands to. -/
def entryPoint : BinaryOp → EntryPoint
  | add => .add
  | arith op => .arith op
  | logic op => .logic op
  | shr => .shr
  | relational op => .relational op
  | equal n => .equal n
  | strictEqual n => .strictEqual n
  | instanceOf => .instanceOf
  | contains => .contains

/-- The interpreter's entry for an operator. -/
def entry {R : Type} (I : Interpreter R) : BinaryOp → Entry R 2
  | add => I.add
  | arith op => I.arith op
  | logic op => I.logic op
  | shr => I.shr
  | relational op => I.relational op
  | equal n => I.equal n
  | strictEqual n => I.strictEqual n
  | instanceOf => I.instanceOf
  | contains => I.contains

end BinaryOp

/-- The name under which the hand-off of a unary operator is recorded. -/
def UnaryOp.label : UnaryOp → String
  | .neg => "neg"
  | .plus => "plus"
  | .bitNot => "bit_not"
  | .inc => "inc"
  | .dec => "dec"

end TieredVm
