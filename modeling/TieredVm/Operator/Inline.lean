import TieredVm.Operator.Basic

/-!
# Inline answers

The operand combinations that compiled code answers itself, without the interpreter and without
touching the machine. Integer results that leave the 32-bit range are promoted to doubles; a
result of zero that should carry a sign becomes the negative zero. Shift counts are taken modulo
32. Comparisons are answered for two integers only.

`inline?` is `none` on every other combination.

* `ArithOp.ofInts?` and `ofDoubles?` are the fast paths of `sub`, `mul`, `div` and `rem`;
  `checkedInt32` is their checked arithmetic on `i32`, and `mulInt` and `modInt` hold the cases of a
  zero with a sign.
* `BinaryOp.addInt` and `shrInt` are those of `add` and `shr`, `LogicOp.ofInts` those of the other
  bitwise operators, and `RelOp.holds` is the comparison that `int_compare!` is given.
* `UnaryOp.ofInt` and `ofDouble?` are the fast paths of the unary operators.
-/

namespace TieredVm

/-- An exact integer as a 32-bit one, if it fits. -/
def checkedInt32 (n : Int) : Option Int32 :=
  if Value.fitsInt32 n then some (Int32.ofInt n) else none

namespace ArithOp

/-- The product of two integers. A zero product of a negative factor is the negative zero; one
out of range is rounded once. -/
def mulInt (a b : Int32) : Value :=
  let p := a.toInt * b.toInt
  if p = 0 ∧ (a < 0 ∨ b < 0) then .ofDouble (Double.zero true)
  else match checkedInt32 p with
    | some r => .ofInt r
    | none => .ofDouble (Double.ofInt p)

/-- The remainder of two integers, with the sign of the dividend. A zero divisor gives the error
sentinel. -/
def modInt (a b : Int32) : Value :=
  if b = 0 then .exception
  else
    let r := a.toInt.tmod b.toInt
    if r = 0 ∧ a < 0 then .ofDouble (Double.zero true) else .ofInt (Int32.ofInt r)

/-- The answer for two integers. A power is never computed here. -/
def ofInts? (a b : Int32) : ArithOp → Option Value
  | .sub => some <| match checkedInt32 (a.toInt - b.toInt) with
    | some r => .ofInt r
    | none => .ofDouble (Double.sub (Double.ofInt32 a) (Double.ofInt32 b))
  | .mul => some (mulInt a b)
  | .div => some (.ofDouble (Double.div (Double.ofInt32 a) (Double.ofInt32 b)))
  | .mod => some (modInt a b)
  | .pow => none

/-- The answer for two doubles. -/
def ofDoubles? (a b : Double) : ArithOp → Option Value
  | .sub => some (.ofDouble (a.sub b))
  | .mul => some (.ofDouble (a.mul b))
  | .div => some (.ofDouble (a.div b))
  | .mod => some (.ofDouble (a.rem b))
  | .pow => none

end ArithOp

namespace LogicOp

/-- The bitwise result of two integers. -/
def ofInts (a b : Int32) : LogicOp → Int32
  | .and => a &&& b
  | .or => a ||| b
  | .xor => a ^^^ b
  | .shl => a <<< (b &&& 31)
  | .sar => a >>> (b &&& 31)

end LogicOp

/-- The zero-filling shift of an integer read as unsigned. -/
def unsignedShift (a b : Int32) : UInt32 := a.toUInt32 >>> (b.toUInt32 &&& 31)

namespace RelOp

/-- Does an order satisfy a comparison? -/
def holds : RelOp → Ordering → Bool
  | .lt, o => o == .lt
  | .le, o => o != .gt
  | .gt, o => o == .gt
  | .ge, o => o != .lt

end RelOp

namespace BinaryOp

/-- The sum of two integers. -/
def addInt (a b : Int32) : Value :=
  match checkedInt32 (a.toInt + b.toInt) with
  | some r => .ofInt r
  | none => .ofDouble (Double.add (Double.ofInt32 a) (Double.ofInt32 b))

/-- The unsigned shift of an integer; a result out of range is a double. -/
def shrInt (a b : Int32) : Value :=
  let r : Int := (unsignedShift a b).toNat
  match checkedInt32 r with
  | some r => .ofInt r
  | none => .ofDouble (Double.ofInt r)

/-- The answer for two integers. -/
def ofInts? (a b : Int32) : BinaryOp → Option Value
  | add => some (addInt a b)
  | arith op => op.ofInts? a b
  | logic op => some (.ofInt (op.ofInts a b))
  | shr => some (shrInt a b)
  | relational op => some (.ofBool (op.holds (compare a.toInt b.toInt)))
  | equal n | strictEqual n => some (.ofBool ((a == b) != n))
  | instanceOf | contains => none

/-- The answer for two doubles. -/
def ofDoubles? (a b : Double) : BinaryOp → Option Value
  | add => some (.ofDouble (a.add b))
  | arith op => op.ofDoubles? a b
  | _ => none

/-- The answer compiled code gives itself. -/
def inline? (op : BinaryOp) (x y : Value) : Option Value :=
  match Value.bothInt? x y with
  | some (a, b) => op.ofInts? a b
  | none =>
    match Value.bothDouble? x y with
    | some (a, b) => op.ofDoubles? a b
    | none => none

end BinaryOp

namespace UnaryOp

/-- The result of a unary operator on an integer. -/
def ofInt (n : Int32) : UnaryOp → Value
  | .neg =>
    if n = 0 then .ofDouble (Double.zero true)
    else match checkedInt32 (-n.toInt) with
      | some r => .ofInt r
      | none => .ofDouble (Double.neg (Double.ofInt32 n))
  | .plus => .ofInt n
  | .bitNot => .ofInt (~~~n)
  | .inc => match checkedInt32 (n.toInt + 1) with
    | some r => .ofInt r
    | none => .ofDouble (Double.add (Double.ofInt32 n) (Double.ofInt 1))
  | .dec => match checkedInt32 (n.toInt - 1) with
    | some r => .ofInt r
    | none => .ofDouble (Double.sub (Double.ofInt32 n) (Double.ofInt 1))

/-- The result of a unary operator on a double; complementing its bits is left to the
interpreter. -/
def ofDouble? (d : Double) : UnaryOp → Option Value
  | .neg => some (.ofDouble d.neg)
  | .plus => some (.ofDouble d)
  | .bitNot => none
  | .inc => some (.ofDouble (d.add (Double.ofInt 1)))
  | .dec => some (.ofDouble (d.sub (Double.ofInt 1)))

/-- The answer compiled code gives itself. The plus sign leaves a number exactly as it is. -/
def inline? (op : UnaryOp) (x : Value) : Option Value :=
  match x.asInt? with
  | some n => some (if op = .plus then x else op.ofInt n)
  | none =>
    match x.asDouble? with
    | some d => if op = .plus then some x else op.ofDouble? d
    | none => none

end UnaryOp

end TieredVm
