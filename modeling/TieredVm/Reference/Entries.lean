import TieredVm.Operator.Apply
import TieredVm.Reference.Convert

/-!
# The reference interpreter's operators

Every entry first takes note of being called and fails if a failure was prepared. Then it converts
its operands from left to right and computes. Addition joins texts, and it stands a function in by
the sum of its first two constants: the function is called the way compiled code would call it,
under a frame of its own, through the addition operator itself.

`Reference.interpreter` is the integration tests' `TestRuntime`, and its entries are those of its
`SlowPath`. `entered` is `TestRuntime::enter`, and `operandValue` with `call` is `call_value_of`.
The addition that a call performs is `plusWithin`: `ops::add` over entries whose calls nest no
deeper than a given number.
-/

namespace TieredVm.Reference

open Attempt (lift)

/-- Takes note of an entry being called, and fails if that was prepared. -/
def entered (point : EntryPoint) : Attempt State Unit := do
  let prepared ← lift <| Run.onRuntime do
    noteCall point.name
    let s ← get
    set { s with failNext := none }
    return s.failNext
  if let some e := prepared then throw e

/-- A reading of the state that cannot refuse. -/
def observe {α : Type} (f : State → Except Violation α) : Run State α := do
  Run.expect (f (← get).runtime)

/-- A conversion of an operand. -/
def convert {α : Type} (f : State → Converted α) : Attempt State α := do
  match ← lift (observe fun s => (f s).run) with
  | .ok a => return a
  | .error e => throw e

/-- Writes the result of an entry. -/
def answer {n : Nat} (operands : Operands (n + 1)) (v : Value) : Attempt State (Operands (n + 1)) :=
  return operands.withResult v

/-! ## Addition -/

/-- Joins two texts, or adds two numbers. -/
def joinOrAdd (a b : Value) : Attempt State Value := do
  if a.tag = .heap .string ∨ b.tag = .heap .string then
    let left ← lift (observe (·.toText a))
    let right ← lift (observe (·.toText b))
    lift (Run.onRuntime (newText (left ++ right)))
  else
    let x ← convert (·.toNumber a)
    let y ← convert (·.toNumber b)
    return .number (x.add y)

/-- Calls a function: enters a frame, adds its first two constants with the given addition, takes a
stack trace, leaves the frame. A failed addition is the call's failure. -/
def call (plus : Value → Value → Run State Value) (function : Value) : Attempt State Value := do
  let sum ← lift do
    let frame ← Machine.newFrame
    objectModel.enter (some frame) function 0 0
    objectModel.setPc (some frame) 0
    let a ← objectModel.constantOf function 0
    let b ← objectModel.constantOf function 1
    let sum ← plus a b
    let lines := (← objectModel.trace).map TraceEntry.report
    Run.onRuntime (modify fun s => { s with traces := s.traces ++ [lines] })
    Chain.exit (some frame)
    return sum
  if sum.isException then
    match ← lift Machine.takePending with
    | some e => throw e
    | none => throw (.typeError "exception sentinel without an error")
  return sum

/-- What an operand of an addition stands for. -/
def operandValue (plus : Value → Value → Run State Value) (v : Value) : Attempt State Value := do
  let p ← lift (Run.expect (v.asPointer? (.heap .object)))
  if p.any (← get).runtime.isFunction then call plus v else return v

/-- Addition, with functions called through the given addition. -/
def addEntry (plus : Value → Value → Run State Value) : Entry State 2 := fun operands => do
  entered .add
  let a ← operandValue plus operands.lhs
  let b ← operandValue plus operands.rhs
  answer operands (← joinOrAdd a b)

/-- The addition operator with calls nested at most `depth` deep. -/
def plusWithin : Nat → Value → Value → Run State Value
  | 0, x, y =>
    match BinaryOp.add.inline? x y with
    | some v => pure v
    | none => throw (.abort .tooDeep)
  | depth + 1, x, y =>
    match BinaryOp.add.inline? x y with
    | some v => pure v
    | none => handOff BinaryOp.add.label (addEntry (plusWithin depth)) (.pair x y)

/-- Addition. A function's constants refer to earlier cells only, so calls cannot nest deeper than
there are functions. -/
def add : Entry State 2 := fun operands => do
  let depth := (← get).runtime.functionCount
  addEntry (plusWithin depth) operands

/-! ## The other operators -/

/-- The number an arithmetic operator gives. -/
def arithValue (power : Double → Double → Double) (a b : Double) : ArithOp → Double
  | .sub => a.sub b
  | .mul => a.mul b
  | .div => a.div b
  | .mod => a.rem b
  | .pow => power a b

/-- Arithmetic, with powers computed by the given function. -/
def arith (power : Double → Double → Double) (op : ArithOp) : Entry State 2 := fun operands => do
  entered (.arith op)
  let a ← convert (·.toNumber operands.lhs)
  let b ← convert (·.toNumber operands.rhs)
  answer operands (.number (arithValue power a b op))

/-- Bitwise operators on 32-bit integers. -/
def logic (op : LogicOp) : Entry State 2 := fun operands => do
  entered (.logic op)
  let a ← convert (·.toInt32 operands.lhs)
  let b ← convert (·.toInt32 operands.rhs)
  answer operands (.ofInt (op.ofInts a b))

/-- The zero-filling shift. -/
def shr : Entry State 2 := fun operands => do
  entered .shr
  let a ← convert (·.toInt32 operands.lhs)
  let b ← convert (·.toInt32 operands.rhs)
  answer operands (.number (Double.ofInt (unsignedShift a b).toNat))

/-- The value a unary operator gives. -/
def unaryValue (x : Value) : UnaryOp → Attempt State Value
  | .bitNot => return .ofInt (~~~(← convert (·.toInt32 x)))
  | .neg => return .number (← convert (·.toNumber x)).neg
  | .plus => return .number (← convert (·.toNumber x))
  | .inc => return .number ((← convert (·.toNumber x)).add (Double.ofInt 1))
  | .dec => return .number ((← convert (·.toNumber x)).sub (Double.ofInt 1))

/-- Unary operators. -/
def unary (op : UnaryOp) : Entry State 1 := fun operands => do
  entered (.unary op)
  answer operands (← unaryValue operands.operand op)

/-- The order of two operands: texts by their characters, all else by number. -/
def orderOf (x y : Value) : Attempt State (Option Ordering) := do
  let left ← lift (observe (·.textOf? x))
  let right ← lift (observe (·.textOf? y))
  match left, right with
  | some a, some b => return some (if a < b then .lt else if a = b then .eq else .gt)
  | _, _ =>
    let a ← convert (·.toNumber x)
    let b ← convert (·.toNumber y)
    return a.compare? b

/-- Order comparisons; false when there is no order. -/
def relational (op : RelOp) : Entry State 2 := fun operands => do
  entered (.relational op)
  let order ← orderOf operands.lhs operands.rhs
  answer operands (.ofBool (order.any op.holds))

/-- Equality with conversions. -/
def equal (negate : Bool) : Entry State 2 := fun operands => do
  entered (.equal negate)
  let r ← convert (·.looseEqual operands.lhs operands.rhs)
  answer operands (.ofBool (r != negate))

/-- Equality without conversions. -/
def strictEqual (negate : Bool) : Entry State 2 := fun operands => do
  entered (.strictEqual negate)
  let r ← lift (observe (·.strictEqual operands.lhs operands.rhs))
  answer operands (.ofBool (r != negate))

/-- Was the left operand made by the right one? -/
def instanceOf : Entry State 2 := fun operands => do
  entered .instanceOf
  let maker ← lift <| Run.expect (operands.rhs.asPointer? (.heap .object))
  if !maker.any (← get).runtime.isFunction then
    throw (.typeError "right-hand side of 'instanceof' is not callable")
  let made ← lift <| Run.expect (operands.lhs.asPointer? (.heap .object))
  let r := match made.bind (← get).runtime.cellAt? with
    | some (.object _ constructor) => constructor == some operands.rhs
    | _ => false
  answer operands (.ofBool r)

/-- Is the left operand a key of the right one? -/
def contains : Entry State 2 := fun operands => do
  entered .contains
  let key ← lift (observe (·.toText operands.lhs))
  let holder ← lift <| Run.expect (operands.rhs.asPointer? (.heap .object))
  match holder.bind (← get).runtime.cellAt? with
  | some (.object keys _) => answer operands (.ofBool (keys.contains key))
  | some (.function _ _) => answer operands (.ofBool false)
  | _ => throw (.typeError "cannot use 'in' operator to search for a key in a primitive")

/-! ## Truth and categories -/

/-- A reading of the state by an operation on it alone. -/
def observeLocal {α : Type} (f : State → Except Violation α) : Local State α := do
  match f (← get) with
  | .ok a => return a
  | .error v => throw (Stop.violation v)

/-- The truth of a value, which is released. -/
def truth (v : Value) : Local State Bool := do
  noteCall "to_bool_free"
  let r ← observeLocal (·.toTruth v)
  release v
  return r

/-- The category of a value. -/
def category (v : Value) : Local State Category := do
  noteCall "typeof_kind"
  observeLocal (·.toCategory v)

/-- The text of a category, made when it is first asked for. -/
def categoryText (c : Category) : Local State Value := do
  match (← get).categoryTexts c with
  | some v => return v
  | none =>
    let v ← newText c.label
    modify fun s => { s with
      categoryTexts := fun d => if d = c then some v else s.categoryTexts d }
    return v

/-- The reference interpreter, with powers computed by the given function. -/
def interpreterWith (power : Double → Double → Double) : Interpreter State where
  toObjectModel := objectModel
  add := add
  arith := arith power
  logic := logic
  shr := shr
  unary := unary
  relational := relational
  equal := equal
  strictEqual := strictEqual
  instanceOf := instanceOf
  contains := contains
  truth := truth
  category := category
  categoryText := categoryText
  release := release

/-- The reference interpreter. -/
def interpreter : Interpreter State := interpreterWith Double.power

end TieredVm.Reference
