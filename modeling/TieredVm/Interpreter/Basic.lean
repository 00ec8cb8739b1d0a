import TieredVm.Bytecode.Basic
import TieredVm.Machine.Basic
import TieredVm.Operands

/-!
# The interpreter's side

Compiled code handles the common cases of an operator itself and hands every other one to the
interpreter. `Interpreter R` is what it is handed to: one entry for each family of operators, and
the few facts about function objects that call frames need.

An operator's entry may run user code, so it gets the whole machine: it can enter frames, raise
exceptions and call operators again. It leaves its result in the first operand slot, or answers
with an exception. The remaining entries see only the interpreter's own state.

* `Interpreter` is `Runtime`, that is `SlowPath` and `ObjectModel`. `add`, `arith`, `logic`, `shr`,
  `unary`, `relational`, `equal`, `strictEqual`, `instanceOf` and `contains` are the entries
  `add_slow`, `binary_arith_slow`, `binary_logic_slow`, `shr_slow`, `unary_arith_slow`,
  `relational_slow`, `eq_slow`, `strict_eq_slow`, `instanceof_slow` and `in_slow`; `truth`,
  `category`, `categoryText` and `release` are `to_bool_free`, `typeof_kind`, `atom_to_string` and
  `free_value`.
* `bytecode`, `captures` and `duplicate` are `function_bytecode`, `closure_var_refs` and
  `dup_value`.
* `ArithOp`, `LogicOp`, `UnaryOp` and `RelOp` keep their names, and `Category` is `TypeOfKind`, its
  `label` being `as_str`. An `Attempt` is what returns a `VmResult`.
-/

namespace TieredVm

/-- Arithmetic operators with one entry in common. Addition is not among them: it may have to join
texts. -/
inductive ArithOp where
  | sub | mul | div | mod | pow
deriving DecidableEq, Repr

/-- Bitwise operators with one entry in common. The unsigned shift has its own. -/
inductive LogicOp where
  | and | or | xor | shl | sar
deriving DecidableEq, Repr

/-- Unary operators with one entry in common. -/
inductive UnaryOp where
  | neg | plus | bitNot | inc | dec
deriving DecidableEq, Repr

/-- Order comparisons. -/
inductive RelOp where
  | lt | le | gt | ge
deriving DecidableEq, Repr

/-- The categories that values fall into for the running program. -/
inductive Category where
  | undefined | object | boolean | number | string | symbol | bigint | function
deriving DecidableEq, Repr

namespace Category

/-- The name the running program sees. -/
def label : Category → String
  | undefined => "undefined"
  | object => "object"
  | boolean => "boolean"
  | number => "number"
  | string => "string"
  | symbol => "symbol"
  | bigint => "bigint"
  | function => "function"

/-- The name of the category itself. -/
def name : Category → String
  | undefined => "Undefined"
  | object => "Object"
  | boolean => "Boolean"
  | number => "Number"
  | string => "String"
  | symbol => "Symbol"
  | bigint => "BigInt"
  | function => "Function"

def all : List Category :=
  [undefined, object, boolean, number, string, symbol, bigint, function]

end Category

def ArithOp.name : ArithOp → String
  | .sub => "Sub"
  | .mul => "Mul"
  | .div => "Div"
  | .mod => "Mod"
  | .pow => "Pow"

def LogicOp.name : LogicOp → String
  | .and => "And"
  | .or => "Or"
  | .xor => "Xor"
  | .shl => "Shl"
  | .sar => "Sar"

def UnaryOp.name : UnaryOp → String
  | .neg => "Neg"
  | .plus => "Plus"
  | .bitNot => "BitNot"
  | .inc => "Inc"
  | .dec => "Dec"

def RelOp.name : RelOp → String
  | .lt => "Lt"
  | .le => "Le"
  | .gt => "Gt"
  | .ge => "Ge"

/-- An operation that may fail with an exception. -/
abbrev Attempt (R : Type) := ExceptT Exception (Run R)

/-- An operation that does not fail with an exception. -/
def Attempt.lift {R α : Type} (act : Run R α) : Attempt R α := ExceptT.lift act

/-- An operator entry: operands in, the operands with the result in the first slot out, or an
exception. -/
abbrev Entry (R : Type) (n : Nat) := Operands n → Attempt R (Operands n)

/-- An entry that sees only the interpreter's own state. -/
abbrev Local (R α : Type) := EStateM Stop R α

/-- What call frames need to know about function objects. -/
structure ObjectModel (R : Type) where
  /-- The bytecode of a function object; other objects and native functions have none. -/
  bytecode : R → Pointer → Option Bytecode
  /-- The captured variables a function object holds. -/
  captures : R → Pointer → Option (List Capture)
  /-- A new reference to a value. -/
  duplicate : Value → Local R Value

/-- What compiled code hands its work to. -/
structure Interpreter (R : Type) extends ObjectModel R where
  add : Entry R 2
  arith : ArithOp → Entry R 2
  logic : LogicOp → Entry R 2
  shr : Entry R 2
  unary : UnaryOp → Entry R 1
  relational : RelOp → Entry R 2
  /-- Equality with conversions; negated on request. -/
  equal : (negate : Bool) → Entry R 2
  /-- Equality without conversions; negated on request. -/
  strictEqual : (negate : Bool) → Entry R 2
  instanceOf : Entry R 2
  contains : Entry R 2
  /-- The truth of a value, which is released. -/
  truth : Value → Local R Bool
  /-- The category of a value, which is not released. -/
  category : Value → Local R Category
  /-- The one text that stands for a category. -/
  categoryText : Category → Local R Value
  /-- Releases a value. -/
  release : Value → Local R Unit

/-- The entries an operator call can reach, each with its selector. -/
inductive EntryPoint where
  | add
  | arith (op : ArithOp)
  | logic (op : LogicOp)
  | shr
  | unary (op : UnaryOp)
  | relational (op : RelOp)
  | equal (negate : Bool)
  | strictEqual (negate : Bool)
  | instanceOf
  | contains
deriving DecidableEq, Repr

namespace EntryPoint

/-- The name of an entry, without its selector. -/
def name : EntryPoint → String
  | add => "add_slow"
  | arith _ => "binary_arith_slow"
  | logic _ => "binary_logic_slow"
  | shr => "shr_slow"
  | unary _ => "unary_arith_slow"
  | relational _ => "relational_slow"
  | equal _ => "eq_slow"
  | strictEqual _ => "strict_eq_slow"
  | instanceOf => "instanceof_slow"
  | contains => "in_slow"

/-- The selector of an entry that has one. -/
def selector? : EntryPoint → Option String
  | arith op => some op.name
  | logic op => some op.name
  | unary op => some op.name
  | relational op => some op.name
  | equal n => some (toString n)
  | strictEqual n => some (toString n)
  | _ => none

/-- Name and selector. -/
def text (e : EntryPoint) : String :=
  match e.selector? with
  | some s => s!"{e.name}({s})"
  | none => e.name

end EntryPoint

end TieredVm
