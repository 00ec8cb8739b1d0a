import TieredVm.Text.Quoted
import TieredVm.Value.Basic

/-!
# Exceptions

An exception is an error that the running program can see: the interpreter reports one when a
generic operator fails. It is parked in the context while the operation answers the error sentinel.

* `Exception` is `VmError`: `error` at a class is one of its four variants with a message, and
  `thrown` is `Thrown`. `typeError` is `VmError::type_error`.
* `report` is its `Display`, which the event of `raise` shows, and `text` its derived `Debug`.
-/

namespace TieredVm

/-- The classes of exceptions that carry a message. -/
inductive ExceptionClass where
  | typeError | referenceError | rangeError | internalError
deriving DecidableEq, Repr

/-- An error the running program can see. -/
inductive Exception where
  | error (cls : ExceptionClass) (message : String)
  /-- A value the program threw itself. -/
  | thrown (v : Value)
deriving DecidableEq

def ExceptionClass.name : ExceptionClass → String
  | .typeError => "TypeError"
  | .referenceError => "ReferenceError"
  | .rangeError => "RangeError"
  | .internalError => "InternalError"

namespace Exception

def typeError (message : String) : Exception := .error .typeError message

/-- The name of the exception's class. -/
def className : Exception → String
  | error c _ => c.name
  | thrown _ => "Thrown"

/-- The report a user reads. -/
def report : Exception → Except Violation String
  | error c m => .ok (c.name ++ ": " ++ m)
  | thrown v => ("Uncaught " ++ ·) <$> v.text

/-- The exception as a term. -/
def text : Exception → Except Violation String
  | error c m => .ok (c.name ++ "(" ++ Text.quoted m ++ ")")
  | thrown v => (fun s => "Thrown(" ++ s ++ ")") <$> v.text

end Exception

end TieredVm
