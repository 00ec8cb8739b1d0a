import TieredVm.Frame.Scope
import TieredVm.Frame.Trace
import TieredVm.Helper.Compile

/-!
# Steps of a session

A session drives one machine from outside, step by step. Steps name the values, frames, captured
variables and compiled functions that earlier steps made. Most steps are a single operation; a
scope runs further steps inside a frame, and a reply given to the scripted interpreter holds steps
that are run when an operator asks for it.

Sessions stand for no part of the machine: they are how it is run from outside.
-/

namespace TieredVm.Session

/-- A value a step mentions. -/
inductive ValueRef where
  | lit (v : Value)
  /-- What an earlier step stored under the name. -/
  | named (name : String)
deriving DecidableEq

/-- A frame a step mentions. A name makes a new frame when it is first used. -/
inductive FrameRef where
  | null
  | innermost
  | named (name : String)
deriving DecidableEq

/-- A raw word a step passes. -/
inductive WordRef where
  | word (w : Word)
  | frame (f : FrameRef)
  /-- The address of a new buffer. -/
  | buffer (vs : List ValueRef)
  | value (v : ValueRef)
deriving DecidableEq

/-- An exception a step mentions. -/
inductive ExceptionRef where
  | error (cls : ExceptionClass) (message : String)
  | thrown (v : ValueRef)
deriving DecidableEq

/-- A function object to make. -/
structure FunctionSpec where
  name : Option String := none
  argCount : Nat := 0
  varCount : Nat := 0
  codeLength : Nat := 0
  constants : List ValueRef := []
  closureVars : List ClosureVar := []
  lines : Option (List LineEntry) := none
  /-- The captured variables it holds, by name. -/
  captured : List String := []
  /-- Does it have bytecode? -/
  hasCode : Bool := true
  /-- Does it hold captured variables at all? -/
  isClosure : Bool := true

/-- An instruction whose words may be given as values. -/
inductive InstrSpec where
  | const (w : WordRef)
  | add (a b : Nat)
  | select (condition a b : Nat)
  | call (k : HelperKind) (args : List Nat)
  | require (k : HelperKind)
  | has (k : HelperKind)

/-- How an operation is reached. -/
inductive Route where
  | direct
  /-- Below the checks of declared layouts. -/
  | chain
deriving DecidableEq

/-- A single operation. Where a name to store under is given, the result is stored. -/
inductive Op where
  /-- An operator, called directly or as a helper. -/
  | operator (k : HelperKind) (args : List ValueRef) (asHelper : Bool) (store : Option String)
  /-- Any helper, with raw words. -/
  | helper (k : HelperKind) (words : List WordRef) (store : Option String)
  | enter (frame : FrameRef) (function : ValueRef) (args : Option (List ValueRef))
      (count : Option Nat) (route : Route)
  | attachLocals (frame : FrameRef) (locals : Option (List ValueRef)) (count : Option Nat)
      (route : Route)
  | setPc (frame : FrameRef) (pc : Nat)
  /-- Records an offset in the code of a given function. -/
  | setPcIn (frame : FrameRef) (function : ValueRef) (pc : Nat)
  | exit (frame : FrameRef)
  | constant (function : ValueRef) (index : Nat) (store : Option String)
  | captured (function : ValueRef) (index : Nat) (store : Option String)
  | code (function : ValueRef)
  | frame (frame : FrameRef)
  | buffers (frame : FrameRef)
  /-- Writes a slot of a frame's buffers behind its back. -/
  | poke (frame : FrameRef) (kind : SlotKind) (index : Nat) (v : ValueRef)
  | chain
  | walk
  | trace
  | currentArg (index : Nat) (store : Option String)
  | currentLocal (index : Nat) (store : Option String)
  | setCurrentLocal (index : Nat) (v : ValueRef)
  | setCurrentPc (function : ValueRef) (pc : Nat)
  | captureCurrent (index : Nat) (kind : SlotKind) (store : Option String)
  | capture (frame : FrameRef) (index : Nat) (kind : SlotKind) (store : Option String)
  /-- A new variable that owns its value. -/
  | newVariable (v : ValueRef) (store : Option String)
  | variable (name : String) (store : Option String)
  | setVariable (name : String) (v : ValueRef)
  | sameVariable (a b : String)
  | value (v : ValueRef) (store : Option String)
  | panic (message : String)
  | raise (e : ExceptionRef) (store : Option String)
  | hasException
  | exception
  | takeException
  | renewContext
  | contextText
  | drain
  | newText (t : String) (store : Option String)
  | newSymbol (store : Option String)
  | newObject (keys : List String) (constructor : Option ValueRef) (store : Option String)
  | newFunction (f : FunctionSpec) (store : Option String)
  | failNext (e : ExceptionRef)
  /-- A compiler whose table has the given helpers; all of them when none are named. -/
  | newCompiler (helpers : Option (List HelperKind))
  | compile (name : String) (params : Nat) (body : List InstrSpec) (answer : Option Nat)
      (store : Option String)
  | invoke (name : String) (args : List WordRef) (store : Option String)

/-- What a reply says. Each kind of call reads the fields that concern it and no others. -/
structure ReplyContent where
  /-- An operator's call fails with it. -/
  failure : Option ExceptionRef := none
  /-- Otherwise the operator's result is the operand in this slot. -/
  operand : Option Nat := none
  /-- Otherwise it is this value, which also answers a call for a text or a duplicate. -/
  result : Option ValueRef := none
  /-- Answers a question for a truth. -/
  affirms : Bool := false
  /-- Answers a question for a category. -/
  category : Category := .undefined
deriving DecidableEq

mutual

/-- A step of a session. -/
inductive Step where
  | op (o : Op)
  /-- Runs steps inside a new frame. -/
  | scope (function : ValueRef) (args locals : List ValueRef) (body : List Step)
  /-- A panic of the step becomes its answer. -/
  | caught (s : Step)
  /-- Hands replies to the scripted interpreter. -/
  | script (replies : List Reply)

/-- What the scripted interpreter does when it is called. The empty reply does nothing. -/
inductive Reply where
  | empty
  | reply (steps : Option (List Step)) (content : ReplyContent)

end

instance : Inhabited Step := ⟨.op .walk⟩

instance : Inhabited Reply := ⟨.empty⟩

/-! ## Answers -/

/-- A panic that the session caught, or the answer of a step. -/
inductive Answer where
  | done
  | value (v : Value)
  | flag (b : Bool)
  | count (n : Nat)
  | text (s : String)
  | code (c : Bytecode)
  | frame (f : Frame) (below : Option String)
  | buffers (args locals : List Value)
  | chain (c : Chain) (current : Option String)
  | walk (frames : List FrameInfo)
  | trace (entries : List TraceEntry)
  | variable (shared : Bool) (v : Value) (text : String)
  | same (b : Bool)
  | scope (body : List Answer) (args locals : List Value) (depth : Nat)
  | exception (e : Option (Exception × String))
  | renewed (depth : Nat) (pending : Bool)
  | compiled (params : Nat)
  | refused (e : CompileError)
  /-- What the reference interpreter kept track of. -/
  | observed (calls : List String) (released duplicated : List Value)
      (traces : List (List String)) (armed : Bool)
  /-- What the recording interpreter wrote down. -/
  | recorded (calls : List String)
  /-- What the scripted interpreter was called with, and how many replies are left. -/
  | scripted (calls : List (String × List Value × Option (List Answer))) (left : Nat)
  | failed (p : Panic)

end TieredVm.Session
