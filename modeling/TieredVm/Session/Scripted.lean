import TieredVm.Session.Perform

/-!
# The scripted interpreter

An interpreter that does what it was told beforehand. It holds a queue of replies; every call takes
the next one, writes down what it was called with, runs the reply's steps on the machine it was
called from, and then fails or answers as the reply says.

A reply's steps may call operators again, and so take further replies. Each call uses one up, so
calls nest no deeper than there are replies to take.
-/

namespace TieredVm.Session.Scripted

/-- What the scripted interpreter knows about one of its objects. -/
structure Object where
  code : Option Bytecode := none
  captured : Option (List Capture) := none

/-- The state of the scripted interpreter. -/
structure State where
  /-- The replies still to come. -/
  queue : List Reply := []
  /-- The calls so far: what was called, with which values, and what the reply's steps answered. -/
  calls : List (String × List Value × Option (List Answer)) := []
  objects : List Object := []

/-- Where the first object lies. Objects are sixteen bytes apart. -/
def objectBase : Nat := 0x1000

/-- The object at an address. -/
def State.objectAt? (s : State) (p : Pointer) : Option Object :=
  if objectBase ≤ p.addr ∧ (p.addr - objectBase) % 16 = 0 then
    s.objects[(p.addr - objectBase) / 16]?
  else none

/-! ## Calls and replies -/

/-- Writes a call down. -/
def note (name : String) (values : List Value) : Local (Hosted State) Unit :=
  hostLocal (modify fun s => { s with calls := s.calls ++ [(name, values, none)] })

/-- Writes a call down and takes the next reply. With none left, the call gets the empty one. -/
def next (name : String) (values : List Value) : Local (Hosted State) Reply := do
  note name values
  hostLocal (modifyGet fun s => (s.queue.headD .empty, { s with queue := s.queue.tail }))

/-- Adds what a reply's steps answered to the call it was for. -/
def noteAnswers (call : Nat) (answers : List Answer) : Local (Hosted State) Unit :=
  hostLocal <| modify fun s =>
    { s with calls := s.calls.modify call fun c => (c.1, c.2.1, some answers) }

/-- A value a reply mentions. -/
def valueFor (v : ValueRef) : Local (Hosted State) Value := return (← get).env.value v

/-- What a reply says, if it is not the empty one. -/
def content? : Reply → Option ReplyContent
  | .empty => none
  | .reply _ c => some c

/-- The value a reply gives to a call that is not an operator's: the empty reply gives
`otherwise`, and one without a value gives null. -/
def resultOr (otherwise : Value) (r : Reply) : Local (Hosted State) Value :=
  match content? r with
  | none => return otherwise
  | some c => valueFor (c.result.getD (.lit .null))

/-- The operands an operator entry leaves behind, or the exception it fails with. A reply that
names neither a slot nor a value leaves them as they are. -/
def conclude {n : Nat} (operands : Operands (n + 1)) (c : ReplyContent) :
    Attempt (Hosted State) (Operands (n + 1)) := do
  match c.failure, c.operand, c.result with
  | some e, _, _ => throw ((← Attempt.lift env).exception e)
  | none, some slot, _ =>
    match operands.get slot with
    | .ok v => return operands.withResult v
    | .error p => Attempt.lift (throw (.panic p))
  | none, none, some v => return operands.withResult (← Attempt.lift (valueOf v))
  | none, none, none => return operands

/-- An operator entry, given how the steps of a reply are run. -/
def entry {n : Nat} (run : List Step → Run (Hosted State) (List Answer)) (point : EntryPoint) :
    Entry (Hosted State) (n + 1) := fun operands => do
  let call := (← get).runtime.guest.calls.length
  match ← Attempt.lift (Run.onRuntime (next point.text operands.toList)) with
  | .empty => return operands.withResult .uninitialized
  | .reply steps content =>
    if let some steps := steps then
      let answers ← Attempt.lift (run steps)
      Attempt.lift (Run.onRuntime (noteAnswers call answers))
    conclude operands content

/-- The scripted interpreter, given how the steps of a reply are run. -/
def interpreterWith (run : List Step → Run (Hosted State) (List Answer)) :
    Interpreter (Hosted State) where
  bytecode := fun h p => (h.guest.objectAt? p).bind Object.code
  captures := fun h p => (h.guest.objectAt? p).bind Object.captured
  duplicate := fun v => do resultOr v (← next "dup_value" [v])
  add := entry run .add
  arith := fun op => entry run (.arith op)
  logic := fun op => entry run (.logic op)
  shr := entry run .shr
  unary := fun op => entry run (.unary op)
  relational := fun op => entry run (.relational op)
  equal := fun n => entry run (.equal n)
  strictEqual := fun n => entry run (.strictEqual n)
  instanceOf := entry run .instanceOf
  contains := entry run .contains
  truth := fun v => do
    return (content? (← next "to_bool_free" [v])).any ReplyContent.affirms
  category := fun v => do
    return (content? (← next "typeof_kind" [v])).elim .undefined ReplyContent.category
  categoryText := fun c => do
    resultOr .uninitialized (← next s!"atom_to_string({c.name})" [])
  release := fun v => note "free_value" [v]

/-! ## The interpreter for a session -/

/-- A new object. -/
def newObject (o : Object) : Local State Value := do
  let s ← get
  match Pointer.ofAddr? (objectBase + 16 * s.objects.length) with
  | none => throw (.abort .outOfMemory)
  | some p =>
    set { s with objects := s.objects ++ [o] }
    return .ofPointer .object p

/-- What a session can do with the scripted interpreter. -/
def kit : Kit State where
  fresh := {}
  newObject := fun _ _ => newObject {}
  newFunction := fun f code captured =>
    newObject { code := if f.hasCode then some code else none
                captured := if f.isClosure then some captured else none }
  script := fun replies => modify fun s => { s with queue := s.queue ++ replies }
  drain := modifyGet fun s => (.scripted s.calls s.queue.length, { s with calls := [] })
  text := fun _ => some "Script"

/-- The scripted interpreter, its replies nested at most `depth` deep. -/
def interpreterWithin : Nat → Interpreter (Hosted State)
  | 0 => interpreterWith fun _ => throw (.abort .tooDeep)
  | depth + 1 => interpreterWith (runSteps (interpreterWithin depth) kit)

mutual

/-- How many replies a step brings along. -/
def stepReplies : Step → Nat
  | .op _ => 0
  | .scope _ _ _ body => stepsReplies body
  | .caught s => stepReplies s
  | .script replies => repliesReplies replies

/-- How many replies steps bring along. -/
def stepsReplies : List Step → Nat
  | [] => 0
  | s :: rest => stepReplies s + stepsReplies rest

/-- How many replies a reply stands for: itself and those its steps bring along. -/
def replyReplies : Reply → Nat
  | .empty => 1
  | .reply none _ => 1
  | .reply (some steps) _ => stepsReplies steps + 1

/-- How many replies a list of replies stands for. -/
def repliesReplies : List Reply → Nat
  | [] => 0
  | r :: rest => replyReplies r + repliesReplies rest

end

/-- The scripted interpreter for a session of the given steps. -/
def interpreter (steps : List Step) : Interpreter (Hosted State) :=
  interpreterWithin (stepsReplies steps + 1)

end TieredVm.Session.Scripted
