import TieredVm.Recording
import TieredVm.Reference.Entries
import TieredVm.Session.Scripted

/-!
# Playing a session

A session runs its steps on one machine, in order. A step that panics is answered with its panic
and the next one goes on with the state it left; an abort ends the session, and the answers so far
stand.
-/

namespace TieredVm.Session

/-- The interpreter that a session drives. -/
inductive Guest where
  | reference | recording | scripted
deriving DecidableEq, Repr

/-- A step that ran to its end. -/
structure PlayedStep where
  answer : Answer
  /-- The lines of the step's journal, if one was kept. -/
  journal : Option (List String)
  /-- For a value that refers to a heap cell, the text the cell holds, if any. -/
  describe : Value → Option (Option String)

/-- A session that was played. -/
structure Outcome where
  /-- The steps that ran to their end, in order. -/
  steps : List PlayedStep := []
  /-- Why the session ended early, with the journal of its last step. -/
  aborted : Option (Abort × Option (List String)) := none

/-- What a session can do with the reference interpreter. -/
def referenceKit : Kit Reference.State where
  fresh := {}
  newText := Reference.newText
  newSymbol := Reference.newSymbol
  newObject := Reference.newObject
  newFunction := fun _ code captured => Reference.newFunction code captured
  failNext := fun e => modify fun s => { s with failNext := some e }
  drain := modifyGet fun s =>
    (.observed s.calls s.released s.duplicated s.traces s.failNext.isSome,
      { s with calls := [], released := [], duplicated := [], traces := [] })
  describe := Reference.State.describe?

/-- What a session can do with the recording interpreter. -/
def recordingKit : Kit Recording.State where
  fresh := {}
  drain := modifyGet fun s => (.recorded s.calls, {})
  text := fun s => some s.text

section

variable {G : Type} (I : Interpreter (Hosted G)) (kit : Kit G)

/-- A machine whose journal is empty, and kept only on request. -/
def withJournal (keep : Bool) (m : Machine (Hosted G)) : Machine (Hosted G) :=
  { m with journal := if keep then some [] else none }

/-- What is kept of a step. -/
def played (answer : Answer) (m : Machine (Hosted G)) : PlayedStep :=
  { answer, journal := m.journal, describe := kit.describe m.runtime.guest }

/-- The outcome of a session with one more step in front. -/
def Outcome.prepend (s : PlayedStep) (later : Outcome) : Outcome :=
  { later with steps := s :: later.steps }

/-- Runs steps one after the other, from a given machine on. -/
def playFrom (keepJournal : Bool) : List Step → Machine (Hosted G) → Outcome
  | [], _ => {}
  | s :: rest, m =>
    match runStep I kit s (withJournal keepJournal m) with
    | .ok a m => (playFrom keepJournal rest m).prepend (played kit a m)
    | .error (.panic p) m => (playFrom keepJournal rest m).prepend (played kit (.failed p) m)
    | .error (.abort a) m => { aborted := some (a, m.journal) }

/-- Plays a session against an interpreter in its initial state. -/
def playWith (keepJournal : Bool) (steps : List Step) : Outcome :=
  playFrom I kit keepJournal steps { runtime := { guest := kit.fresh } }

end

/-- Plays a session against one of the interpreters. -/
def play (guest : Guest) (keepJournal : Bool) (steps : List Step) : Outcome :=
  match guest with
  | .reference =>
    playWith (hostInterpreter Reference.interpreter) referenceKit keepJournal steps
  | .recording =>
    playWith (hostInterpreter Recording.interpreter) recordingKit keepJournal steps
  | .scripted => playWith (Scripted.interpreter steps) Scripted.kit keepJournal steps

end TieredVm.Session
