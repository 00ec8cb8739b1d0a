import TieredVm.Proofs.Bytecode.Lines
import TieredVm.Proofs.Frame.Chronicle
import TieredVm.Reference.Entries

/-!
# A stack trace tells what happened

A trace has one line for every activation that was begun and not left, most recent first, whatever a run
made of its frames in between. What a line says of its activation (`TraceEntry.Tells`) is said in terms
of the chronicle of the run, of the bytecode that a model finds for the function, and of the entries of
its line table: nothing is left in it of the frame, which may have kept other activations before, nor of
how the table is searched.

* `TraceEntry.report_eq_iff`: the text of a line shows a position iff the line has it.
* `Activation.traceEntry_tells`: one line.
* `trace_tells_chronicle`: the trace.
-/

namespace TieredVm

variable {R : Type} {bytecode : Pointer → Option Bytecode}

/-! ## Texts -/

namespace TraceEntry

/-- Positions with the same text are the same. -/
theorem position_inj {name : String} {line column other place : Nat}
    (h : s!"at {name} ({line}:{column})" = s!"at {name} ({other}:{place})") :
    line = other ∧ column = place := by
  have hcolon : ∀ n : Nat, ':' ∉ Nat.toDigits 10 n := fun n hmem =>
    absurd (Nat.isDigit_of_mem_toDigits (by decide) (by decide) hmem) (by decide)
  have hdigits : ∀ {n k : Nat}, Nat.toDigits 10 n = Nat.toDigits 10 k → n = k := fun {n k} hnk => calc
    n = Nat.ofDigitChars 10 (Nat.toDigits 10 n) 0 := Nat.ofDigitChars_ten_toDigits.symm
    _ = Nat.ofDigitChars 10 (Nat.toDigits 10 k) 0 := by rw [hnk]
    _ = k := Nat.ofDigitChars_ten_toDigits
  have hlists := congrArg String.toList h
  simp only [toString, String.toList_append, List.append_assoc, List.append_cancel_left_eq,
    Nat.toList_repr] at hlists
  -- The colon is the first one in either text.
  have hparts : Nat.toDigits 10 line ++ ':' :: (Nat.toDigits 10 column ++ [')']) =
      Nat.toDigits 10 other ++ ':' :: (Nat.toDigits 10 place ++ [')']) := hlists
  have hrest : ':' ∉ Nat.toDigits 10 column ++ [')'] := by simp [hcolon]
  obtain ⟨hline, -, hcolumn⟩ := (List.append_cons_inj_of_notMem (hcolon line) hrest).mp hparts
  exact ⟨hdigits hline, hdigits (List.append_cancel_right hcolumn)⟩

/-- **The text of a line shows a position iff the line has it.** -/
theorem report_eq_iff (e : TraceEntry) (line column : Nat) :
    e.report = s!"at {e.name} ({line}:{column})" ↔ e.line = some line ∧ e.column = some column := by
  constructor
  · intro h
    unfold report at h
    split at h
    · rename_i l c hl hc
      obtain ⟨rfl, rfl⟩ := position_inj h
      exact ⟨hl, hc⟩
    · have hlength := congrArg String.length h
      have hopening : " (".length = 2 := rfl
      simp only [toString, String.length_append] at hlength
      omega
  · rintro ⟨hl, hc⟩
    rw [report, hl, hc]

theorem report_of_none {e : TraceEntry} (h : e.line = none) : e.report = s!"at {e.name}" := by
  rw [report, h]

end TraceEntry

/-! ## One line -/

namespace Ongoing

/-- The bytecode of the function, if it is a bytecode function. -/
def code? (bytecode : Pointer → Option Bytecode) (a : Ongoing) : Option Bytecode :=
  match a.function.asPointer? (.heap .object) with
  | .ok p => p.bind bytecode
  | .error _ => none

/-- The line table of the function, if it has one. -/
def table? (bytecode : Pointer → Option Bytecode) (a : Ongoing) : Option LineTable :=
  (a.code? bytecode).bind Bytecode.lines

/-- The last entry of the line table at or before the offset recorded last. -/
def position? (bytecode : Pointer → Option Bytecode) (a : Ongoing) : Option LineEntry :=
  (a.table? bytecode).bind fun t => a.pc.bind t.scan

end Ongoing

/-- What a line of a trace says of an activation. -/
structure TraceEntry.Tells (bytecode : Pointer → Option Bytecode) (a : Ongoing) (e : TraceEntry) :
    Prop where
  pc : e.pc = a.pc
  name : e.name = match a.code? bytecode with
    | some code => code.name.getD "<anonymous>"
    | none => "<native>"
  /-- Line and column are there together. -/
  together : e.line.isSome = e.column.isSome
  /-- They are there iff the function has a line table with an entry at or before the offset. -/
  located_iff : (∀ t, a.table? bytecode = some t → t.Ordered) →
    (e.line.isSome ↔ ∃ t pc, a.table? bytecode = some t ∧ a.pc = some pc ∧
      ∃ entry ∈ t.entries, entry.pc ≤ pc)
  /-- Then they are those of the last such entry. -/
  position : (∀ t, a.table? bytecode = some t → t.Ordered) →
    e.line = (a.position? bytecode).map LineEntry.line ∧
      e.column = (a.position? bytecode).map LineEntry.column
  /-- The text shows exactly the position that is there. -/
  report_iff : ∀ line column, e.report = s!"at {e.name} ({line}:{column})" ↔
    e.line = some line ∧ e.column = some column
  report_unlocated : e.line = none → e.report = s!"at {e.name}"

namespace Ongoing

/-- There is an entry at or before the offset iff there is a last one. -/
theorem isSome_position? (a : Ongoing) : (a.position? bytecode).isSome ↔
    ∃ t pc, a.table? bytecode = some t ∧ a.pc = some pc ∧ ∃ entry ∈ t.entries, entry.pc ≤ pc := by
  unfold position?
  cases ht : a.table? bytecode with
  | none => simp
  | some t =>
    cases hp : a.pc with
    | none => simp
    | some pc => simpa using t.isSome_scan pc

/-- What the bytecode finds by halving are line and column of that entry. -/
theorem find_position? (a : Ongoing) (ho : ∀ t, a.table? bytecode = some t → t.Ordered) :
    ((a.code? bytecode).bind fun code => a.pc.bind code.position?) =
      (a.position? bytecode).map fun entry => (entry.line, entry.column) := by
  unfold position? table? at *
  cases hc : a.code? bytecode with
  | none => rfl
  | some code =>
    rw [hc] at ho
    cases hp : a.pc with
    | none => simp
    | some pc =>
      simp only [Option.bind_some, Bytecode.position?]
      cases ht : code.lines with
      | none => rfl
      | some t =>
        simp only [bind, Option.bind_some, LineTable.find?_eq_scan (ho t ht) pc]
        cases t.scan pc <;> rfl

end Ongoing

/-- **A line tells of its activation.** -/
theorem Activation.traceEntry_tells (a : Activation) (h : a.function.dangling = false) :
    ∃ e, Chain.traceEntry bytecode a.info = .ok e ∧ e.Tells bytecode a.recounted := by
  obtain ⟨p, hp⟩ := Value.asPointer?_of_shown (t := .heap .object) h
  have hcode : a.recounted.code? bytecode = p.bind bytecode := by
    unfold Ongoing.code?
    rw [show a.recounted.function = a.function from rfl, hp]
  obtain ⟨found, hfound⟩ : ∃ found, (a.recounted.code? bytecode).bind
      (fun code => a.recounted.pc.bind code.position?) = found := ⟨_, rfl⟩
  have hentry : Chain.traceEntry bytecode a.info = .ok
      { name := ((a.recounted.code? bytecode).map Bytecode.displayName).getD "<native>", pc := a.pc
        line := found.map Prod.fst, column := found.map Prod.snd } := by
    unfold Chain.traceEntry
    rw [← hfound, hcode, show a.info.function = a.function from rfl, hp]
    rfl
  have hlast : (∀ t, a.recounted.table? bytecode = some t → t.Ordered) →
      found = (a.recounted.position? bytecode).map fun entry => (entry.line, entry.column) :=
    fun ho => hfound.symm.trans (a.recounted.find_position? ho)
  refine ⟨_, hentry, ?_⟩
  constructor
  case pc => rfl
  case name => cases a.recounted.code? bytecode <;> rfl
  case together => simp
  case located_iff =>
    intro ho
    rw [← Ongoing.isSome_position?, Option.isSome_map, hlast ho, Option.isSome_map]
  case position =>
    intro ho
    rw [hlast ho, Option.map_map, Option.map_map]
    exact ⟨rfl, rfl⟩
  case report_iff => exact TraceEntry.report_eq_iff _
  case report_unlocated => exact TraceEntry.report_of_none

/-! ## The trace -/

/-- Where every element has an answer, the list of the answers is answered. -/
theorem mapM_forall₂ {α β ε : Type} {f : α → Except ε β} {P : α → β → Prop} {l : List α}
    (h : ∀ a ∈ l, ∃ b, f a = .ok b ∧ P a b) : ∃ bs, l.mapM f = .ok bs ∧ List.Forall₂ P l bs := by
  induction l with
  | nil => exact ⟨[], rfl, .nil⟩
  | cons a l ih =>
    obtain ⟨b, hb, hP⟩ := h a List.mem_cons_self
    obtain ⟨bs, hbs, hPs⟩ := ih fun x hx => h x (List.mem_cons_of_mem a hx)
    exact ⟨b :: bs, by rw [List.mapM_cons, hb, hbs]; rfl, .cons hP hPs⟩

/-- The trace of a machine that events led to. -/
theorem LedTo.trace {log : List ChainEvent} {m : Machine R} (h : LedTo log m)
    (hshown : ∀ a ∈ ChainEvent.ongoing log, a.function.dangling = false) :
    ∃ entries, Chain.trace bytecode m = .ok entries ∧
      List.Forall₂ (fun a e => e.Tells bytecode a) (ChainEvent.ongoing log) entries := by
  obtain ⟨rec, s, hs, hlog⟩ := h
  rw [hlog] at hshown ⊢
  obtain ⟨entries, htrace, htells⟩ := mapM_forall₂ (l := s.linked)
    (P := fun (a : Activation) (e : TraceEntry) => e.Tells bytecode a.recounted)
    fun a ha => a.traceEntry_tells (hshown _ (List.mem_map_of_mem ha))
  refine ⟨entries, ?_, List.forall₂_map_left_iff.mpr htells⟩
  rw [Chain.trace, hs.walk, List.mapM_map]
  exact htrace

/-- **A stack trace tells what happened.** From rest, whatever a caller does whose operators leave the
frames alone, and whatever model finds the bytecode: a trace has one line for every activation that was
begun and not left, most recent first, and each line tells of its activation, unless the function of one
is a reference to nothing. -/
theorem trace_tells_chronicle (I : Interpreter R) {start : Machine R} (hrest : start.AtRest)
    (c : Caller R) (hframes : c.Along I (fun m r => r.LeavesFrames I m) (fun _ _ => True) start)
    (hshown : ∀ a ∈ ChainEvent.ongoing (c.chronicle I start), a.function.dangling = false)
    (O : ObjectModel R) :
    ∃ entries, O.trace (Result.state (c.run I start)) = .ok entries (Result.state (c.run I start)) ∧
      List.Forall₂ (fun a e => e.Tells (O.bytecode (Result.state (c.run I start)).runtime) a)
        (ChainEvent.ongoing (c.chronicle I start)) entries := by
  have hled := hrest.ledTo.caller c hframes
  rw [List.nil_append] at hled
  obtain ⟨entries, htrace, htells⟩ := hled.trace hshown
  refine ⟨entries, ?_, htells⟩
  rw [ObjectModel.trace, Run.bind_of_ok (Run.get_apply _), htrace]
  rfl

/-! ### A frame that is used again -/

namespace Reused

open Reference

def function : Value := .boxed HeapTag.object.box (cellAddress 0)

/-- A function with two positions. -/
def code : Bytecode where
  name := some "f"
  codeLength := 8
  lines := some (.ofList [⟨2, 1, 1⟩, ⟨4, 2, 5⟩])

def start : Machine State where
  runtime := { cells := #[.function code []] }
  freshFrame := 2

/-- Enters a frame, records an offset and leaves it, enters it anew, and gives up inside a scope that has
recorded an offset of its own. -/
def caller : Caller State :=
  .ask (.transition (.enter true (.owned 1) function 8 0)) fun _ =>
  .ask (.transition (.setHeldPc .current 5)) fun _ =>
  .ask (.transition (.exit .current)) fun _ =>
  .ask (.transition (.enter true (.owned 1) function 8 0)) fun _ =>
  .scope { function := function } (.ask (.transition (.setHeldPc .current 3)) fun _ =>
    .stop (.abort .outOfMemory)) fun _ => .done .done

end Reused

open Reused in
theorem trace_tells_chronicle_reused :
    start.AtRest ∧
    caller.Along (Reference.interpreterWith Double.power)
      (fun m r => r.LeavesFrames (Reference.interpreterWith Double.power) m) (fun _ _ => True) start ∧
    caller.chronicle (Reference.interpreterWith Double.power) start =
      [.begun 1 function, .moved 1 5, .left 1, .begun 1 function, .begun 2 function, .moved 2 3] ∧
    ∃ entries, Reference.objectModel.trace
        (Result.state (caller.run (Reference.interpreterWith Double.power) start)) =
          .ok entries (Result.state (caller.run (Reference.interpreterWith Double.power) start)) ∧
      List.Forall₂ (fun a e => e.Tells (Reference.objectModel.bytecode
          (Result.state (caller.run (Reference.interpreterWith Double.power) start)).runtime) a)
        [⟨2, function, some 3⟩, ⟨1, function, none⟩] entries := by
  have hrest : start.AtRest :=
    ⟨rfl, fun _ => (by decide : FrameState.unlinked ≠ .active), fun _ => rfl⟩
  have hframes : caller.Along (Reference.interpreterWith Double.power)
      (fun m r => r.LeavesFrames (Reference.interpreterWith Double.power) m) (fun _ _ => True)
      start :=
    ⟨False.elim, fun _ _ _ => ⟨False.elim, fun _ _ _ => ⟨False.elim, fun _ _ _ => ⟨False.elim,
      fun _ _ _ => ⟨trivial, fun _ _ _ => ⟨False.elim, fun _ _ _ => trivial⟩,
        fun _ _ _ => trivial⟩⟩⟩⟩⟩
  have hchronicle : caller.chronicle (Reference.interpreterWith Double.power) start =
      [.begun 1 function, .moved 1 5, .left 1, .begun 1 function, .begun 2 function, .moved 2 3] := by
    decide +kernel
  have htells := trace_tells_chronicle (Reference.interpreterWith Double.power) hrest caller hframes
    (by rw [hchronicle]; decide) Reference.objectModel
  rw [hchronicle] at htells
  exact ⟨hrest, hframes, hchronicle, htells⟩

end TieredVm
