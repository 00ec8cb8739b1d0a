import Mathlib.Data.Finset.Card
import Mathlib.Logic.Relation
import TieredVm.Frame.Trace
import TieredVm.Proofs.Operator.HandOff
import TieredVm.Proofs.Reference.Conversions
import TieredVm.Reference.Entries

/-!
# The calls that an addition makes

An operand of an addition stands for itself, or for the sum of the first two constants of a function,
which may be functions again. `Addend` is the tree of calls that follows from this, and
`Addend.evaluate` adds it up: from left to right, up to the first exception, with no frames, no
pending exception and no machine. What is left behind is a `Log` of the texts made, of the additions
handed to the interpreter, and of the calls in the order in which they were left.

* `Evaluable`: every function that is reached takes no arguments, has its two constants and does not
  reach itself, and no reference to nothing is reached.
* `Evaluable.exists_unfolds`: then the operand unfolds to a tree, and its calls are nested no deeper
  than there are functions.
* `Addend.evaluate_made`: the calls made are those of the tree in post-order, all of them unless an
  addition fails.
-/

namespace TieredVm

/-- The entry of a function in a trace, at the first offset of its code. -/
def Bytecode.firstEntry (code : Bytecode) : TraceEntry :=
  { name := code.displayName, pc := some 0, line := (code.position? 0).map Prod.fst
    column := (code.position? 0).map Prod.snd }

namespace Reference

/-! ## Trees of calls -/

/-- What an operand of an addition stands for: itself, or the sum of the two constants of a
function. -/
inductive Addend where
  | plain (v : Value)
  | call (function : Value) (left right : Addend)

namespace Addend

/-- The operand. -/
def operand : Addend → Value
  | plain v => v
  | call f _ _ => f

/-- How deep calls are nested. -/
def height : Addend → Nat
  | plain _ => 0
  | call _ l r => max l.height r.height + 1

/-- The calls in post-order, each with the functions on the path from it outwards. -/
def paths (outward : List Value) : Addend → List (List Value)
  | plain _ => []
  | call f l r => l.paths (f :: outward) ++ r.paths (f :: outward) ++ [f :: outward]

end Addend

namespace State

variable (s : State)

/-- The bytecode of a value that is a function. -/
def code? (v : Value) : Option Bytecode :=
  match v.asPointer? (.heap .object) with
  | .ok (some p) => s.bytecode? p
  | _ => none

/-- A function leads to its first two constants. -/
def LeadsTo (v w : Value) : Prop :=
  ∃ code, s.code? v = some code ∧ (code.constant? 0 = some w ∨ code.constant? 1 = some w)

/-- A value reaches what functions lead to, over any number of steps. -/
abbrev Reaches : Value → Value → Prop := Relation.ReflTransGen s.LeadsTo

/-- An operand can be evaluated. -/
structure Evaluable (v : Value) : Prop where
  /-- No reference to nothing is reached. -/
  shown : ∀ w, s.Reaches v w → w.dangling = false
  /-- A function that is reached takes no arguments and has two constants. -/
  callable : ∀ w code, s.Reaches v w → s.code? w = some code →
    code.argCount = 0 ∧ 2 ≤ code.constants.size
  /-- None reaches itself, so that calls come to an end. -/
  acyclic : ∀ w, s.Reaches v w → ¬ Relation.TransGen s.LeadsTo w w

/-- An operand unfolds to a tree of calls. -/
inductive Unfolds : Value → Addend → Prop where
  | plain {v : Value} (shown : v.dangling = false) (code : s.code? v = none) : Unfolds v (.plain v)
  | call {f a b : Value} {code : Bytecode} {l r : Addend} (hcode : s.code? f = some code)
      (nullary : code.argCount = 0) (first : code.constant? 0 = some a)
      (second : code.constant? 1 = some b) (left : Unfolds a l) (right : Unfolds b r) :
      Unfolds f (.call f l r)

variable {s}

theorem Unfolds.operand_eq {v : Value} {t : Addend} (h : s.Unfolds v t) : t.operand = v := by
  cases h <;> rfl

/-- An operand unfolds to one tree. -/
theorem Unfolds.unique {v : Value} {t u : Addend} (ht : s.Unfolds v t) (hu : s.Unfolds v u) :
    t = u := by
  induction ht generalizing u with
  | plain shown hcode =>
    cases hu with
    | plain => rfl
    | call hcode' => exact absurd (hcode.symm.trans hcode') (by simp)
  | call hcode _ first second _ _ ihl ihr =>
    cases hu with
    | plain _ hcode' => exact absurd (hcode'.symm.trans hcode) (by simp)
    | call hcode' _ first' second' left' right' =>
      obtain rfl := Option.some.inj (hcode.symm.trans hcode')
      obtain rfl := Option.some.inj (first.symm.trans first')
      obtain rfl := Option.some.inj (second.symm.trans second')
      rw [ihl left', ihr right']

/-! ### Functions -/

theorem exists_pointer_of_code? {v : Value} {code : Bytecode} (h : s.code? v = some code) :
    ∃ p, v.kind = .ok (.heap .object p) ∧ s.bytecode? p = some code := by
  unfold code? Value.asPointer? at h
  cases hk : v.kind with
  | error e => rw [hk] at h; exact absurd h (by simp [bind, Except.bind])
  | ok k =>
    rw [hk] at h
    cases k with
    | heap t p =>
      by_cases ht : (Tag.heap .object) = .heap t
      · cases ht
        exact ⟨p, rfl, h⟩
      · simp only [bind, Except.bind, if_neg ht] at h
        exact absurd h (by simp [pure, Except.pure])
    | _ => exact absurd h (by simp [bind, Except.bind, pure, Except.pure])

theorem asPointer?_of_code? {v : Value} {code : Bytecode} (h : s.code? v = some code) :
    ∃ p, v.asPointer? (.heap .object) = .ok (some p) ∧ s.bytecode? p = some code := by
  obtain ⟨p, hk, hp⟩ := exists_pointer_of_code? h
  exact ⟨p, Value.asPointer?_of_kind hk _, hp⟩

theorem shown_of_code? {v : Value} {code : Bytecode} (h : s.code? v = some code) :
    v.dangling = false := by
  obtain ⟨p, hk, -⟩ := exists_pointer_of_code? h
  rw [Value.dangling, hk]

/-- References to all functions of the heap. -/
def functions (s : State) : List Value :=
  (s.cells.toList.zipIdx.filter fun c => match c.1 with
    | .function _ _ => true
    | _ => false).map fun c => .boxed HeapTag.object.box (cellAddress c.2)

theorem length_functions (s : State) : s.functions.length = s.functionCount := by
  unfold functions functionCount
  rw [List.length_map, ← List.countP_eq_length_filter]
  conv_rhs => rw [← List.zipIdx_map_fst 0 s.cells.toList, List.countP_map]
  rfl

theorem mem_functions {v : Value} {code : Bytecode} (h : s.code? v = some code) :
    v ∈ s.functions := by
  obtain ⟨p, hk, hcode⟩ := exists_pointer_of_code? h
  unfold bytecode? cellAt? at hcode
  split at hcode
  case h_2 => exact absurd hcode (by simp)
  case h_1 c captured hcell =>
    split at hcell
    case isFalse => exact absurd hcell (by simp)
    case isTrue haddr =>
      refine List.mem_map.mpr ⟨(.function c captured, (p.addr - heapBase) / 16), ?_, ?_⟩
      · refine List.mem_filter.mpr ⟨List.mem_zipIdx_iff_getElem?.mpr ?_, rfl⟩
        simpa using hcell
      · rw [Value.eq_ofPointer_of_kind hk]
        have : cellAddress ((p.addr - heapBase) / 16) = p.addr := by
          unfold cellAddress
          omega
        rw [Value.ofPointer, this]

/-! ### Unfolding -/

/-- Where functions have older functions as constants only, none reaches itself. -/
theorem acyclic_of_older
    (h : ∀ v w, s.LeadsTo v w → (s.code? w).isSome = true → w.payload < v.payload) (v : Value) :
    ¬ Relation.TransGen s.LeadsTo v v := by
  have hfunction : ∀ {v w}, s.LeadsTo v w → (s.code? v).isSome = true := by
    rintro v w ⟨code, hcode, -⟩
    rw [hcode]
    rfl
  have hless : ∀ {v w}, Relation.TransGen s.LeadsTo v w → (s.code? w).isSome = true →
      w.payload < v.payload := fun hvw => by
    induction hvw with
    | single hw => exact h _ _ hw
    | tail _ hw ih => exact fun hsome => (h _ _ hw hsome).trans (ih (hfunction hw))
  intro hv
  obtain ⟨w, hvw, -⟩ := Relation.TransGen.head'_iff.mp hv
  exact Nat.lt_irrefl _ (hless hv (hfunction hvw))

theorem Evaluable.of_leadsTo {v w : Value} (h : s.Evaluable v) (hw : s.LeadsTo v w) :
    s.Evaluable w where
  shown u hu := h.shown u (.head hw hu)
  callable u code hu := h.callable u code (.head hw hu)
  acyclic u hu := h.acyclic u (.head hw hu)

open Classical in
/-- The functions that a value reaches. -/
noncomputable def reached (s : State) (v : Value) : Finset Value :=
  s.functions.toFinset.filter (s.Reaches v)

theorem card_reached_le (v : Value) : (s.reached v).card ≤ s.functionCount := by
  classical
  rw [← length_functions]
  exact (Finset.card_filter_le _ _).trans s.functions.toFinset_card_le

/-- What a function leads to reaches fewer functions, if the function does not reach itself. -/
theorem card_reached_lt {v w : Value} (hw : s.LeadsTo v w)
    (hv : ¬ Relation.TransGen s.LeadsTo v v) : (s.reached w).card < (s.reached v).card := by
  classical
  obtain ⟨code, hcode, -⟩ := id hw
  refine Finset.card_lt_card ((Finset.ssubset_iff_of_subset ?_).mpr ⟨v, ?_, ?_⟩)
  · intro u hu
    have hu := Finset.mem_filter.mp hu
    exact Finset.mem_filter.mpr ⟨hu.1, .head hw hu.2⟩
  · exact Finset.mem_filter.mpr ⟨List.mem_toFinset.mpr (mem_functions hcode), .refl⟩
  · exact fun hmem => hv (.head' hw (Finset.mem_filter.mp hmem).2)

/-- **An operand that can be evaluated unfolds**, and calls are nested no deeper than there are
functions to call. -/
theorem Evaluable.exists_unfolds {v : Value} (h : s.Evaluable v) :
    ∃ t, s.Unfolds v t ∧ t.height ≤ s.functionCount := by
  suffices hn : ∀ n v, s.Evaluable v → (s.reached v).card = n → ∃ t, s.Unfolds v t ∧ t.height ≤ n by
    obtain ⟨t, ht, hle⟩ := hn _ v h rfl
    exact ⟨t, ht, hle.trans (card_reached_le v)⟩
  -- On the number of functions reached, which becomes smaller with every call.
  intro n
  induction n using Nat.strong_induction_on with
  | _ n ih =>
    intro v h hv
    cases hcode : s.code? v with
    | none => exact ⟨.plain v, .plain (h.shown v .refl) hcode, Nat.zero_le _⟩
    | some code =>
      obtain ⟨hargs, hsize⟩ := h.callable v code .refl hcode
      have ha : code.constant? 0 = some code.constants[0] := Array.getElem?_eq_getElem (by omega)
      have hb : code.constant? 1 = some code.constants[1] := Array.getElem?_eq_getElem (by omega)
      have hva : s.LeadsTo v code.constants[0] := ⟨code, hcode, .inl ha⟩
      have hvb : s.LeadsTo v code.constants[1] := ⟨code, hcode, .inr hb⟩
      have hla := card_reached_lt hva (h.acyclic v .refl)
      have hlb := card_reached_lt hvb (h.acyclic v .refl)
      obtain ⟨l, hl, hlh⟩ := ih _ (hv ▸ hla) _ (h.of_leadsTo hva) rfl
      obtain ⟨r, hr, hrh⟩ := ih _ (hv ▸ hlb) _ (h.of_leadsTo hvb) rfl
      refine ⟨.call v l r, .call hcode hargs ha hb hl hr, ?_⟩
      have : max l.height r.height < n := by omega
      exact this

end State

/-! ## Evaluation -/

/-- What an evaluation leaves behind. -/
structure Log where
  /-- The texts made, in order. -/
  texts : List String := []
  /-- How many additions were handed to the interpreter. -/
  handedOff : Nat := 0
  /-- The calls left, in order, each with the functions on the path from it outwards. -/
  calls : List (List Value) := []

/-- An evaluation ends with a value, or with the first exception it meets. -/
abbrev Evaluation := EStateM Exception Log

/-- Notes a call when it is left, failed or not. -/
def Evaluation.leaving (path : List Value) (x : Evaluation Value) : Evaluation Value := fun log =>
  match x log with
  | .ok v log => .ok v { log with calls := log.calls ++ [path] }
  | .error e log => .error e { log with calls := log.calls ++ [path] }

namespace State

variable (s : State)

/-- The state with further texts on the heap. -/
def withTexts (texts : List String) : State :=
  { s with cells := s.cells ++ (texts.map Cell.text).toArray }

/-- A reference to the text made after so many others. -/
def textRef (made : Nat) : Value := .boxed HeapTag.string.box (cellAddress (s.cells.size + made))

/-- The sum of two values that are no functions. A text joins, and all else is added by number, the
left one being converted first. -/
def plainSum (a b : Value) : Evaluation Value := fun log =>
  let now := s.withTexts log.texts
  if a.tag = .heap .string ∨ b.tag = .heap .string then
    .ok (s.textRef log.texts.length)
      { log with texts := log.texts ++ [now.shownText a ++ now.shownText b] }
  else
    match now.numberOf a, now.numberOf b with
    | .ok x, .ok y => .ok (.number (x.add y)) log
    | .error e, _ | .ok _, .error e => .error e log

/-- The sum of two operands, given what each stands for. Neither is looked at if there is an inline
answer. -/
def sumOf (x y : Value) (left right : Evaluation Value) : Evaluation Value :=
  match BinaryOp.add.inline? x y with
  | some v => pure v
  | none => do
    modify fun log => { log with handedOff := log.handedOff + 1 }
    let a ← left
    let b ← right
    s.plainSum a b

end State

/-- Adds up a tree of calls, on the path outwards. -/
def Addend.evaluate (s : State) : Addend → List Value → Evaluation Value
  | plain v, _ => pure v
  | call f l r, outward =>
    Evaluation.leaving (f :: outward) <|
      s.sumOf l.operand r.operand (l.evaluate s (f :: outward)) (r.evaluate s (f :: outward))

/-! ### The state afterwards -/

namespace State

variable (s : State)

/-- The line of a call in a trace. -/
def callLine (f : Value) : String := (s.code? f).elim "at <native>" fun code => code.firstEntry.report

/-- The state after an evaluation, for calls made above a chain with the given trace. -/
def after (base : List String) (log : Log) : State :=
  { s.withTexts log.texts with
    calls := s.calls ++ List.replicate log.handedOff EntryPoint.add.name
    traces := s.traces ++ log.calls.map fun path => path.map s.callLine ++ base }

/-- There is room for further texts on the heap. -/
def RoomFor (texts : Nat) : Prop := cellAddress (s.cells.size + texts) ≤ 0x1000000000000

instance decidableRoomFor (texts : Nat) : Decidable (s.RoomFor texts) := Nat.decLe _ _

variable {s} {base : List String} {log : Log}

theorem after_nil : s.after base {} = s := by
  simp [after, withTexts]

/-- Texts are no functions, so the functions are those there were. -/
theorem bytecode?_after : (s.after base log).bytecode? = s.bytecode? := by
  funext p
  unfold bytecode? cellAt? after withTexts
  by_cases haddr : heapBase ≤ p.addr ∧ (p.addr - heapBase) % 16 = 0
  · simp only [if_pos haddr, Array.getElem?_append, List.getElem?_toArray, List.getElem?_map]
    by_cases hsize : (p.addr - heapBase) / 16 < s.cells.size
    · rw [if_pos hsize]
    · rw [if_neg hsize, Array.getElem?_eq_none (Nat.le_of_not_lt hsize)]
      cases log.texts[(p.addr - heapBase) / 16 - s.cells.size]? <;> rfl
  · simp only [if_neg haddr]

theorem code?_after : (s.after base log).code? = s.code? := by
  funext v
  unfold code?
  rw [bytecode?_after]

end State

/-! ### The calls made -/

/-- An evaluation makes the listed calls in their order, all of them unless it fails. -/
structure Made (paths : List (List Value)) (log : Log) (r : EStateM.Result Exception Log Value) :
    Prop where
  all : ∀ v log', r = .ok v log' → log'.calls = log.calls ++ paths
  some : ∃ made, (Result.state r).calls = log.calls ++ made ∧ made.Sublist paths
  texts : log.texts.length ≤ (Result.state r).texts.length

namespace Made

variable {paths : List (List Value)} {log : Log} {v : Value} {e : Exception}

theorem ok {log' : Log} (h : log'.calls = log.calls ++ paths)
    (ht : log.texts.length ≤ log'.texts.length) : Made paths log (.ok v log') where
  all := by
    rintro _ _ ⟨⟩
    exact h
  some := ⟨paths, h, .refl _⟩
  texts := ht

theorem error {log' : Log} (made : List (List Value)) (h : log'.calls = log.calls ++ made)
    (hm : made.Sublist paths) (ht : log.texts.length ≤ log'.texts.length) :
    Made paths log (.error e log') where
  all := nofun
  some := ⟨made, h, hm⟩
  texts := ht

end Made

theorem State.plainSum_made (s : State) (a b : Value) (log : Log) :
    Made [] log (s.plainSum a b log) := by
  unfold plainSum
  simp only
  split
  · exact .ok (by simp) (by simp)
  · split
    · exact .ok (by simp) (Nat.le_refl _)
    · exact .error [] (by simp) (.refl _) (Nat.le_refl _)
    · exact .error [] (by simp) (.refl _) (Nat.le_refl _)

/-- What follows a part that did not fail makes the rest of the calls. -/
theorem Made.bind {x : Evaluation Value} {f : Value → Evaluation Value} {p q : List (List Value)}
    {log : Log} (hx : Made p log (x log)) (hf : ∀ v log, Made q log (f v log)) :
    Made (p ++ q) log ((x >>= f) log) := by
  show Made (p ++ q) log (EStateM.bind x f log)
  unfold EStateM.bind
  cases hr : x log with
  | error e log' =>
    rw [hr] at hx
    obtain ⟨made, hm, hs⟩ := hx.some
    exact .error made hm (hs.trans (List.sublist_append_left p q)) hx.texts
  | ok v log' =>
    rw [hr] at hx
    have hc := hx.all v log' rfl
    have hv := hf v log'
    have ht := Nat.le_trans hx.texts hv.texts
    simp only
    cases hfr : f v log' with
    | ok w log'' =>
      rw [hfr] at hv ht
      exact .ok (by rw [hv.all w log'' rfl, hc, List.append_assoc]) ht
    | error e log'' =>
      rw [hfr] at hv ht
      obtain ⟨made, hm, hs⟩ := hv.some
      refine .error (p ++ made) ?_ (hs.append_left p) ht
      rw [show log''.calls = log'.calls ++ made from hm, hc, List.append_assoc]

theorem State.sumOf_made (s : State) {x y : Value} {left right : Evaluation Value}
    {p q : List (List Value)} (hnone : BinaryOp.add.inline? x y = none)
    (hleft : ∀ log, Made p log (left log)) (hright : ∀ log, Made q log (right log)) (log : Log) :
    Made (p ++ q) log (s.sumOf x y left right log) := by
  have hr : ∀ a log, Made (q ++ []) log ((right >>= fun b => s.plainSum a b) log) := fun a log =>
    (hright log).bind fun b => s.plainSum_made a b
  have h := (hleft { log with handedOff := log.handedOff + 1 }).bind fun a => hr a
  rw [List.append_nil] at h
  rw [sumOf, hnone]
  exact ⟨h.all, h.some, h.texts⟩

/-- A function is no number, so an inline answer is one for two operands that stand for
themselves. -/
theorem State.Unfolds.plain_of_inline {s : State} {x y v : Value} {l r : Addend}
    (hx : s.Unfolds x l) (hy : s.Unfolds y r) (hv : BinaryOp.add.inline? x y = some v) :
    l = .plain x ∧ r = .plain y := by
  have ht : BinaryOp.add.answersInline x.tag y.tag = true := by
    rw [← BinaryOp.inline?_isSome, hv]
    rfl
  have hobject : ∀ {w code}, s.code? w = some code → w.tag = .heap .object := fun hw => by
    obtain ⟨p, hk, -⟩ := exists_pointer_of_code? hw
    exact Value.tag_of_kind hk
  cases hx with
  | call hcode =>
    rw [hobject hcode] at ht
    exact absurd ht (by simp [BinaryOp.answersInline])
  | plain =>
    cases hy with
    | call hcode =>
      rw [hobject hcode] at ht
      exact absurd ht (by simp [BinaryOp.answersInline])
    | plain => exact ⟨rfl, rfl⟩

theorem State.Unfolds.sum_made {s : State} {x y : Value} {l r : Addend} (hx : s.Unfolds x l)
    (hy : s.Unfolds y r) {path : List Value}
    (hl : ∀ log, Made (l.paths path) log (l.evaluate s path log))
    (hr : ∀ log, Made (r.paths path) log (r.evaluate s path log)) (log : Log) :
    Made (l.paths path ++ r.paths path) log
      (s.sumOf x y (l.evaluate s path) (r.evaluate s path) log) := by
  cases hv : BinaryOp.add.inline? x y with
  | none => exact s.sumOf_made hv hl hr log
  | some v =>
    obtain ⟨rfl, rfl⟩ := hx.plain_of_inline hy hv
    rw [sumOf, hv]
    exact .ok (by simp [Addend.paths]) (Nat.le_refl _)

/-- **The calls made are those of the tree in post-order.** -/
theorem State.Unfolds.evaluate_made {s : State} {v : Value} {t : Addend} (h : s.Unfolds v t) :
    ∀ outward log, Made (t.paths outward) log (t.evaluate s outward log) := by
  induction h with
  | plain shown code => exact fun outward log => .ok (by simp [Addend.paths]) (Nat.le_refl _)
  | @call f a b code l r hcode nullary first second left right ihl ihr =>
    intro outward log
    have h := left.sum_made right (ihl (f :: outward)) (ihr (f :: outward)) log
    rw [← left.operand_eq, ← right.operand_eq] at h
    unfold Addend.evaluate Evaluation.leaving
    cases hr : s.sumOf l.operand r.operand (l.evaluate s (f :: outward))
        (r.evaluate s (f :: outward)) log with
    | ok v log' =>
      rw [hr] at h
      exact .ok (by simp [Addend.paths, h.all v log' rfl]) h.texts
    | error e log' =>
      rw [hr] at h
      obtain ⟨made, hm, hs⟩ := h.some
      refine .error (made ++ [f :: outward]) ?_ (hs.append_right _) h.texts
      rw [show log'.calls = log.calls ++ made from hm, List.append_assoc]

end Reference

end TieredVm
