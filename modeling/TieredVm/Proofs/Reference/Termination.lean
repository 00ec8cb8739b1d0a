import TieredVm.Proofs.Caller
import TieredVm.Proofs.Reference.Growth

/-!
# Additions come to an end

The reference interpreter adds a function by calling it, and the call adds the function's constants,
which may be functions again. The constants were there before the function was, so every call leads to
an older function. The recursion therefore ends, on every heap that a program can build (`Built`), and
calls nest no deeper than there are functions.

* `State.Ordered`: a function's constants refer to cells before its own. It is kept by every
  allocation and every operator.
* `unrolled`: the addition with a given one in its place below a depth. `matches_unrolled`: what
  stands in there makes no difference once the depth exceeds the functions that the operands reach.
* `matches_binary_add`: the addition operator is its own unrolling.
* `steady_request`: an operator finishes, whatever its operands.
* `Built.sound`, `evaluation_ends`: every heap that is built is ordered, and evaluation ends on it.
-/

namespace TieredVm.Reference

variable {s₀ s s' : State} {m m' : Machine State} {power : Double → Double → Double}

/-! ## Order -/

/-- A function's constants are no references, or references to cells before the function's own. -/
def State.Ordered (s : State) : Prop :=
  ∀ i code captured, s.cells[i]? = some (.function code captured) →
    ∀ v ∈ code.constants, RefersBelow i v

namespace State.Ordered

theorem grown (h : s.Ordered) (hg : s.Grown s') : s'.Ordered := by
  intro i code captured hi
  obtain ⟨texts, ht⟩ := hg.cells
  rw [ht, Array.getElem?_append] at hi
  split at hi
  · exact h i code captured hi
  · simp at hi

theorem push (h : s.Ordered) {c : Cell}
    (hc : ∀ code captured, c = .function code captured → ∀ v ∈ code.constants, s.Refers v) :
    State.Ordered { s with cells := s.cells.push c } := by
  intro i code captured hi
  rw [Array.getElem?_push] at hi
  split at hi
  · rename_i hsize
    rw [hsize]
    exact hc code captured (Option.some.inj hi)
  · exact h i code captured hi

/-- The cell of a function. -/
theorem exists_cell {v : Value} {code : Bytecode} (h : s.code? v = some code) :
    ∃ i captured, s.cells[i]? = some (.function code captured) ∧ v.payload = cellAddress i := by
  obtain ⟨p, hk, hcode⟩ := exists_pointer_of_code? h
  have hpayload : v.payload = p.addr := by
    rw [Value.eq_ofPointer_of_kind hk]
    exact Value.payload_boxed (Value.box_lt _) p.fits
  unfold bytecode? cellAt? at hcode
  split at hcode
  case h_2 => exact absurd hcode (by simp)
  case h_1 c captured hcell =>
    split at hcell
    case isFalse => exact absurd hcell (by simp)
    case isTrue haddr =>
      obtain rfl := Option.some.inj hcode
      refine ⟨(p.addr - heapBase) / 16, captured, hcell, hpayload.trans ?_⟩
      unfold cellAddress
      omega

theorem acyclic (h : s.Ordered) (v : Value) : ¬ Relation.TransGen s.LeadsTo v v := by
  refine acyclic_of_older (fun v w hvw hw => ?_) v
  obtain ⟨code, hcode, hconst⟩ := hvw
  obtain ⟨i, captured, hi, hv⟩ := exists_cell hcode
  obtain ⟨code', hcode'⟩ := Option.isSome_iff_exists.mp hw
  have hheap : w.isHeap = true := by
    obtain ⟨p, hk, -⟩ := exists_pointer_of_code? hcode'
    rw [Value.isHeap, Value.tag_of_kind hk]
    rfl
  have hmem : w ∈ code.constants := by
    rcases hconst with h0 | h1
    · exact Array.mem_of_getElem? h0
    · exact Array.mem_of_getElem? h1
  obtain ⟨j, hj, hw⟩ := h i code captured hi w hmem hheap
  rw [hv, hw]
  unfold cellAddress
  omega

end State.Ordered

/-! ## Unrolling -/

/-- The addition, unrolled: calls nested at the given depth add with another one. -/
def unrolled (rest : Value → Value → Run State Value) : Nat → Value → Value → Run State Value
  | 0, x, y => rest x y
  | depth + 1, x, y =>
    inlineOr BinaryOp.add.label (addEntry (unrolled rest depth)) (.pair x y)
      (BinaryOp.add.inline? x y)

theorem plusWithin_eq_unrolled : ∀ depth, plusWithin depth = unrolled (plusWithin 0) depth
  | 0 => rfl
  | depth + 1 => by
    funext x y
    rw [unrolled, ← plusWithin_eq_unrolled depth]
    rfl

section

variable {plus plus' : Value → Value → Run State Value}

theorem attempts_call {function : Value} (hplus : ∀ a b, s₀.LeadsTo function a →
      s₀.LeadsTo function b → Matches s₀ State.Refers (plus a b) (plus' a b)) :
    Attempts s₀ anything (call plus function) (call plus' function) := by
  refine (attempts_lift (p := anything) ?_).bind fun _ sum _ _ => ?_
  · exact steady_newFrame.bind fun _ frame _ _ => (steady_enter _ _ _ _).bind fun _ _ _ _ =>
      (steady_setPc _ _).bind fun _ _ _ _ =>
      (steady_constantOf function (.inl rfl)).bind fun _ a _ ha =>
      (steady_constantOf function (.inr rfl)).bind fun _ b _ hb =>
      (hplus a b ha hb).bind fun _ sum _ _ => steady_trace.bind fun _ entries _ _ =>
      (steady_onRuntime (localSteady_note (f := fun s =>
        { s with traces := s.traces ++ [entries.map TraceEntry.report] })
        (fun _ => rfl) fun _ => rfl)).bind fun _ _ _ _ =>
      (steady_exit _).bind fun _ _ _ _ => steady_pure fun _ _ => trivial
  · dsimp only
    split
    · refine (attempts_lift steady_takePending).bind fun _ pending _ _ => ?_
      cases pending with
      | none => exact (steady_attempt_throw (p := anything) _).bind fun _ _ _ _ =>
          steady_attempt_pure fun _ _ => trivial
      | some e => exact (steady_attempt_throw (p := anything) e).bind fun _ _ _ _ =>
          steady_attempt_pure fun _ _ => trivial
    · exact steady_attempt_pure fun _ _ => trivial

theorem attempts_operandValue {v : Value} (hplus : ∀ a b, s₀.LeadsTo v a → s₀.LeadsTo v b →
      Matches s₀ State.Refers (plus a b) (plus' a b)) :
    Attempts s₀ anything (operandValue plus v) (operandValue plus' v) := by
  refine (steady_pointer v).bind fun _ p _ _ => Attempts.get_bind fun m _ => ?_
  split
  · exact attempts_call hplus
  · exact steady_attempt_pure fun _ _ => trivial

/-- Additions match when they do on what their operands lead to. -/
theorem attempts_addEntry {x y : Value} (hplus : ∀ v, v = x ∨ v = y → ∀ a b, s₀.LeadsTo v a →
      s₀.LeadsTo v b → Matches s₀ State.Refers (plus a b) (plus' a b)) :
    Attempts s₀ Answered (addEntry plus (.pair x y)) (addEntry plus' (.pair x y)) :=
  (steady_entered _).bind fun _ _ _ _ =>
    (attempts_operandValue (hplus x (.inl rfl))).bind fun _ _ _ _ =>
    (attempts_operandValue (hplus y (.inr rfl))).bind fun _ _ _ _ =>
      (steady_joinOrAdd _ _).answer _

end

theorem isHeap_of_inline {op : BinaryOp} {x y v : Value} (h : op.inline? x y = some v) :
    v.isHeap = false := by
  by_cases hzero : op.IntRemainderByZero x y
  · obtain rfl := Option.some.inj (h.symm.trans (BinaryOp.inline?_of_intRemainderByZero hzero))
    rfl
  · rcases (BinaryOp.scalar_of_inline h hzero).tag with ht | ht | ht <;> rw [Value.isHeap, ht] <;> rfl

/-- Operators match that differ in the entry only, when the entries match. -/
theorem matches_inlineOr {n : Nat} {label : String} {operands : Operands (n + 1)}
    {answer? : Option Value} {entry entry' : Entry State (n + 1)}
    (hinline : ∀ v, answer? = some v → v.isHeap = false)
    (h : Attempts s₀ Answered (entry operands) (entry' operands)) :
    Matches s₀ State.Refers (inlineOr label entry operands answer?)
      (inlineOr label entry' operands answer?) := by
  cases answer? with
  | some v => exact steady_pure fun _ _ => refersBelow_of_not_heap (hinline v rfl)
  | none => exact matches_handOff _ h

/-- **What stands in for the addition below a depth makes no difference**, once the depth exceeds the
functions that the operands reach. -/
theorem matches_unrolled (hs : s₀.Ordered) (rest rest' : Value → Value → Run State Value) :
    ∀ (depth depth' : Nat) (x y : Value),
      (∀ v, v = x ∨ v = y → (s₀.reached v).card < depth ∧ (s₀.reached v).card < depth') →
      Matches s₀ State.Refers (unrolled rest depth x y) (unrolled rest' depth' x y)
  | 0, _, x, _, h => absurd (h x (.inl rfl)).1 (Nat.not_lt_zero _)
  | _ + 1, 0, x, _, h => absurd (h x (.inl rfl)).2 (Nat.not_lt_zero _)
  | depth + 1, depth' + 1, x, y, h => by
    refine matches_inlineOr (fun _ => isHeap_of_inline) (attempts_addEntry fun v hv a b ha hb => ?_)
    -- A function that is called reaches more functions than its constants do.
    have hless : ∀ w, s₀.LeadsTo v w →
        (s₀.reached w).card < depth ∧ (s₀.reached w).card < depth' := fun w hw => by
      have hlt := State.card_reached_lt hw (hs.acyclic v)
      have hv := h v hv
      omega
    exact matches_unrolled hs rest rest' depth depth' a b fun w hw => by
      rcases hw with rfl | rfl
      · exact hless w ha
      · exact hless w hb

/-! ## The operator -/

theorem Matches.trans {α : Type} {p : State → α → Prop} {x y z : Run State α}
    (hxy : Matches s₀ p x y) (hyz : Matches s₀ p y z) : Matches s₀ p x z := fun m hm =>
  ⟨(hyz m hm).1.trans (hxy m hm).1, (hxy m hm).2⟩

theorem Matches.symm {α : Type} {p : State → α → Prop} {x y : Run State α}
    (h : Matches s₀ p x y) : Matches s₀ p y x := fun m hm =>
  ⟨(h m hm).1.symm, by rw [(h m hm).1]; exact (h m hm).2⟩

/-- What a function leads to reaches fewer functions than there are. -/
theorem card_reached_lt_of_leadsTo (hs : s₀.Ordered) {v w : Value} (hw : s₀.LeadsTo v w) :
    (s₀.reached w).card < s₀.functionCount :=
  Nat.lt_of_lt_of_le (State.card_reached_lt hw (hs.acyclic v)) (State.card_reached_le v)

/-- The depth that the addition is given is the number of functions, on every heap that grew. -/
theorem attempts_add {operands : Operands 2} {x : Attempt State (Operands 2)}
    (h : Attempts s₀ Answered x (addEntry (plusWithin s₀.functionCount) operands)) :
    Attempts s₀ Answered x (add operands) := by
  intro m hm
  have hget : (get : Attempt State (Machine State)).run m = .ok (.ok m) m := rfl
  rw [add, Attempt.bind_of_ok hget, hm.functionCount]
  exact h m hm

/-- **The addition operator is its own unrolling**, to one more than there are functions. -/
theorem matches_binary_add (hs : s₀.Ordered) (rest : Value → Value → Run State Value) (x y : Value) :
    Matches s₀ State.Refers (unrolled rest (s₀.functionCount + 1) x y)
      ((interpreterWith power).binary .add x y) := by
  rw [binary_eq]
  refine matches_inlineOr (fun _ => isHeap_of_inline)
    (attempts_add (attempts_addEntry fun v _ a b ha hb => ?_))
  rw [plusWithin_eq_unrolled]
  refine matches_unrolled hs _ _ _ _ a b fun w hw => ?_
  rcases hw with rfl | rfl
  · exact ⟨card_reached_lt_of_leadsTo hs ha, card_reached_lt_of_leadsTo hs ha⟩
  · exact ⟨card_reached_lt_of_leadsTo hs hb, card_reached_lt_of_leadsTo hs hb⟩

/-- **Functions are called through the addition operator itself.** -/
theorem matches_recursion (hs : s₀.Ordered) (x y : Value) :
    Matches s₀ State.Refers ((interpreterWith power).binary .add x y)
      (inlineOr BinaryOp.add.label (addEntry ((interpreterWith power).binary .add)) (.pair x y)
        (BinaryOp.add.inline? x y)) := by
  refine (matches_binary_add hs (plusWithin 0) x y).symm.trans ?_
  refine matches_inlineOr (fun _ => isHeap_of_inline) (attempts_addEntry fun v _ a b ha hb => ?_)
  refine Matches.trans (matches_unrolled hs _ _ _ _ a b fun w hw => ?_)
    (matches_binary_add hs (plusWithin 0) a b)
  rcases hw with rfl | rfl
  · exact ⟨card_reached_lt_of_leadsTo hs ha, Nat.lt_succ_of_lt (card_reached_lt_of_leadsTo hs ha)⟩
  · exact ⟨card_reached_lt_of_leadsTo hs hb, Nat.lt_succ_of_lt (card_reached_lt_of_leadsTo hs hb)⟩

/-! ## All operators -/

theorem isHeap_of_unary_inline {op : UnaryOp} {x v : Value} (h : op.inline? x = some v) :
    v.isHeap = false := by
  by_cases hop : op = .plus
  · subst hop
    obtain ⟨rfl, ht | ht⟩ := UnaryOp.inline?_plus h <;> rw [Value.isHeap, ht] <;> rfl
  · rcases (UnaryOp.scalar_of_inline hop h).tag with ht | ht | ht <;> rw [Value.isHeap, ht] <;> rfl

theorem steady_binary (hs : s₀.Ordered) (op : BinaryOp) (x y : Value) :
    Steady s₀ State.Refers ((interpreterWith power).binary op x y) := by
  by_cases hop : op = .add
  · subst hop
    have h : Matches s₀ State.Refers _ ((interpreterWith power).binary .add x y) :=
      matches_binary_add hs (plusWithin 0) x y
    exact h.symm.trans h
  · rw [binary_eq]
    exact matches_inlineOr (fun _ => isHeap_of_inline) (steady_entry_of_ne power hop _)

theorem steady_toBool (x : Value) :
    Steady s₀ anything ((interpreterWith power).toBool x) := by
  unfold Interpreter.toBool
  cases x.small? with
  | some payload => exact steady_pure fun _ _ => trivial
  | none => exact steady_truth x

/-- **Every operator finishes**, whatever its operands, and what it answers is no reference or one to a
cell. -/
theorem steady_request (power : Double → Double → Double) (hs : s₀.Ordered)
    (hlabels : ∀ c v, s₀.categoryTexts c = some v → s₀.Refers v) {r : Request State}
    (hr : r.IsOperator) :
    Steady s₀ (fun s a => ∀ v ∈ a.values, s.Refers v) (r.perform (interpreterWith power)) := by
  have hvalue : ∀ (s : State) (v : Value), s.Refers v →
      ∀ w ∈ (Response.value v).values, s.Refers w := fun s v hv w hw => by
    obtain rfl := List.mem_singleton.mp hw
    exact hv
  cases r with
  | binary op x y => exact (steady_binary hs op x y).respond Response.value hvalue
  | unary op x =>
    refine Matches.respond (p := State.Refers) Response.value ?_ hvalue
    rw [unaryOp_eq]
    exact matches_inlineOr (fun _ => isHeap_of_unary_inline) (steady_unary op _)
  | logicalNot x =>
    refine Matches.respond (p := State.Refers) Response.value ?_ hvalue
    have hbool : ∀ b : Bool, (Value.ofBool b).isHeap = false := by decide
    unfold Interpreter.logicalNot
    cases x.asBool? with
    | some b => exact steady_pure fun _ _ => refersBelow_of_not_heap (hbool _)
    | none =>
      exact (steady_toBool x).bind fun _ b _ _ =>
        steady_pure fun _ _ => refersBelow_of_not_heap (hbool _)
  | toBool x =>
    exact (steady_toBool x).respond Response.truth fun _ _ _ _ hv => absurd hv List.not_mem_nil
  | typeOf x =>
    refine Matches.respond Response.value ((steady_typeOf power x).mono fun s v hg hv => ?_) hvalue
    exact hv.elim (fun ⟨c, hold⟩ => hg.refers (hlabels c v hold)) id
  | _ => exact absurd hr nofun

/-! ## Heaps that are built -/

/-- What a program asks the heap for. -/
inductive Allocation where
  | text (t : String)
  | symbol
  | object (keys : List String) (constructor : Option Value)
  | function (code : Bytecode) (captured : List Capture)

namespace Allocation

/-- The cell that is added. -/
def cell : Allocation → Cell
  | text t => .text t
  | symbol => .text "Symbol()"
  | object keys constructor => .object keys constructor
  | function code captured => .function code captured

def tag : Allocation → HeapTag
  | text _ => .string
  | symbol => .symbol
  | object _ _ | function _ _ => .object

def perform : Allocation → Local State Value
  | text t => newText t
  | symbol => newSymbol
  | object keys constructor => newObject keys constructor
  | function code captured => newFunction code captured

/-- A function's constants are no references, or values that the program was answered before. -/
def Known (answered : List Value) : Allocation → Prop
  | function code _ => ∀ v ∈ code.constants, v.isHeap = false ∨ v ∈ answered
  | _ => True

theorem perform_eq (a : Allocation) : a.perform = allocate a.tag a.cell := by cases a <;> rfl

end Allocation

/-- A cell is added at the end, and the answer refers to it. -/
theorem allocate_of_ok {tag : HeapTag} {c : Cell} {v : Value} (h : allocate tag c s = .ok v s') :
    ∃ p, Pointer.ofAddr? (cellAddress s.cells.size) = some p ∧ v = .ofPointer tag p ∧
      s' = { s with cells := s.cells.push c } := by
  unfold allocate at h
  rw [Result.bind_of_ok (Result.get_apply s)] at h
  cases hp : Pointer.ofAddr? (cellAddress s.cells.size) with
  | none => rw [hp] at h; cases h
  | some p => rw [hp] at h; cases h; exact ⟨p, rfl, rfl, rfl⟩

/-- A program built the heap of a machine, and was answered the listed values. -/
inductive Built (power : Double → Double → Double) : Machine State → List Value → Prop where
  | fresh {m : Machine State} (empty : m.runtime = {}) : Built power m []
  | allocated {m m' : Machine State} {answered : List Value} {v : Value} (a : Allocation)
      (built : Built power m answered) (known : a.Known answered)
      (h : Run.onRuntime a.perform m = .ok v m') : Built power m' (v :: answered)
  | answered {m m' : Machine State} {answered : List Value} {a : Response} (r : Request State)
      (built : Built power m answered) (operator : r.IsOperator)
      (h : r.perform (interpreterWith power) m = .ok a m') : Built power m' (a.values ++ answered)
  /-- An operator panicked or aborted, and the program went on. -/
  | stopped {m m' : Machine State} {answered : List Value} {stop : Stop} (r : Request State)
      (built : Built power m answered) (operator : r.IsOperator)
      (h : r.perform (interpreterWith power) m = .error stop m') : Built power m' answered
  /-- Frames, exceptions, the journal, and what the interpreter takes note of. -/
  | elsewhere {m m' : Machine State} {answered : List Value} (built : Built power m answered)
      (cells : m'.runtime.cells = m.runtime.cells)
      (labels : m'.runtime.categoryTexts = m.runtime.categoryTexts) : Built power m' answered

/-- What holds of every heap that is built. -/
structure State.Sound (s : State) (answered : List Value) : Prop where
  ordered : s.Ordered
  /-- What the program was answered refers to cells that there are. -/
  answered : ∀ v ∈ answered, s.Refers v
  /-- So do the texts that were kept for categories. -/
  labels : ∀ c v, s.categoryTexts c = some v → s.Refers v

namespace State.Sound

variable {answered : List Value}

theorem grown (h : s.Sound answered) (hg : s.Grown s') : s'.Sound answered where
  ordered := h.ordered.grown hg
  answered v hv := hg.refers (h.answered v hv)
  labels c v hv := (hg.labels c v hv).elim (fun hold => hg.refers (h.labels c v hold)) id

/-- A new cell is referred to by the value that is answered. -/
theorem allocated (h : s.Sound answered) {a : Allocation} (known : a.Known answered) {v : Value}
    (ha : a.perform s = .ok v s') : s'.Sound (v :: answered) := by
  rw [a.perform_eq] at ha
  obtain ⟨p, hp, rfl, rfl⟩ := allocate_of_ok ha
  have hrefers : ∀ w, s.Refers w → State.Refers { s with cells := s.cells.push a.cell } w :=
    fun w hw => hw.mono (by simp)
  constructor
  case ordered =>
    refine h.ordered.push fun code captured hc v hv => ?_
    cases a with
    | function code' captured' =>
      obtain ⟨rfl, rfl⟩ := Cell.function.inj hc
      exact (known v hv).elim refersBelow_of_not_heap (h.answered v)
    | _ => cases hc
  case answered =>
    intro w hw
    rcases List.mem_cons.mp hw with rfl | hw
    · exact refers_push s a.cell a.tag hp
    · exact hrefers w (h.answered w hw)
  case labels => exact fun c w hw => hrefers w (h.labels c w hw)

end State.Sound

/-- **Every heap that is built is sound.** -/
theorem Built.sound {answered : List Value} (h : Built power m answered) :
    m.runtime.Sound answered := by
  induction h with
  | fresh empty =>
    rw [empty]
    exact ⟨fun i code captured hi => absurd hi (by simp), nofun, fun c v hv => absurd hv (by simp)⟩
  | @allocated m m' _ v a _ known ha ih =>
    unfold Run.onRuntime at ha
    cases hr : a.perform m.runtime with
    | ok w s' =>
      rw [hr] at ha
      obtain ⟨rfl, rfl⟩ := EStateM.Result.ok.inj ha
      exact ih.allocated known hr
    | error stop s' =>
      rw [hr] at ha
      cases stop with
      | abort x => cases ha
      | panic q => cases q <;> cases ha
  | answered r _ operator hr ih =>
    have hfin := (steady_request power ih.ordered ih.labels operator _ (.refl _)).2
    rw [hr] at hfin
    have hs := ih.grown hfin.1
    exact ⟨hs.ordered, fun v hv => (List.mem_append.mp hv).elim (hfin.2 v) (hs.answered v), hs.labels⟩
  | stopped r _ operator hr ih =>
    have hfin := (steady_request power ih.ordered ih.labels operator _ (.refl _)).2
    rw [hr] at hfin
    exact ih.grown hfin.1
  | elsewhere _ cells labels ih => exact ih.grown (.of_same cells labels)

/-! ## Termination -/

/-- Evaluation comes to an end, from a machine on. -/
structure EvaluationEnds (power : Double → Double → Double) (m : Machine State) : Prop where
  /-- The constants of a function refer to cells before its own. -/
  ordered : m.runtime.Ordered
  /-- No operator runs out of depth, whatever its operands. -/
  ends : ∀ r : Request State, r.IsOperator → ∀ m',
    r.perform (interpreterWith power) m ≠ .error (.abort .tooDeep) m'
  /-- The addition calls functions through itself, as if its depth had no bound. -/
  recursion : ∀ x y, (interpreterWith power).binary .add x y m =
    inlineOr BinaryOp.add.label (addEntry ((interpreterWith power).binary .add)) (.pair x y)
      (BinaryOp.add.inline? x y) m
  /-- Calls nest no deeper than there are functions: an addition made any deeper could be any other. -/
  bounded : ∀ rest x y, (interpreterWith power).binary .add x y m =
    unrolled rest (m.runtime.functionCount + 1) x y m

/-- **Evaluation ends on every heap that is built**, however functions refer to one another. -/
theorem evaluation_ends {answered : List Value} (h : Built power m answered) :
    EvaluationEnds power m := by
  have hs := h.sound
  constructor
  case ordered => exact hs.ordered
  case ends =>
    intro r hr m' hdeep
    have hfin := (steady_request power hs.ordered hs.labels hr m (.refl _)).2
    rw [hdeep] at hfin
    exact hfin.2 rfl
  case recursion => exact fun x y => ((matches_recursion hs.ordered x y m (.refl _)).1).symm
  case bounded => exact fun rest x y => (matches_binary_add hs.ordered rest x y m (.refl _)).1

/-! ### Functions that refer to one another -/

namespace Chained

def letter : Value := .boxed HeapTag.string.box (cellAddress 0)

def first : Value := .boxed HeapTag.object.box (cellAddress 1)

def second : Value := .boxed HeapTag.object.box (cellAddress 2)

def firstCode : Bytecode := { codeLength := 4, constants := #[.ofInt 1, letter] }

def secondCode : Bytecode := { codeLength := 4, constants := #[first, first] }

/-- A function that adds a text to a number, and one that adds that function to itself. -/
def heap : State := { cells := #[.text "a", .function firstCode [], .function secondCode []] }

theorem built : Built Double.power { runtime := heap } [second, first, letter] := by
  have hfirst : ∀ v ∈ firstCode.constants, v.isHeap = false ∨ v ∈ [letter] := by decide
  have hsecond : ∀ v ∈ secondCode.constants, v.isHeap = false ∨ v ∈ [first, letter] := by decide
  have h₀ : Built Double.power { runtime := {} } [] := .fresh rfl
  have h₁ : Built Double.power { runtime := { cells := #[.text "a"] } } [letter] :=
    .allocated (.text "a") h₀ trivial rfl
  have h₂ : Built Double.power { runtime := { cells := #[.text "a", .function firstCode []] } }
      [first, letter] :=
    .allocated (.function firstCode []) h₁ hfirst rfl
  exact .allocated (.function secondCode []) h₂ hsecond rfl

end Chained

open Chained in
/-- Adding the outer function to itself calls both functions, and no more calls are nested. -/
theorem evaluation_ends_chained : Built Double.power { runtime := heap } [second, first, letter] ∧
    heap.functionCount = 2 ∧ ∀ rest, interpreter.binary .add second second { runtime := heap } =
      unrolled rest 3 second second { runtime := heap } :=
  ⟨built, by decide, fun rest => (evaluation_ends built).bounded rest second second⟩

end TieredVm.Reference
