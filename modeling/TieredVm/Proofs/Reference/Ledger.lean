import TieredVm.Proofs.Interpreter.Functions
import TieredVm.Proofs.Reference.Onward
import TieredVm.Proofs.Reference.Pending

/-!
# The ledger

The reference interpreter writes down which values it releases and which it duplicates. What a request
writes there is fixed by the request: asking for a category releases the operand, asking for a truth
releases it unless it is small, and a captured variable that is read is duplicated. Nothing else
writes anything, whatever functions an operator calls on the way.

* `onward_ledger`: operators write nothing, calls included, and neither do requests that do not ask an
  entry which works on the interpreter's state alone.
* `Request.ledger_of_ok`: one request.
* `ledger_balanced`: whole runs.
-/

namespace TieredVm

open Reference

variable {R α β : Type}

/-! ## What is due -/

namespace Request

/-- What a request releases. -/
def released : Request R → List Value
  | typeOf x => [x]
  | toBool x | logicalNot x => if x.tag.isSmall then [] else [x]
  | _ => []

/-- What a request duplicates: the value that a read of a captured variable answers. -/
def duplicated (I : Interpreter R) (m : Machine R) : Request R → List Value
  | captured function index =>
    match I.capturedOf function index m with
    | .ok v _ => [v]
    | .error _ _ => []
  | _ => []

end Request

/-- What the requests of a history release, and what they duplicate. -/
def releasedAlong (h : List (Machine R × Request R)) : List Value :=
  h.flatMap fun asked => asked.2.released

def duplicatedAlong (I : Interpreter R) (h : List (Machine R × Request R)) : List Value :=
  h.flatMap fun asked => asked.2.duplicated I asked.1

/-- The ledger with further entries. -/
def Reference.Ledger.extend (l : Ledger) (released duplicated : List Value) : Ledger :=
  ⟨l.released ++ released, l.duplicated ++ duplicated⟩

@[simp] theorem Reference.Ledger.extend_nil (l : Ledger) : l.extend [] [] = l := by simp [extend]

namespace Reference

/-- **The steps of entries release and duplicate nothing.** -/
theorem onward_ledger : Onward fun s s' => s'.ledger = s.ledger where
  refl _ := rfl
  trans h h' := h'.trans h
  step _ hledger _ := hledger

/-! ## Truth and categories -/

/-- When it answers, an operation on the interpreter's state has released these values and duplicated
nothing. -/
def LocalReleases (act : Local State α) (vs : List Value) : Prop :=
  ∀ s a s', act s = .ok a s' → s'.ledger = s.ledger.extend vs []

section

variable {act : Local State α} {f : α → Local State β} {vs ws : List Value}

theorem LocalReleases.bind (hact : LocalReleases act vs) (hf : ∀ a, LocalReleases (f a) ws) :
    LocalReleases (act >>= f) (vs ++ ws) := by
  intro s b s' h
  obtain ⟨a, t, ha, h⟩ := Result.ok_of_bind h
  rw [hf a t b s' h, hact s a t ha]
  simp [Ledger.extend]

theorem LocalKeepsLedger.releases (h : LocalKeepsLedger act) : LocalReleases act [] := by
  intro s a s' hs
  have hledger := h s
  rw [hs] at hledger
  rw [Ledger.extend_nil]
  exact hledger

theorem releases_release (x : Value) : LocalReleases (release x) [x] := by
  intro s a s' h
  cases h
  simp [State.ledger, Ledger.extend]

theorem keepsLedger_observeLocal (g : State → Except Violation α) :
    LocalKeepsLedger (observeLocal g) := fun s => by
  cases h : g s with
  | ok a => rw [observeLocal_of_ok h]; rfl
  | error v => rw [observeLocal_of_error h]; rfl

/-- Whoever answers the truth of a value has released it. -/
theorem releases_truth (x : Value) : LocalReleases (truth x) [x] := by
  have hsteps : LocalReleases (truth x) ([] ++ ([] ++ ([x] ++ []))) :=
    (LocalKeepsLedger.releases fun _ => rfl).bind fun _ =>
      (keepsLedger_observeLocal _).releases.bind fun _ =>
        (releases_release x).bind fun _ => LocalKeepsLedger.releases fun _ => rfl
  exact hsteps

theorem releases_categoryText (c : Category) : LocalReleases (categoryText c) [] := by
  intro s v s' h
  rw [categoryText, Result.bind_of_ok (Result.get_apply s)] at h
  cases hc : s.categoryTexts c with
  | some w =>
    rw [hc] at h
    cases h
    exact (Ledger.extend_nil _).symm
  | none =>
    rw [hc] at h
    obtain ⟨w, t, hnew, h⟩ := Result.ok_of_bind h
    cases h
    exact (keepsLedger_newText c.label).releases s _ t hnew

/-- Whoever answers the category of a value has released it. -/
theorem releases_typeOf (power : Double → Double → Double) (x : Value) :
    LocalReleases (do
      let c ← (interpreterWith power).category x
      (interpreterWith power).release x
      (interpreterWith power).categoryText c) [x] := by
  have hcategory : LocalReleases (category x) ([] ++ []) :=
    (LocalKeepsLedger.releases fun _ => rfl).bind fun _ => (keepsLedger_observeLocal _).releases
  have hsteps : LocalReleases (do
      let c ← category x
      release x
      categoryText c) ([] ++ ([x] ++ [])) :=
    hcategory.bind fun c => (releases_release x).bind fun _ => releases_categoryText c
  exact hsteps

end

end Reference

/-! ## Requests -/

/-- What the program around the machine does to the interpreter's state releases and duplicates
nothing. -/
def Request.SparesLedger (r : Request State) : Prop := ∀ act, r = .host act → LocalKeepsLedger act

namespace Request

variable {power : Double → Double → Double} {m m' : Machine State} {a : Response} {x : Value}

theorem ledger_toBool {b : Bool} (h : (interpreterWith power).toBool x m = .ok b m') :
    m'.runtime.ledger = m.runtime.ledger.extend (toBool x : Request State).released [] := by
  rw [released]
  cases hsmall : x.tag.isSmall with
  | true =>
    rw [toBool_small _ hsmall] at h
    cases h
    exact (Ledger.extend_nil _).symm
  | false =>
    rw [toBool_not_small _ hsmall] at h
    exact releases_truth x _ b _ (Run.ok_of_onRuntime h)

theorem ledger_logicalNot {v : Value} (h : (interpreterWith power).logicalNot x m = .ok v m') :
    m'.runtime.ledger = m.runtime.ledger.extend (logicalNot x : Request State).released [] := by
  unfold Interpreter.logicalNot at h
  cases hb : x.asBool? with
  | some b =>
    rw [hb] at h
    cases h
    rw [released, if_pos (isSmall_of_asBool? hb), Ledger.extend_nil]
  | none =>
    rw [hb] at h
    obtain ⟨b, n, hn, h⟩ := Run.ok_of_bind h
    cases h
    exact ledger_toBool hn

/-- A captured variable that is read is duplicated, with the value it has then. -/
theorem captured_of_ok {function : Value} {index : Nat} {v : Value}
    (h : (interpreterWith power).capturedOf function index m = .ok v m') :
    ∃ c, (interpreterWith power).Holds m function index c ∧ v = m.captureValue c ∧
      m'.runtime.ledger = m.runtime.ledger.extend [] [v] := by
  obtain ⟨c, hc⟩ := ObjectModel.holds_of_capturedOf _ h
  rw [ObjectModel.capturedOf_of_holds _ hc] at h
  cases h
  exact ⟨c, hc, rfl, by simp [State.ledger, Ledger.extend]⟩

/-- **What a request writes in the ledger** when it goes through. -/
theorem ledger_of_ok {r : Request State} (hr : r.SparesLedger)
    (h : r.perform (interpreterWith power) m = .ok a m') :
    m'.runtime.ledger =
      m.runtime.ledger.extend r.released (r.duplicated (interpreterWith power) m) := by
  have hkeeps : ∀ {x : Run State Response}, x.Advances (fun s s' => s'.ledger = s.ledger) →
      x m = .ok a m' → m'.runtime.ledger = m.runtime.ledger.extend [] [] := fun hx h => by
    have hledger := hx m
    rw [h] at hledger
    exact hledger.trans (Ledger.extend_nil _).symm
  cases r with
  | logicalNot x =>
    obtain ⟨v, n, hn, h⟩ := Run.ok_of_bind h
    cases h
    exact ledger_logicalNot hn
  | toBool x =>
    obtain ⟨b, n, hn, h⟩ := Run.ok_of_bind h
    cases h
    exact ledger_toBool hn
  | typeOf x =>
    obtain ⟨v, n, hn, h⟩ := Run.ok_of_bind h
    cases h
    exact releases_typeOf power x _ v _ (Run.ok_of_onRuntime hn)
  | captured function index =>
    obtain ⟨v, n, hn, h⟩ := Run.ok_of_bind h
    cases h
    obtain ⟨c, -, -, hledger⟩ := captured_of_ok hn
    rw [hledger, duplicated, hn]
    rfl
  | host act => exact hkeeps (onward_ledger.onRuntime (hr act rfl)) h
  | _ => exact hkeeps (onward_ledger.request power id) h

end Request

/-! ## Runs -/

/-- What one request of a history makes of the ledger. -/
def Reference.Ledger.after (I : Interpreter R) (l : Ledger) (asked : Machine R × Request R) : Ledger :=
  l.extend asked.2.released (asked.2.duplicated I asked.1)

theorem Reference.Ledger.foldl_after (I : Interpreter R) (h : List (Machine R × Request R)) :
    ∀ l : Ledger, h.foldl (Ledger.after I) l =
      l.extend (releasedAlong h) (duplicatedAlong I h) := by
  induction h with
  | nil => exact fun l => l.extend_nil.symm
  | cons asked h ih =>
    intro l
    rw [List.foldl_cons, ih]
    simp [releasedAlong, duplicatedAlong, after, extend]

/-- Along a run, the interpreter releases and duplicates what its requests ask for, each once and in
their order. -/
structure LedgerBalanced (I : Interpreter State) (c : Caller State) (m : Machine State) : Prop where
  /-- A captured variable is answered with the value it has then, and that is what is duplicated. -/
  reads : ∀ n function index, (n, .captured function index) ∈ c.history I m →
    ∃ v n', I.Holds n function index v ∧
      (Request.captured function index).perform I n = .ok (.value (n.captureValue v)) n' ∧
      (Request.captured function index).duplicated I n = [n.captureValue v]
  /-- At every request, what was written is what the requests before it are due, -/
  throughout : ∀ before n r after, c.history I m = before ++ (n, r) :: after →
    n.runtime.released = m.runtime.released ++ releasedAlong before ∧
    n.runtime.duplicated = m.runtime.duplicated ++ duplicatedAlong I before
  /-- and so at the end. -/
  afterwards :
    (Result.state (c.run I m)).runtime.released =
      m.runtime.released ++ releasedAlong (c.history I m) ∧
    (Result.state (c.run I m)).runtime.duplicated =
      m.runtime.duplicated ++ duplicatedAlong I (c.history I m)

/-- **Every reference is released and duplicated exactly once**, along every run of the reference
interpreter in which all requests go through. -/
theorem ledger_balanced (power : Double → Double → Double) (c : Caller State) (m : Machine State)
    (hcalm : c.Along (interpreterWith power)
      (fun m r => r.SparesLedger ∧ r.Answers (interpreterWith power) m) (fun _ _ => True) m) :
    LedgerBalanced (interpreterWith power) c m := by
  obtain ⟨hfollows, hlast⟩ := Caller.follows (fun m => m.runtime.ledger)
    (Ledger.after (interpreterWith power)) (fun h => congrArg State.ledger h.1) c <|
      hcalm.mono (fun m r ⟨hr, a, n, h⟩ => ⟨a, n, h, Request.ledger_of_ok hr h⟩) fun _ _ h => h
  have hentries : ∀ {s : State} {h : List (Machine State × Request State)},
      s.ledger = h.foldl (Ledger.after (interpreterWith power)) m.runtime.ledger →
      s.released = m.runtime.released ++ releasedAlong h ∧
        s.duplicated = m.runtime.duplicated ++ duplicatedAlong (interpreterWith power) h :=
    fun {s h} hs => by
      rw [Ledger.foldl_after] at hs
      exact ⟨congrArg Ledger.released hs, congrArg Ledger.duplicated hs⟩
  constructor
  case reads =>
    intro n function index hmem
    obtain ⟨-, a, n', h⟩ := hcalm.of_mem_history hmem
    obtain ⟨v, n', hn, -⟩ := Run.ok_of_bind h
    obtain ⟨c, hc, rfl, -⟩ := Request.captured_of_ok hn
    refine ⟨c, n', hc, ?_, ?_⟩
    · rw [Request.perform, Run.bind_of_ok hn]
      rfl
    · rw [Request.duplicated, hn]
  case throughout =>
    intro before n r after hsplit
    rw [hsplit] at hfollows
    exact hentries hfollows.view_eq
  case afterwards => exact hentries hlast

/-! ### A closure that fails when it is called -/

namespace Closing

def symbol : Value := .boxed HeapTag.symbol.box (cellAddress 0)

def closure : Value := .boxed HeapTag.object.box (cellAddress 1)

/-- A function that captured one variable, and that adds 1 to a symbol when it is called. -/
def code : Bytecode := { codeLength := 4, constants := #[symbol, .ofInt 1], closureVars := [{}] }

/-- The variable is 7. -/
def start : Machine State where
  runtime := { cells := #[.text "Symbol()", .function code [⟨0⟩]] }
  captures := (Store.const (.owned .undefined)).set 0 (.owned (.ofInt 7))

/-- Reads the variable, runs into the failure, and asks for truths and a category. -/
def caller : Caller State :=
  .ask (.captured closure 0) fun _ =>
  .ask (.binary .add closure (.ofInt 1)) fun _ =>
  .ask (.toBool (.ofInt 3)) fun _ =>
  .ask (.logicalNot closure) fun _ =>
  .ask (.typeOf symbol) fun _ => .done .done

end Closing

open Closing in
theorem ledger_balanced_failing :
    caller.Along (interpreterWith Double.power)
      (fun m r => r.SparesLedger ∧ r.Answers (interpreterWith Double.power) m) (fun _ _ => True) start ∧
    LedgerBalanced (interpreterWith Double.power) caller start ∧
    (Result.state (caller.run (interpreterWith Double.power) start)).runtime.released =
      [closure, symbol] ∧
    (Result.state (caller.run (interpreterWith Double.power) start)).runtime.duplicated =
      [.ofInt 7] := by
  have hcalm : caller.Along (interpreterWith Double.power)
      (fun m r => r.SparesLedger ∧ r.Answers (interpreterWith Double.power) m) (fun _ _ => True)
      start := by
    refine ⟨⟨nofun, _, _, rfl⟩, fun _ _ h => ?_⟩
    cases h
    refine ⟨⟨nofun, _, _, rfl⟩, fun _ _ h => ?_⟩
    cases h
    refine ⟨⟨nofun, _, _, rfl⟩, fun _ _ h => ?_⟩
    cases h
    refine ⟨⟨nofun, _, _, rfl⟩, fun _ _ h => ?_⟩
    cases h
    refine ⟨⟨nofun, _, _, rfl⟩, fun _ _ h => ?_⟩
    cases h
    trivial
  have hbalanced := ledger_balanced Double.power caller start hcalm
  exact ⟨hcalm, hbalanced, hbalanced.afterwards.1, hbalanced.afterwards.2⟩

end TieredVm
