import Mathlib.Data.List.Induction
import Mathlib.Data.List.Nodup
import TieredVm.Proofs.Helper.Linking

/-!
# How helpers are linked into a module

A helper that has a routine travels from the table to a symbol, from there to an imported function of the
module, and to a reference in every function under construction. On each leg it is found by its kind, and
no two kinds are mistaken for each other.

* `HelperKind.symbol_injective`, `symbolFor_inj`, `symbolFor_ne_symbol`: symbols.
* `lastSet`, `HelperTable.get?_ofSets`: the routine last set for a helper.
* `Compiler.new_sound`: a new compiler imports the helpers that are set, and no others.
* `Compiler.referAll_refers`: the references of a function under construction.
-/

namespace TieredVm

variable {α β : Type}

/-! ## Symbols -/

theorem HelperKind.symbol_injective {k j : HelperKind} (h : k.symbol = j.symbol) : k = j := by
  have hnodup : (all.map symbolStem).Nodup := by decide +kernel
  have hlists := congrArg String.toList h
  simp only [symbol, String.toList_append, List.append_cancel_left_eq] at hlists
  exact List.inj_on_of_nodup_map hnodup k.mem_all j.mem_all (String.toList_inj.mp hlists)

/-- A symbol ends in the number that it was made with. -/
theorem symbolFor_inj {name other : String} {i j : Nat} (h : symbolFor name i = symbolFor other j) :
    i = j := by
  have hdigits : ∀ (front : List Char) (n : Nat),
      (front ++ ('_' :: Nat.toDigits 10 n)).reverse.takeWhile Char.isDigit =
        (Nat.toDigits 10 n).reverse := fun front n => by
    rw [List.reverse_append, List.reverse_cons, List.append_assoc, List.takeWhile_append_of_pos]
    · simp
    · intro c hc
      exact Nat.isDigit_of_mem_toDigits (by decide) (by decide) (List.mem_reverse.mp hc)
  have hsplit : ∀ (name : String) (n : Nat), (symbolFor name n).toList =
      ("heron_jit_".toList ++ name.toList) ++ ('_' :: Nat.toDigits 10 n) := fun name n => by
    simp [symbolFor, toString, Nat.toList_repr]
  have hlists := congrArg (fun s : String => s.toList.reverse.takeWhile Char.isDigit) h
  simp only [hsplit, hdigits, List.reverse_inj] at hlists
  calc
    i = Nat.ofDigitChars 10 (Nat.toDigits 10 i) 0 := Nat.ofDigitChars_ten_toDigits.symm
    _ = Nat.ofDigitChars 10 (Nat.toDigits 10 j) 0 := by rw [hlists]
    _ = j := Nat.ofDigitChars_ten_toDigits

/-- Compiled functions are not mistaken for helpers. -/
theorem symbolFor_ne_symbol (name : String) (id : Nat) (k : HelperKind) :
    symbolFor name id ≠ k.symbol := by
  intro h
  have hlists := congrArg (fun s : String => s.toList[6]?) h
  simp [symbolFor, HelperKind.symbol, toString] at hlists

/-! ## Tables -/

/-- The routine last set for a helper. -/
def lastSet (sets : List (HelperKind × α)) (k : HelperKind) : Option α := sets.reverse.lookup k

namespace HelperTable

/-- **A later routine of a helper replaces an earlier one.** -/
theorem get?_ofSets (sets : List (HelperKind × α)) (k : HelperKind) :
    (ofSets sets).get? k = lastSet sets k := by
  induction sets using List.reverseRecOn with
  | nil => rfl
  | append_singleton sets entry ih =>
    unfold ofSets lastSet at ih ⊢
    rw [List.foldl_append, List.reverse_append]
    show (HelperTable.set _ entry.1 entry.2).get? k = List.lookup k (entry :: sets.reverse)
    rw [get?_set, List.lookup_cons, ih]
    by_cases hk : k = entry.1
    · simp [hk]
    · rw [if_neg hk, beq_false_of_ne hk]

theorem mem_toList {t : HelperTable α} {entry : HelperKind × α} :
    entry ∈ t.toList ↔ t.get? entry.1 = some entry.2 := by
  unfold toList
  rw [List.mem_filterMap]
  constructor
  · rintro ⟨k, -, hk⟩
    obtain ⟨a, ha, rfl⟩ := Option.map_eq_some_iff.mp hk
    exact ha
  · exact fun h => ⟨entry.1, entry.1.mem_all, by rw [h]; rfl⟩

/-- The symbols that a table registers, in order. -/
abbrev symbols (t : HelperTable α) : List (String × α) :=
  t.toList.map fun entry => (entry.1.symbol, entry.2)

/-- Under the symbol of a helper, its own routine is registered. -/
theorem lookup_symbols (t : HelperTable α) (k : HelperKind) :
    t.symbols.reverse.lookup k.symbol = t.get? k := by
  have hmem : ∀ a, (k.symbol, a) ∈ t.symbols.reverse ↔ t.get? k = some a := fun a => by
    rw [List.mem_reverse, List.mem_map]
    constructor
    · rintro ⟨entry, hentry, heq⟩
      obtain ⟨hsymbol, rfl⟩ := Prod.mk.inj heq
      rw [← HelperKind.symbol_injective hsymbol]
      exact mem_toList.mp hentry
    · exact fun h => ⟨(k, a), mem_toList.mpr h, rfl⟩
  cases hget : t.get? k with
  | none =>
    refine List.lookup_eq_none_iff.mpr fun entry hentry => ?_
    rw [bne_iff_ne]
    intro hsymbol
    rw [(hmem entry.2).mp (by rw [hsymbol]; exact hentry)] at hget
    cases hget
  | some a =>
    cases hlookup : t.symbols.reverse.lookup k.symbol with
    | none =>
      have hne := List.lookup_eq_none_iff.mp hlookup _ ((hmem a).mpr hget)
      simp at hne
    | some b =>
      obtain ⟨front, back, hlist, -⟩ := List.lookup_eq_some_iff.mp hlookup
      have hb : t.get? k = some b := (hmem b).mp (by simp [hlist])
      exact hb.symm.trans hget

/-- No kind is listed twice. -/
theorem nodup_toList (t : HelperTable α) : (t.toList.map Prod.fst).Nodup := by
  rw [toList, List.map_filterMap]
  refine HelperKind.nodup_all.filterMap fun k j b hk hj => ?_
  have hfst : ∀ i, b ∈ ((t.get? i).map (i, ·)).map Prod.fst → b = i := fun i hi => by
    simp only [Option.map_map, Option.mem_def, Option.map_eq_some_iff] at hi
    obtain ⟨a, -, rfl⟩ := hi
    rfl
  exact (hfst k hk).symm.trans (hfst j hj)

end HelperTable

/-! ## New compilers -/

namespace Compiler

variable {B : Backend α} {V : B.View} {routine? : HelperKind → Option α} {n : Nat}

/-- A compiler that can compile `n` more functions, and whose helpers are linked to these routines. -/
structure Sound (V : B.View) (routine? : HelperKind → Option α) (n : Nat) (c : Compiler B) : Prop where
  idle : c.builderIdle = true
  /-- A helper that is set is imported, and its routine is registered. -/
  imported : ∀ k a, routine? k = some a → ∃ id, c.imports.get? k = some id ∧
    V.declaration? c.module id = some k.declaration ∧ V.routine? c.module k.symbol = some a
  unset : ∀ k, routine? k = none → c.imports.get? k = none
  /-- What is declared are helpers and functions with smaller numbers. -/
  names : ∀ id d, V.declaration? c.module id = some d →
    (∃ k : HelperKind, d.name = k.symbol) ∨ ∃ name i, i < c.nextId ∧ d.name = symbolFor name i
  room : n ≤ V.room c.module
  numbers : c.nextId + n ≤ 0x100000000

/-- These helpers have been imported into a module, and nothing else was declared. -/
structure Imports (V : B.View) (M₀ : B.Module) (done : List HelperKind)
    (imports : HelperTable FuncId) (M : B.Module) : Prop where
  keeps : V.Keeps M₀ M
  imported : ∀ k ∈ done, ∃ id, imports.get? k = some id ∧ V.declaration? M id = some k.declaration
  others : ∀ k ∉ done, imports.get? k = none
  names : ∀ id d, V.declaration? M id = some d → ∃ k ∈ done, d = k.declaration
  room : V.capacity ≤ V.room M + done.length

namespace Imports

variable {M₀ M : B.Module} {done : List HelperKind} {imports : HelperTable FuncId}

/-- One more helper is imported under a number of its own. -/
theorem declareHelper (hV : V.Lawful) (h : Imports V M₀ done imports M) {k : HelperKind}
    (hk : k ∉ done) (hroom : done.length < V.capacity) :
    ∃ imports' M', Compiler.declareHelper B imports k M = .ok imports' M' ∧
      Imports V M₀ (done ++ [k]) imports' M' := by
  have hnew : ∀ id e, V.declaration? M id = some e → e.name ≠ k.declaration.name := by
    intro id e he hname
    obtain ⟨j, hj, rfl⟩ := h.names id e he
    exact hk (HelperKind.symbol_injective hname ▸ hj)
  have hleft : 0 < V.room M := by
    have := h.room
    omega
  obtain ⟨id, M', hdeclare, hkeeps, hroom', -, -, hdeclared⟩ := hV.declare M _ hleft hnew
  refine ⟨imports.set k id, M', Result.bind_of_ok hdeclare _, h.keeps.trans hkeeps, ?_, ?_, ?_, ?_⟩
  · intro j hj
    rw [HelperTable.get?_set]
    by_cases hjk : j = k
    · exact ⟨id, if_pos hjk, by rw [hdeclared, if_pos rfl, hjk]⟩
    · have hdone : j ∈ done := by simpa [hjk] using hj
      obtain ⟨i, hi, hd⟩ := h.imported j hdone
      exact ⟨i, by rw [if_neg hjk, hi], hkeeps.declarations i _ hd⟩
  · intro j hj
    obtain ⟨hdone, hjk⟩ : j ∉ done ∧ j ≠ k := by simpa using hj
    rw [HelperTable.get?_set, if_neg hjk, h.others j hdone]
  · intro i d hd
    rw [hdeclared] at hd
    split at hd
    · cases hd
      exact ⟨k, by simp, rfl⟩
    · obtain ⟨j, hj, hjd⟩ := h.names i d hd
      exact ⟨j, List.mem_append_left _ hj, hjd⟩
  · have := h.room
    rw [List.length_append, List.length_singleton]
    omega

/-- Helpers are imported one after the other. -/
theorem foldlM (hV : V.Lawful) {entries : List (HelperKind × α)}
    (h : Imports V M₀ done imports M) (hnodup : (done ++ entries.map Prod.fst).Nodup)
    (hroom : done.length + entries.length ≤ V.capacity) :
    ∃ imports' M', (entries.foldlM (fun imports entry => Compiler.declareHelper B imports entry.1)
        imports : EStateM String B.Module _) M = .ok imports' M' ∧
      Imports V M₀ (done ++ entries.map Prod.fst) imports' M' := by
  induction entries generalizing done imports M with
  | nil => exact ⟨imports, M, rfl, by simpa using h⟩
  | cons entry entries ih =>
    -- No kind is imported twice, so the name of this one is new.
    have hsplit : done ++ (entry :: entries).map Prod.fst =
        done ++ [entry.1] ++ entries.map Prod.fst := by simp
    rw [hsplit] at hnodup ⊢
    have hnew : entry.1 ∉ done := by
      have := List.nodup_append.mp (List.nodup_append.mp hnodup).1
      exact fun hmem => this.2.2 _ hmem _ (List.mem_singleton_self _) rfl
    rw [List.length_cons] at hroom
    obtain ⟨imports', M', hdeclare, h'⟩ := h.declareHelper hV hnew (by omega)
    obtain ⟨imports'', M'', hrest, h''⟩ := ih h' hnodup (by
      rw [List.length_append, List.length_singleton]
      omega)
    refine ⟨imports'', M'', ?_, h''⟩
    rw [List.foldlM_cons]
    exact (Result.bind_of_ok hdeclare _).trans hrest

end Imports

/-- **A new compiler imports the helpers that are set, and no others.** -/
theorem new_sound (hV : V.Lawful) (t : HelperTable α) (hroom : HelperKind.all.length + n ≤ V.capacity) :
    ∃ c, Compiler.new B t = .ok c ∧ Sound V t.get? n c := by
  obtain ⟨M₀, hlink, hroom₀, hnone, hroutine⟩ := hV.link t.symbols
  have hlength : t.toList.length ≤ HelperKind.all.length := List.length_filterMap_le _ _
  have hstart : Imports V M₀ [] .empty M₀ := {
    keeps := .refl M₀
    imported := fun _ h => absurd h List.not_mem_nil
    others := fun _ _ => rfl
    names := fun id d hd => by rw [hnone id] at hd; cases hd
    room := by rw [hroom₀]; exact Nat.le_add_right _ _ }
  have hnodup : ([] ++ t.toList.map Prod.fst).Nodup := t.nodup_toList
  obtain ⟨imports, M, hdeclare, h⟩ := hstart.foldlM hV hnodup (by rw [List.length_nil]; omega)
  refine ⟨{ module := M, imports }, ?_, rfl, fun k a hk => ?_, fun k hk => ?_, ?_, ?_, ?_⟩
  · have himports : declareHelpers B t M₀ = .ok imports M := hdeclare
    simp only [new, hlink, himports]
  · have hmem : k ∈ [] ++ t.toList.map Prod.fst :=
      List.mem_map.mpr ⟨(k, a), HelperTable.mem_toList.mpr hk, rfl⟩
    obtain ⟨id, hid, hd⟩ := h.imported k hmem
    refine ⟨id, hid, hd, ?_⟩
    rw [h.keeps.routines, hroutine, t.lookup_symbols, hk]
  · refine h.others k fun hmem => ?_
    obtain ⟨entry, hentry, rfl⟩ := List.mem_map.mp hmem
    rw [HelperTable.mem_toList.mp hentry] at hk
    cases hk
  · intro id d hd
    obtain ⟨k, -, rfl⟩ := h.names id d hd
    exact .inl ⟨k, rfl⟩
  · have := h.room
    rw [List.nil_append, List.length_map] at this
    show n ≤ V.room M
    omega
  · have := hV.capacity_le
    show 0 + n ≤ 0x100000000
    omega

/-! ## References -/

/-- A function under construction refers to these helpers, as far as they are imported, and otherwise is
as it was. -/
structure Refers (imports : HelperTable FuncId) (f₀ : IrFunction) (done : List HelperKind)
    (refs : HelperTable Nat) (f : IrFunction) : Prop where
  found : ∀ k ∈ done, ∀ id, imports.get? k = some id →
    ∃ r : Nat, refs.get? k = some r ∧ f.refs[r]? = some id
  unset : ∀ k, imports.get? k = none → refs.get? k = none
  /-- Nothing else is referred to. -/
  only : ∀ (r : Nat) id, f.refs[r]? = some id → ∃ k, imports.get? k = some id
  same : f = { f₀ with refs := f.refs }

theorem Refers.referTo {imports : HelperTable FuncId} {f₀ f : IrFunction} {done : List HelperKind}
    {refs : HelperTable Nat} (h : Refers imports f₀ done refs f) (k : HelperKind) :
    Refers imports f₀ (done ++ [k]) (Compiler.referTo imports (refs, f) k).1
      (Compiler.referTo imports (refs, f) k).2 := by
  cases hk : imports.get? k with
  | none =>
    have hstep : Compiler.referTo imports (refs, f) k = (refs, f) := by simp only [Compiler.referTo, hk]
    rw [hstep]
    refine ⟨fun j hj id hid => ?_, h.unset, h.only, h.same⟩
    have hjk : j ≠ k := by
      rintro rfl
      rw [hk] at hid
      cases hid
    exact h.found j (by simpa [hjk] using hj) id hid
  | some idk =>
    have hstep : Compiler.referTo imports (refs, f) k = (refs.set k (f.refer idk).1, (f.refer idk).2) := by
      simp only [Compiler.referTo, hk]
    rw [hstep]
    refine ⟨fun j hj id hid => ?_, fun j hj => ?_, fun r id hr => ?_, ?_⟩
    · rw [HelperTable.get?_set]
      by_cases hjk : j = k
      · subst hjk
        rw [hk] at hid
        cases hid
        exact ⟨_, if_pos rfl, Array.getElem?_push_size⟩
      · obtain ⟨r, hr, hid'⟩ := h.found j (by simpa [hjk] using hj) id hid
        have hold : r ≠ f.refs.size := Nat.ne_of_lt (Array.getElem?_eq_some_iff.mp hid').1
        refine ⟨r, by rw [if_neg hjk, hr], ?_⟩
        rw [IrFunction.refer, Array.getElem?_push, if_neg hold, hid']
    · have hjk : j ≠ k := by
        rintro rfl
        rw [hk] at hj
        cases hj
      rw [HelperTable.get?_set, if_neg hjk, h.unset j hj]
    · rw [IrFunction.refer, Array.getElem?_push] at hr
      split at hr
      · cases hr
        exact ⟨k, hk⟩
      · exact h.only r id hr
    · rw [IrFunction.refer, h.same]

/-- What is referred to is imported. -/
theorem Refers.target {imports : HelperTable FuncId} {f₀ f : IrFunction} {refs : HelperTable Nat}
    (h : Refers imports f₀ HelperKind.all refs f) {k : HelperKind} {r : Nat} (hr : refs.get? k = some r) :
    ∃ id, imports.get? k = some id ∧ f.refs[r]? = some id := by
  cases hk : imports.get? k with
  | none =>
    rw [h.unset k hk] at hr
    cases hr
  | some id =>
    obtain ⟨r', hr', hid⟩ := h.found k k.mem_all id hk
    rw [hr] at hr'
    cases hr'
    exact ⟨id, rfl, hid⟩

/-- **The references of a function under construction are the imported helpers.** -/
theorem referAll_refers (imports : HelperTable FuncId) (signature : Signature) :
    Refers imports { signature } HelperKind.all (referAll imports { signature }).1
      (referAll imports { signature }).2 := by
  have hfold : ∀ (ks done : List HelperKind) (x : HelperTable Nat × IrFunction),
      Refers imports { signature } done x.1 x.2 →
      Refers imports { signature } (done ++ ks) (ks.foldl (Compiler.referTo imports) x).1
        (ks.foldl (Compiler.referTo imports) x).2 := by
    intro ks
    induction ks with
    | nil => exact fun done x h => by simpa using h
    | cons k ks ih =>
      intro done x h
      rw [List.foldl_cons, List.append_cons]
      exact ih _ _ (h.referTo k)
  have hstart : Refers imports { signature } [] .empty { signature } :=
    ⟨fun _ h => absurd h List.not_mem_nil, fun _ _ => rfl, fun r id hr => by simp at hr, rfl⟩
  exact hfold HelperKind.all [] _ hstart

end Compiler

end TieredVm
