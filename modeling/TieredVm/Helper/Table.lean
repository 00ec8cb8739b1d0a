import TieredVm.Helper.Kind

/-!
# Helper tables

A table gives some of the helpers a routine to call. Setting a helper again replaces its routine.

`HelperTable` is `RuntimeHelpers`: `empty`, `set`, `get?`, `isComplete` and `toList` are its `new`,
`set`, `get`, `is_complete` and `iter`. The same table holds what becomes of the helpers in a module
(`HelperFuncIds`) and in a function under construction (`HelperRefs`).
-/

namespace TieredVm

/-- The routines of the helpers that have one. -/
structure HelperTable (α : Type) where
  get? : HelperKind → Option α

namespace HelperTable

variable {α : Type}

/-- The table in which no helper has a routine. -/
def empty : HelperTable α := ⟨fun _ => none⟩

/-- Gives a helper a routine. -/
def set (t : HelperTable α) (k : HelperKind) (a : α) : HelperTable α :=
  ⟨fun j => if j = k then some a else t.get? j⟩

/-- The table that results when helpers are set one after the other. -/
def ofSets (sets : List (HelperKind × α)) : HelperTable α :=
  sets.foldl (fun t entry => t.set entry.1 entry.2) empty

/-- Has every helper a routine? -/
def isComplete (t : HelperTable α) : Bool := HelperKind.all.all fun k => (t.get? k).isSome

/-- The helpers that have a routine, in table order. -/
def toList (t : HelperTable α) : List (HelperKind × α) :=
  HelperKind.all.filterMap fun k => (t.get? k).map (k, ·)

@[simp] theorem get?_empty (k : HelperKind) : (empty : HelperTable α).get? k = none := rfl

theorem get?_set (t : HelperTable α) (k j : HelperKind) (a : α) :
    (t.set k a).get? j = if j = k then some a else t.get? j := rfl

/-- A table is complete when no helper is without a routine. -/
theorem isComplete_iff (t : HelperTable α) :
    t.isComplete = true ↔ ∀ k, (t.get? k).isSome = true := by
  simp [isComplete, List.all_eq_true, HelperKind.mem_all]

end HelperTable

end TieredVm
