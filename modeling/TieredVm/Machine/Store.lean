/-!
# Stores

A store holds one value at every natural number, so looking up never fails and nothing has to be
allocated first. Writing one place leaves every other as it was.

Memory behind pointers is such a store.
-/

namespace TieredVm

/-- A value at every address. -/
structure Store (α : Type) where
  get : Nat → α

namespace Store

variable {α : Type}

/-- The store that holds the same value everywhere. -/
def const (a : α) : Store α := ⟨fun _ => a⟩

/-- The store with one place overwritten. -/
def set (s : Store α) (i : Nat) (a : α) : Store α := ⟨fun j => if j = i then a else s.get j⟩

@[simp] theorem get_set_self (s : Store α) (i : Nat) (a : α) : (s.set i a).get i = a := by
  simp [set]

@[simp] theorem get_set_ne (s : Store α) {i j : Nat} (a : α) (h : j ≠ i) :
    (s.set i a).get j = s.get j := by
  simp [set, h]

theorem get_set (s : Store α) (i j : Nat) (a : α) :
    (s.set i a).get j = if j = i then a else s.get j := rfl

/-- Writing what is already there changes nothing. -/
@[simp] theorem set_get (s : Store α) (i : Nat) : s.set i (s.get i) = s := by
  cases s with
  | mk g => simp only [set, mk.injEq]; funext j; split <;> simp_all

end Store

end TieredVm
