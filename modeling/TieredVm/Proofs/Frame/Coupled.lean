import TieredVm.Proofs.Frame.Cells
import TieredVm.Proofs.Frame.Represent

/-!
# Captured variables and their cells

`Coupled m t` is the invariant that ties a machine to the cells, as long as the program has kept to
the rules. Slots are lent to the activations that are linked and to no other, and the handles handed
out denote variables, each its own; that much is a matter of the cells alone (`Cells.Sound`).
Buffers hold what the cells say. A handle on a slot of a linked activation shares that slot and is
listed by the frame; any other handle owns the value of its cell.

What every transition keeps of it:

* `Coupled.congr`, `Coupled.restack`: what moves no variable;
* `Coupled.written`, `Coupled.poked`, `Coupled.setHandle`: writing, through whatever alias;
* `Coupled.captured`, `Coupled.newVariable`: new handles;
* `Coupled.lend`, and from it `Coupled.entered` and `Coupled.attached`; `Coupled.left`.
-/

namespace TieredVm

open Machine

variable {R : Type} {recording : Bool} {m m' : Machine R} {t : Cells} {s s' : CallStack}

/-! ## The invariant -/

/-- An activation has a slot at an address, for a variable. -/
structure Activation.Lends (a : Activation) (x : Variable) (slot : Address) (kind : SlotKind)
    (i : Nat) : Prop where
  inside : i < a.count kind
  denotes : x = .slot a.serial kind i
  place : slot = slotAddress (a.base kind) i

/-- A handle shares a slot of an activation, and its frame lists it. -/
structure Activation.Shares (a : Activation) (m : Machine R) (n : Nat) (kind : SlotKind)
    (i : Nat) : Prop where
  inside : i < a.count kind
  cell : m.captures.get n = .shared (slotAddress (a.base kind) i) i kind
  listed : (⟨n⟩ : Capture) ∈ (m.frames.get a.frame).captured

/-- A slot of a linked activation. -/
def CallStack.HasSlot (s : CallStack) (x : Variable) (slot : Address) : Prop :=
  ∃ a ∈ s.linked, ∃ kind i, a.Lends x slot kind i

/-- No linked activation has the variable. -/
def CallStack.Gone (s : CallStack) (x : Variable) : Prop := ∀ a ∈ s.linked, x.isOf a.serial = false

/-- What holds of the cells by themselves. -/
structure Cells.Sound (t : Cells) : Prop where
  /-- Slots are lent to the activations that are linked, and to no other. -/
  lent_iff : ∀ slot x, t.lent slot = some x ↔ t.stack.HasSlot x slot
  serials : (t.stack.linked.map Activation.serial).Nodup
  begun : ∀ a ∈ t.stack.linked, a.serial < t.stack.begun
  unattached : ∀ a ∈ t.stack.linked, a.attached = false → a.localCount = 0
  handles : t.handles.Nodup
  /-- Handles denote variables of activations begun so far. -/
  earlier : ∀ n kind i, .slot n kind i ∈ t.handles → n < t.stack.begun
  own : ∀ n, .own n ∈ t.handles → n < t.handles.length

/-- A machine holds what the cells say. -/
structure Coupled (m : Machine R) (t : Cells) : Prop extends Cells.Sound t where
  memory : ∀ slot, m.memory.get slot = t.view slot
  handedOut : m.freshCapture = t.handles.length
  /-- A handle shares a slot of a linked activation, or owns its value. -/
  placed : ∀ n x, t.handles[n]? = some x →
    (∃ a ∈ t.stack.linked, ∃ kind i, x = .slot a.serial kind i ∧ a.Shares m n kind i) ∨
      (t.stack.Gone x ∧ m.captures.get n = .owned (t.cell x))

/-! ## Slots -/

theorem CallStack.not_gone {a : Activation} (ha : a ∈ s.linked) (kind : SlotKind) (i : Nat) :
    ¬ s.Gone (.slot a.serial kind i) := fun hg => by
  have hx := hg a ha
  simp [Variable.isOf] at hx

theorem CallStack.HasSlot.not_gone {x : Variable} {slot : Address} (h : s.HasSlot x slot) :
    ¬ s.Gone x := by
  obtain ⟨a, ha, kind, i, hi⟩ := h
  rw [hi.denotes]
  exact CallStack.not_gone ha kind i

/-- A pushed activation has its arguments, and the others have what they had. -/
theorem CallStack.hasSlot_pushed (s : CallStack) (id : FrameId) (function : Value) (args : Address)
    (argCount : Nat) (x : Variable) (slot : Address) :
    (s.pushed id function args argCount).HasSlot x slot ↔ s.HasSlot x slot ∨
      ∃ i < argCount, x = .slot s.begun .argument i ∧ slot = slotAddress args i := by
  constructor
  · rintro ⟨a, ha, kind, i, hi⟩
    rcases List.mem_cons.mp ha with rfl | ha
    · cases kind with
      | argument => exact .inr ⟨i, hi.inside, hi.denotes, hi.place⟩
      | localVar => exact absurd hi.inside (Nat.not_lt_zero i)
    · exact .inl ⟨a, ha, kind, i, hi⟩
  · rintro (⟨a, ha, kind, i, hi⟩ | ⟨i, hi, rfl, rfl⟩)
    · exact ⟨a, List.mem_cons_of_mem _ ha, kind, i, hi⟩
    · exact ⟨_, List.mem_cons_self, .argument, i, hi, rfl, rfl⟩

/-- An activation without locals gets some, and the others have what they had. -/
theorem Represents.hasSlot_attached (h : Represents recording m s) {a : Activation}
    (ha : a ∈ s.linked) (hz : a.localCount = 0) (locals : Address) (count : Nat)
    (x : Variable) (slot : Address) :
    (s.update a.frame fun a =>
      { a with locals, localCount := count, attached := true }).HasSlot x slot ↔
      s.HasSlot x slot ∨
        ∃ i < count, x = .slot a.serial .localVar i ∧ slot = slotAddress locals i := by
  constructor
  · rintro ⟨b, hb, kind, i, hi⟩
    obtain ⟨c, hc, rfl⟩ := CallStack.mem_update.mp hb
    by_cases hca : c.frame = a.frame
    · rw [if_pos hca] at hi
      obtain rfl := h.eq_of_frame ha hc hca
      cases kind with
      | argument => exact .inl ⟨c, hc, .argument, i, hi.inside, hi.denotes, hi.place⟩
      | localVar => exact .inr ⟨i, hi.inside, hi.denotes, hi.place⟩
    · rw [if_neg hca] at hi
      exact .inl ⟨c, hc, kind, i, hi⟩
  · rintro (⟨b, hb, kind, i, hi⟩ | ⟨i, hi, rfl, rfl⟩)
    · by_cases hba : b.frame = a.frame
      · obtain rfl := h.eq_of_frame ha hb hba
        cases kind with
        | argument =>
          exact ⟨_, CallStack.mem_update.mpr ⟨b, hb, if_pos rfl⟩, .argument, i, hi.inside,
            hi.denotes, hi.place⟩
        | localVar => exact absurd hi.inside (by simp [Activation.count, hz])
      · exact ⟨b, CallStack.mem_update.mpr ⟨b, hb, if_neg hba⟩, kind, i, hi⟩
    · exact ⟨_, CallStack.mem_update.mpr ⟨a, ha, if_pos rfl⟩, .localVar, i, hi, rfl, rfl⟩

/-! ## Cells -/

namespace Cells

theorem view_of_lent {slot : Address} {x : Variable} (h : t.lent slot = some x) :
    t.view slot = t.cell x := by
  rw [view, h]

theorem view_of_loose {slot : Address} (h : t.lent slot = none) : t.view slot = t.loose slot := by
  rw [view, h]

theorem setCell_self (t : Cells) (x : Variable) (v : Value) : (t.setCell x v).cell x = v :=
  if_pos rfl

theorem setCell_ne {x y : Variable} (h : y ≠ x) (v : Value) :
    (t.setCell x v).cell y = t.cell y := if_neg h

/-- Writing a variable changes the content of no slot but the one it is lent. -/
theorem view_setCell {slot : Address} {x : Variable} (h : t.lent slot ≠ some x) (v : Value) :
    (t.setCell x v).view slot = t.view slot := by
  cases hy : t.lent slot with
  | none => exact (view_of_loose (t := t.setCell x v) hy).trans (view_of_loose hy).symm
  | some y =>
    have hne : y ≠ x := fun he => h (he ▸ hy)
    rw [view_of_lent hy, view_of_lent (t := t.setCell x v) hy, setCell_ne hne]

theorem lent_lend_inside (t : Cells) (serial : Nat) (kind : SlotKind) (base : Address)
    {count i : Nat} (h : i < count) :
    (t.lend serial kind base count).lent (slotAddress base i) = some (.slot serial kind i) := by
  simp only [lend, slotIndex?_eq_some.mpr ⟨h, rfl⟩]

theorem lent_lend_outside (serial : Nat) (kind : SlotKind) {base : Address} {count : Nat}
    {slot : Address} (h : ∀ i < count, slot ≠ slotAddress base i) :
    (t.lend serial kind base count).lent slot = t.lent slot := by
  simp only [lend, slotIndex?_eq_none.mpr h]

theorem cell_lend_inside (t : Cells) (serial : Nat) (kind : SlotKind) (base : Address)
    {count i : Nat} (h : i < count) :
    (t.lend serial kind base count).cell (.slot serial kind i) = t.view (slotAddress base i) :=
  if_pos ⟨rfl, rfl, h⟩

theorem cell_lend_outside {serial : Nat} {kind : SlotKind} (base : Address) {count : Nat}
    {x : Variable} (h : ∀ i < count, x ≠ .slot serial kind i) :
    (t.lend serial kind base count).cell x = t.cell x := by
  cases x with
  | own n => rfl
  | slot n k i =>
    refine if_neg ?_
    rintro ⟨rfl, rfl, hi⟩
    exact h i hi rfl

/-- Lending a buffer changes the content of no slot, unless a slot is lent twice. -/
theorem view_lend {serial : Nat} {kind : SlotKind} {base : Address} {count : Nat}
    (hnew : ∀ slot, ∀ i < count, t.lent slot ≠ some (.slot serial kind i)) (slot : Address) :
    (t.lend serial kind base count).view slot = t.view slot := by
  by_cases hs : ∃ i < count, slot = slotAddress base i
  · obtain ⟨i, hi, rfl⟩ := hs
    rw [view_of_lent (lent_lend_inside t serial kind base hi), cell_lend_inside _ _ _ _ hi]
  · have hl := lent_lend_outside (t := t) serial kind fun i hi he => hs ⟨i, hi, he⟩
    cases hx : t.lent slot with
    | none =>
      rw [view_of_loose (hl.trans hx), view_of_loose hx]
      rfl
    | some x =>
      rw [view_of_lent (hl.trans hx), view_of_lent hx]
      exact cell_lend_outside base fun i hi he => hnew slot i hi (he ▸ hx)

/-- Nor does taking one back. -/
theorem view_reclaim (t : Cells) (serial : Nat) (slot : Address) :
    (t.reclaim serial).view slot = t.view slot := by
  cases hx : (t.reclaim serial).lent slot with
  | none => rw [view_of_loose hx]; rfl
  | some x =>
    have hl : t.lent slot = some x := (Option.filter_eq_some_iff.mp hx).1
    rw [view_of_lent hx, view_of_lent hl]
    rfl

end Cells

namespace Cells.Sound

/-- Writing concerns neither the slots lent nor the handles. -/
theorem of_eq {t' : Cells} (h : t.Sound) (hs : t'.stack = t.stack) (hl : t'.lent = t.lent)
    (hh : t'.handles = t.handles) : t'.Sound := by
  constructor <;> simp only [hs, hl, hh]
  · exact h.lent_iff
  · exact h.serials
  · exact h.begun
  · exact h.unattached
  · exact h.handles
  · exact h.earlier
  · exact h.own

theorem eq_of_serial (h : t.Sound) {a b : Activation} (ha : a ∈ t.stack.linked)
    (hb : b ∈ t.stack.linked) (hab : b.serial = a.serial) : b = a :=
  List.inj_on_of_nodup_map h.serials hb ha hab

/-- Linked activations have no variable in common. -/
theorem slot_inj (h : t.Sound) {a b : Activation} (ha : a ∈ t.stack.linked)
    (hb : b ∈ t.stack.linked) {kind k : SlotKind} {i j : Nat}
    (he : Variable.slot a.serial kind i = .slot b.serial k j) : b = a ∧ k = kind ∧ j = i := by
  simp only [Variable.slot.injEq] at he
  exact ⟨h.eq_of_serial ha hb he.1.symm, he.2.1.symm, he.2.2.symm⟩

/-- The slot of a linked activation is lent to its variable. -/
theorem lent_slot (h : t.Sound) {a : Activation} (ha : a ∈ t.stack.linked) (kind : SlotKind)
    {i : Nat} (hi : i < a.count kind) :
    t.lent (slotAddress (a.base kind) i) = some (.slot a.serial kind i) :=
  (h.lent_iff _ _).mpr ⟨a, ha, kind, i, hi, rfl, rfl⟩

/-- No variable is lent two slots. -/
theorem lent_inj (h : t.Sound) {x : Variable} {p q : Address} (hp : t.lent p = some x)
    (hq : t.lent q = some x) : p = q := by
  obtain ⟨a, ha, k, i, hi⟩ := (h.lent_iff p x).mp hp
  obtain ⟨b, hb, l, j, hj⟩ := (h.lent_iff q x).mp hq
  obtain ⟨rfl, rfl, rfl⟩ := h.slot_inj ha hb (hi.denotes.symm.trans hj.denotes)
  exact hi.place.trans hj.place.symm

/-- Two handles that denote one variable are the same. -/
theorem handle_inj (h : t.Sound) {n k : Nat} {x : Variable} (hn : t.handles[n]? = some x)
    (hk : t.handles[k]? = some x) : n = k := by
  obtain ⟨hlt, -⟩ := List.getElem?_eq_some_iff.mp hn
  exact (List.getElem?_inj hlt h.handles).mp (hn.trans hk.symm)

/-! ### Transitions -/

/-- A change of linked activations that concerns neither their numbers nor their slots. -/
theorem restack (h : t.Sound) (s' : CallStack) (g : Activation → Activation)
    (hs : s'.linked = t.stack.linked.map g) (hb : s'.begun = t.stack.begun)
    (hg : ∀ a, (g a).serial = a.serial ∧ (g a).frame = a.frame ∧ (g a).attached = a.attached ∧
      (g a).base = a.base ∧ (g a).count = a.count) : { t with stack := s' }.Sound where
  lent_iff slot x := by
    rw [show ({ t with stack := s' } : Cells).lent slot = t.lent slot from rfl, h.lent_iff]
    constructor
    · rintro ⟨a, ha, kind, i, hi⟩
      obtain ⟨hser, -, -, hbase, hcount⟩ := hg a
      refine ⟨g a, hs ▸ List.mem_map_of_mem ha, kind, i, ?_, ?_, ?_⟩
      · rw [hcount]; exact hi.inside
      · rw [hser]; exact hi.denotes
      · rw [hbase]; exact hi.place
    · rintro ⟨b, hb, kind, i, hi⟩
      obtain ⟨a, ha, rfl⟩ := List.mem_map.mp (hs ▸ hb)
      obtain ⟨hser, -, -, hbase, hcount⟩ := hg a
      exact ⟨a, ha, kind, i, hcount ▸ hi.inside, hser ▸ hi.denotes, hbase ▸ hi.place⟩
  serials := by
    have hser : (t.stack.linked.map g).map Activation.serial =
        t.stack.linked.map Activation.serial := by
      rw [List.map_map]
      exact List.map_congr_left fun a _ => (hg a).1
    show (s'.linked.map Activation.serial).Nodup
    rw [hs, hser]
    exact h.serials
  begun b hb' := by
    obtain ⟨a, ha, rfl⟩ := List.mem_map.mp (hs ▸ hb')
    rw [(hg a).1]
    exact hb ▸ h.begun a ha
  unattached b hb' hat := by
    obtain ⟨a, ha, rfl⟩ := List.mem_map.mp (hs ▸ hb')
    obtain ⟨-, -, hatt, -, hcount⟩ := hg a
    have hl : (g a).localCount = a.localCount := congrFun hcount .localVar
    rw [hl]
    exact h.unattached a ha (hatt.symm.trans hat)
  handles := h.handles
  earlier := by
    show ∀ n kind i, _ → n < s'.begun
    rw [hb]
    exact h.earlier
  own := h.own

/-- One more handle, on a variable that no handle denoted. -/
theorem handed (h : t.Sound) {x : Variable} (hx : x ∉ t.handles)
    (hearlier : ∀ n kind i, x = .slot n kind i → n < t.stack.begun)
    (hown : ∀ n, x = .own n → n = t.handles.length) :
    { t with handles := t.handles ++ [x] }.Sound where
  lent_iff := h.lent_iff
  serials := h.serials
  begun := h.begun
  unattached := h.unattached
  handles := List.nodup_append.mpr ⟨h.handles, List.nodup_singleton x, fun y hy z hz he => by
    rw [List.mem_singleton] at hz
    exact hx (hz ▸ he ▸ hy)⟩
  earlier n kind i hn := by
    rcases List.mem_append.mp hn with hn | hn
    · exact h.earlier n kind i hn
    · exact hearlier n kind i (List.mem_singleton.mp hn).symm
  own n hn := by
    show n < (t.handles ++ [x]).length
    rw [List.length_append, List.length_singleton]
    rcases List.mem_append.mp hn with hn | hn
    · exact Nat.lt_succ_of_lt (h.own n hn)
    · exact Nat.lt_succ_of_le (Nat.le_of_eq (hown n (List.mem_singleton.mp hn).symm))

/-- Lending a buffer, no slot of which is lent. -/
theorem lend (h : t.Sound) {serial : Nat} {kind : SlotKind} {base : Address} {count : Nat}
    (o : Bool) (hserials : (s'.linked.map Activation.serial).Nodup)
    (hbegun : ∀ a ∈ s'.linked, a.serial < s'.begun)
    (hunattached : ∀ a ∈ s'.linked, a.attached = false → a.localCount = 0)
    (hlater : t.stack.begun ≤ s'.begun)
    (hslot : ∀ x slot, s'.HasSlot x slot ↔ t.stack.HasSlot x slot ∨
      ∃ i < count, x = .slot serial kind i ∧ slot = slotAddress base i)
    (hfree : ∀ i < count, t.lent (slotAddress base i) = none) :
    ({ t with stack := s', orderly := o }.lend serial kind base count).Sound where
  lent_iff slot x := by
    show _ ↔ s'.HasSlot x slot
    rw [hslot, ← h.lent_iff]
    by_cases hs : ∃ i < count, slot = slotAddress base i
    · obtain ⟨i, hi, rfl⟩ := hs
      rw [Cells.lent_lend_inside _ _ _ _ hi, hfree i hi]
      constructor
      · rintro ⟨⟩
        exact .inr ⟨i, hi, rfl, rfl⟩
      · rintro (hl | ⟨j, -, rfl, hj⟩)
        · exact absurd hl (by simp)
        · rw [slotAddress_inj hj]
    · rw [Cells.lent_lend_outside _ _ fun i hi he => hs ⟨i, hi, he⟩]
      constructor
      · exact .inl
      · rintro (hl | ⟨i, hi, -, he⟩)
        · exact hl
        · exact absurd ⟨i, hi, he⟩ hs
  serials := hserials
  begun := hbegun
  unattached := hunattached
  handles := h.handles
  earlier n k i hn := Nat.lt_of_lt_of_le (h.earlier n k i hn) hlater
  own := h.own

theorem entered (h : t.Sound) (id : FrameId) (function : Value) {args : Address} {argCount : Nat}
    (hfree : ∀ i < argCount, t.lent (slotAddress args i) = none) :
    ({ t with stack := t.stack.pushed id function args argCount }.lend t.stack.begun .argument
      args argCount).Sound := by
  refine h.lend t.orderly ?serials ?begun ?unattached (Nat.le_succ _)
    (t.stack.hasSlot_pushed id function args argCount) hfree
  case serials =>
    refine List.nodup_cons.mpr ⟨fun hm => ?_, h.serials⟩
    obtain ⟨a, ha, hs⟩ := List.mem_map.mp hm
    exact Nat.ne_of_lt (h.begun a ha) hs
  case begun =>
    intro a ha
    rcases List.mem_cons.mp ha with rfl | ha
    · exact Nat.lt_succ_self _
    · exact Nat.lt_succ_of_lt (h.begun a ha)
  case unattached =>
    intro a ha hat
    rcases List.mem_cons.mp ha with rfl | ha
    · rfl
    · exact h.unattached a ha hat

theorem attached (h : t.Sound) (hr : Represents recording m t.stack) {a : Activation}
    (ha : a ∈ t.stack.linked) (hat : a.attached = false) (o : Bool) {locals : Address}
    {count : Nat} (hfree : ∀ i < count, t.lent (slotAddress locals i) = none) :
    ({ t with
      stack := t.stack.update a.frame fun a => { a with locals, localCount := count, attached := true }
      orderly := o }.lend a.serial .localVar locals count).Sound := by
  refine h.lend o ?serials ?begun ?unattached (Nat.le_refl _)
    (hr.hasSlot_attached ha (h.unattached a ha hat) locals count) hfree
  case serials =>
    have hser : (t.stack.update a.frame fun a =>
        { a with locals, localCount := count, attached := true }).linked.map Activation.serial =
        t.stack.linked.map Activation.serial := by
      unfold CallStack.update
      rw [List.map_map]
      refine List.map_congr_left fun b _ => ?_
      by_cases hb : b.frame = a.frame <;> simp [hb]
    rw [hser]
    exact h.serials
  case begun =>
    intro b hb
    obtain ⟨c, hc, rfl⟩ := CallStack.mem_update.mp hb
    have hlt := h.begun c hc
    by_cases hca : c.frame = a.frame
    · rwa [if_pos hca]
    · rwa [if_neg hca]
  case unattached =>
    intro b hb hbt
    obtain ⟨c, hc, rfl⟩ := CallStack.mem_update.mp hb
    by_cases hca : c.frame = a.frame
    · rw [if_pos hca] at hbt
      exact absurd hbt (by simp)
    · rw [if_neg hca] at hbt ⊢
      exact h.unattached c hc hbt

theorem serial_ne (h : t.Sound) {a : Activation} {rest : List Activation}
    (hl : t.stack.linked = a :: rest) : ∀ b ∈ rest, b.serial ≠ a.serial := by
  have hserials := h.serials
  rw [hl, List.map_cons, List.nodup_cons] at hserials
  exact fun b hb he => hserials.1 (he ▸ List.mem_map_of_mem hb)

theorem left (h : t.Sound) {a : Activation} {rest : List Activation}
    (hl : t.stack.linked = a :: rest) :
    ({ t with stack := { t.stack with linked := rest } }.reclaim a.serial).Sound := by
  have hin : ∀ {b}, b ∈ rest → b ∈ t.stack.linked := fun hb => hl ▸ List.mem_cons_of_mem _ hb
  have hother := h.serial_ne hl
  constructor
  case lent_iff =>
    intro slot x
    show (t.lent slot).filter _ = _ ↔ _
    rw [Option.filter_eq_some_iff, h.lent_iff]
    constructor
    · rintro ⟨⟨b, hb, kind, i, hi⟩, hx⟩
      rcases List.mem_cons.mp (hl ▸ hb) with rfl | hb
      · rw [hi.denotes] at hx
        simp [Variable.isOf] at hx
      · exact ⟨b, hb, kind, i, hi⟩
    · rintro ⟨b, hb, kind, i, hi⟩
      refine ⟨⟨b, hin hb, kind, i, hi⟩, ?_⟩
      rw [hi.denotes]
      simpa [Variable.isOf] using hother b hb
  case serials =>
    have hserials := h.serials
    rw [hl, List.map_cons] at hserials
    exact hserials.tail
  case begun => exact fun b hb => h.begun b (hin hb)
  case unattached => exact fun b hb => h.unattached b (hin hb)
  case handles => exact h.handles
  case earlier => exact h.earlier
  case own => exact h.own

end Cells.Sound

namespace Coupled

/-! ## What it says at once -/

/-- A handle on a slot of a linked activation shares it. -/
theorem shares (h : Coupled m t) {a : Activation} (ha : a ∈ t.stack.linked) {n : Nat}
    {kind : SlotKind} {i : Nat} (hn : t.handles[n]? = some (.slot a.serial kind i)) :
    a.Shares m n kind i := by
  rcases h.placed n _ hn with ⟨b, hb, k, j, he, hs⟩ | ⟨hg, -⟩
  · obtain ⟨rfl, rfl, rfl⟩ := h.slot_inj ha hb he
    exact hs
  · exact absurd hg (CallStack.not_gone ha kind i)

/-- **A handle reads the cell of the variable it denotes.** -/
theorem captureValue (h : Coupled m t) {n : Nat} {x : Variable} (hn : t.handles[n]? = some x) :
    m.captureValue ⟨n⟩ = t.cell x := by
  unfold Machine.captureValue
  rcases h.placed n x hn with ⟨a, ha, kind, i, rfl, hs⟩ | ⟨-, hc⟩
  · rw [hs.cell]
    exact (h.memory _).trans (Cells.view_of_lent (h.lent_slot ha kind hs.inside))
  · rw [hc]

/-! ## What moves no variable -/

/-- A machine with the same memory and variables, whose frames list the same handles. -/
theorem congr (h : Coupled m t) (hm : m'.memory = m.memory) (hc : m'.captures = m.captures)
    (hf : m'.freshCapture = m.freshCapture)
    (hl : ∀ a ∈ t.stack.linked, (m'.frames.get a.frame).captured = (m.frames.get a.frame).captured) :
    Coupled m' t where
  toSound := h.toSound
  memory slot := by rw [hm]; exact h.memory slot
  handedOut := hf.trans h.handedOut
  placed n x hn := by
    rw [hc]
    rcases h.placed n x hn with ⟨a, ha, kind, i, hx, hs⟩ | hg
    · exact .inl ⟨a, ha, kind, i, hx, hs.inside, hc ▸ hs.cell, (hl a ha).symm ▸ hs.listed⟩
    · exact .inr hg

theorem noted (h : Coupled m t) (line : String) : Coupled (m.noted line) t :=
  h.congr rfl rfl rfl fun _ _ => rfl

/-- A change of linked activations that concerns neither their numbers nor their slots. -/
theorem restack (h : Coupled m t) (s' : CallStack) (g : Activation → Activation)
    (hs : s'.linked = t.stack.linked.map g) (hb : s'.begun = t.stack.begun)
    (hg : ∀ a, (g a).serial = a.serial ∧ (g a).frame = a.frame ∧ (g a).attached = a.attached ∧
      (g a).base = a.base ∧ (g a).count = a.count) : Coupled m { t with stack := s' } where
  toSound := h.toSound.restack s' g hs hb hg
  memory := h.memory
  handedOut := h.handedOut
  placed n x hn := by
    rcases h.placed n x hn with ⟨a, ha, kind, i, hx, hsh⟩ | ⟨hgone, hc⟩
    · obtain ⟨hser, hfr, -, hbase, hcount⟩ := hg a
      refine .inl ⟨g a, hs ▸ List.mem_map_of_mem ha, kind, i, hser.symm ▸ hx, ?_, ?_, ?_⟩
      · rw [hcount]; exact hsh.inside
      · rw [hbase]; exact hsh.cell
      · rw [hfr]; exact hsh.listed
    · refine .inr ⟨fun b hb' => ?_, hc⟩
      obtain ⟨a, ha, rfl⟩ := List.mem_map.mp (hs ▸ hb')
      rw [(hg a).1]
      exact hgone a ha

/-! ## Writing -/

/-- Writing a slot that is lent writes the cell of its variable. -/
theorem written (h : Coupled m t) {slot : Address} {x : Variable} (hx : t.lent slot = some x)
    (v : Value) : Coupled (m.written slot v) (t.setCell x v) where
  toSound := h.toSound.of_eq rfl rfl rfl
  memory q := by
    show (m.memory.set slot v).get q = _
    rw [Store.get_set]
    by_cases hq : q = slot
    · rw [if_pos hq, hq]
      exact ((Cells.view_of_lent (t := t.setCell x v) hx).trans (t.setCell_self x v)).symm
    · rw [if_neg hq, h.memory, Cells.view_setCell fun hy => hq (h.lent_inj hy hx)]
  handedOut := h.handedOut
  placed n y hn := by
    rcases h.placed n y hn with ⟨a, ha, kind, i, hya, hs⟩ | ⟨hgone, hc⟩
    · exact .inl ⟨a, ha, kind, i, hya, hs.inside, hs.cell, hs.listed⟩
    · have hne : y ≠ x := fun he => ((h.lent_iff slot x).mp hx).not_gone (he ▸ hgone)
      exact .inr ⟨hgone, hc.trans (by rw [Cells.setCell_ne hne])⟩

/-- Writing a slot that is not lent changes no variable. -/
theorem spilled (h : Coupled m t) {slot : Address} (hx : t.lent slot = none) (v : Value) :
    Coupled (m.written slot v) (t.spill slot v) where
  toSound := h.toSound.of_eq rfl rfl rfl
  memory q := by
    show (m.memory.set slot v).get q = _
    rw [Store.get_set, h.memory]
    cases hq : t.lent q with
    | none =>
      rw [Cells.view_of_loose hq]
      exact (Cells.view_of_loose (t := t.spill slot v) hq).symm
    | some y =>
      have hne : q ≠ slot := fun he => absurd ((he ▸ hq).symm.trans hx) (by simp)
      rw [if_neg hne, Cells.view_of_lent hq]
      exact (Cells.view_of_lent (t := t.spill slot v) hq).symm
  handedOut := h.handedOut
  placed n y hn := by
    rcases h.placed n y hn with ⟨a, ha, kind, i, hya, hs⟩ | hgone
    · exact .inl ⟨a, ha, kind, i, hya, hs.inside, hs.cell, hs.listed⟩
    · exact .inr hgone

/-- Writing a slot of a buffer, lent or not. -/
theorem poked (h : Coupled m t) (slot : Address) (v : Value) :
    Coupled (m.written slot v) (t.poke slot v) := by
  unfold Cells.poke
  cases hx : t.lent slot with
  | some x => exact h.written hx v
  | none => exact h.spilled hx v

/-- Writing through a handle, whether its variable still shares a slot or not. -/
theorem setHandle (h : Coupled m t) (hr : Represents recording m t.stack) (c : Capture) (v : Value) :
    Coupled (m.setCapture c v) (t.setHandle c v) := by
  unfold Cells.setHandle Machine.setCapture
  cases hx : t.handles[c.id]? with
  | none =>
    -- The handle was not handed out: it owns a value that nothing reads.
    have hlt : t.handles.length ≤ c.id := List.getElem?_eq_none_iff.mp hx
    have hs := hr.sharedSlot?_fresh (h.handedOut ▸ hlt)
    unfold Machine.sharedSlot? at hs
    cases hc : m.captures.get c.id with
    | shared slot i k => rw [hc] at hs; exact absurd hs (by simp)
    | owned w =>
      refine ⟨h.toSound, h.memory, h.handedOut, fun n x hn => ?_⟩
      have hne : n ≠ c.id := fun he => absurd ((he ▸ hn).symm.trans hx) (by simp)
      rcases h.placed n x hn with ⟨a, ha, kind, i, hxa, hsh⟩ | ⟨hgone, ho⟩
      · exact .inl ⟨a, ha, kind, i, hxa, hsh.inside, (Store.get_set_ne _ _ hne).trans hsh.cell,
          hsh.listed⟩
      · exact .inr ⟨hgone, (Store.get_set_ne _ _ hne).trans ho⟩
  | some x =>
    rcases h.placed _ x hx with ⟨a, ha, kind, i, rfl, hsh⟩ | ⟨hgone, ho⟩
    · rw [hsh.cell]
      exact h.written (h.lent_slot ha kind hsh.inside) v
    · rw [ho]
      have hlent : ∀ q, t.lent q ≠ some x := fun q hq => ((h.lent_iff q x).mp hq).not_gone hgone
      refine ⟨h.toSound.of_eq rfl rfl rfl, fun q => ?_, h.handedOut, fun n y hn => ?_⟩
      · rw [Cells.view_setCell (hlent q)]
        exact h.memory q
      · by_cases hnc : n = c.id
        · obtain rfl : y = x := Option.some.inj ((hnc ▸ hn).symm.trans hx)
          refine .inr ⟨hgone, ?_⟩
          rw [hnc, t.setCell_self]
          exact Store.get_set_self ..
        · have hne : y ≠ x := fun he => hnc (h.handle_inj (he ▸ hn) hx)
          rcases h.placed n y hn with ⟨a, ha, kind, i, hya, hsh⟩ | ⟨hgone', ho'⟩
          · exact .inl ⟨a, ha, kind, i, hya, hsh.inside, (Store.get_set_ne _ _ hnc).trans hsh.cell,
              hsh.listed⟩
          · refine .inr ⟨hgone', ?_⟩
            rw [Cells.setCell_ne hne]
            exact (Store.get_set_ne _ _ hnc).trans ho'

/-! ## New handles -/

/-- A variable that is neither lent a slot nor denoted by a handle may hold anything. -/
theorem unused (h : Coupled m t) {x : Variable} (hlent : ∀ slot, t.lent slot ≠ some x)
    (hx : x ∉ t.handles) (v : Value) : Coupled m (t.setCell x v) where
  toSound := h.toSound.of_eq rfl rfl rfl
  memory q := by
    rw [h.memory, Cells.view_setCell (hlent q)]
  handedOut := h.handedOut
  placed n y hn := by
    have hne : y ≠ x := fun he => hx (he ▸ List.mem_of_getElem? hn)
    rw [Cells.setCell_ne hne]
    exact h.placed n y hn

/-- One more handle, on a variable that no handle denoted. -/
theorem handed (h : Coupled m t) {x : Variable} (hx : x ∉ t.handles)
    (hearlier : ∀ n kind i, x = .slot n kind i → n < t.stack.begun)
    (hown : ∀ n, x = .own n → n = t.handles.length) (hm : m'.memory = m.memory)
    (hfresh : m'.freshCapture = m.freshCapture + 1)
    (hold : ∀ n < m.freshCapture, m'.captures.get n = m.captures.get n)
    (hlisted : ∀ a ∈ t.stack.linked, ∀ c ∈ (m.frames.get a.frame).captured,
      c ∈ (m'.frames.get a.frame).captured)
    (hplaced : (∃ a ∈ t.stack.linked, ∃ kind i, x = .slot a.serial kind i ∧
        a.Shares m' m.freshCapture kind i) ∨
      (t.stack.Gone x ∧ m'.captures.get m.freshCapture = .owned (t.cell x))) :
    Coupled m' { t with handles := t.handles ++ [x] } where
  toSound := h.toSound.handed hx hearlier hown
  memory slot := by rw [hm]; exact h.memory slot
  handedOut := by
    show m'.freshCapture = (t.handles ++ [x]).length
    rw [hfresh, h.handedOut, List.length_append]
    rfl
  placed n y hn := by
    have hn : (t.handles ++ [x])[n]? = some y := hn
    by_cases hlt : n < t.handles.length
    · rw [List.getElem?_append_left hlt] at hn
      have hc := hold n (h.handedOut ▸ hlt)
      rcases h.placed n y hn with ⟨a, ha, kind, i, hya, hs⟩ | ⟨hgone, ho⟩
      · exact .inl ⟨a, ha, kind, i, hya, hs.inside, hc.trans hs.cell, hlisted a ha _ hs.listed⟩
      · exact .inr ⟨hgone, hc.trans ho⟩
    · rw [List.getElem?_append_right (Nat.le_of_not_lt hlt), List.getElem?_singleton] at hn
      split at hn
      · have hnl : n = m.freshCapture := by rw [h.handedOut]; omega
        obtain rfl := Option.some.inj hn
        rw [hnl]
        exact hplaced
      · exact absurd hn (by simp)

/-- A variable outside of frames. -/
theorem newVariable (h : Coupled m t) (v : Value) :
    Coupled (m.addedCapture (.owned v)) (t.newVariable v) := by
  have hx : Variable.own t.handles.length ∉ t.handles := fun hx =>
    Nat.lt_irrefl _ (h.own _ hx)
  have hlent : ∀ slot, t.lent slot ≠ some (.own t.handles.length) := fun slot hl => by
    obtain ⟨a, ha, kind, i, hi⟩ := (h.lent_iff slot _).mp hl
    exact absurd hi.denotes (by simp)
  refine (h.unused hlent hx v).handed hx (by simp) (fun n he => ?_) rfl rfl
    (fun n hn => Store.get_set_ne _ _ (Nat.ne_of_lt hn)) (fun _ _ _ hc => hc)
    (.inr ⟨fun _ _ => rfl, ?_⟩)
  · exact (Variable.own.inj he).symm
  · rw [t.setCell_self]
    exact Store.get_set_self ..

/-- No handle denotes a slot of a linked activation that was not captured. -/
theorem not_handed (h : Coupled m t) (hr : Represents recording m t.stack) {a : Activation}
    (ha : a ∈ t.stack.linked) {index : Nat} {kind : SlotKind} (hc : (index, kind) ∉ a.captured) :
    .slot a.serial kind index ∉ t.handles := by
  intro hx
  obtain ⟨n, hn⟩ := List.getElem?_of_mem hx
  have hs := h.shares ha hn
  have hnone := (hr.captured?_eq_none_iff ha index kind).mpr hc
  rw [Chain.captured?, List.find?_eq_none] at hnone
  refine hnone _ hs.listed ((m.sharesSlot_iff index kind _).mpr ?_)
  simp only [sharedSlot?, hs.cell]

/-- A new handle on a slot of a linked activation. -/
theorem captured (h : Coupled m t) (hr : Represents recording m t.stack) {a : Activation}
    (ha : a ∈ t.stack.linked) {index : Nat} {kind : SlotKind} (hc : (index, kind) ∉ a.captured)
    (hi : index < a.count kind) :
    Coupled
      ((m.addedCapture (.shared (slotAddress (a.base kind) index) index kind)).putFrame a.frame
        { m.frames.get a.frame with
          captured := (m.frames.get a.frame).captured ++ [⟨m.freshCapture⟩] })
      { t with
        stack := t.stack.update a.frame fun a => { a with captured := a.captured ++ [(index, kind)] }
        handles := t.handles ++ [.slot a.serial kind index] } := by
  have hg : Coupled m { t with
      stack := t.stack.update a.frame fun a => { a with captured := a.captured ++ [(index, kind)] } } :=
    h.restack _ _ rfl rfl fun b => by
      split <;> exact ⟨rfl, rfl, rfl, rfl, rfl⟩
  have hself : { a with captured := a.captured ++ [(index, kind)] } ∈
      (t.stack.update a.frame fun a => { a with captured := a.captured ++ [(index, kind)] }).linked :=
    CallStack.mem_update.mpr ⟨a, ha, if_pos rfl⟩
  refine hg.handed (h.not_handed hr ha hc) ?_ (by simp) rfl rfl
    (fun n hn => Store.get_set_ne _ _ (Nat.ne_of_lt hn)) (fun b _ c hcb => ?_)
    (.inl ⟨_, hself, kind, index, rfl, ?_, ?_, ?_⟩)
  · rintro n k i ⟨⟩
    exact h.begun a ha
  · by_cases hba : b.frame = a.frame
    · rw [hba] at hcb ⊢
      simp only [putFrame, Store.get_set_self]
      exact List.mem_append_left _ hcb
    · simp only [putFrame, Store.get_set_ne _ _ hba]
      exact hcb
  · cases kind <;> exact hi
  · cases kind <;> exact Store.get_set_self ..
  · simp [putFrame]

/-! ## Lending and giving back -/

/-- Lending a buffer to slots that no activation had. -/
theorem lend (h : Coupled m t) {serial : Nat} {kind : SlotKind} {base : Address} {count : Nat}
    (o : Bool) (hm : m'.memory = m.memory) (hc : m'.captures = m.captures)
    (hf : m'.freshCapture = m.freshCapture)
    (hsound : ({ t with stack := s', orderly := o }.lend serial kind base count).Sound)
    (hnew : ∀ i < count, ∀ slot, ¬ t.stack.HasSlot (.slot serial kind i) slot)
    (hunheld : ∀ i < count, .slot serial kind i ∉ t.handles)
    (hshares : ∀ a ∈ t.stack.linked, ∀ n k i, a.Shares m n k i →
      ∃ b ∈ s'.linked, b.serial = a.serial ∧ b.Shares m' n k i)
    (hgone : ∀ x ∈ t.handles, t.stack.Gone x → s'.Gone x) :
    Coupled m' ({ t with stack := s', orderly := o }.lend serial kind base count) where
  toSound := hsound
  memory slot := by
    have hnot : ∀ slot, ∀ i < count, t.lent slot ≠ some (.slot serial kind i) := fun slot i hi hl =>
      hnew i hi slot ((h.lent_iff _ _).mp hl)
    rw [hm, h.memory]
    exact (Cells.view_lend (t := { t with stack := s', orderly := o }) hnot slot).symm
  handedOut := hf.trans h.handedOut
  placed n x hn := by
    have hx : x ∈ t.handles := List.mem_of_getElem? hn
    rw [Cells.cell_lend_outside _ fun i hi he => hunheld i hi (he ▸ hx)]
    rcases h.placed n x hn with ⟨a, ha, k, i, hxa, hs⟩ | ⟨hg, ho⟩
    · obtain ⟨b, hb, hser, hsb⟩ := hshares a ha n k i hs
      exact .inl ⟨b, hb, k, i, hser.symm ▸ hxa, hsb⟩
    · exact .inr ⟨hgone x hx hg, hc ▸ ho⟩

theorem entered (h : Coupled m t) {id : FrameId} (hid : id ∉ t.stack.frames) (function : Value)
    {args : Address} {argCount : Nat} (hfree : ∀ i < argCount, t.lent (slotAddress args i) = none) :
    Coupled (m.entered id function args argCount)
      ({ t with stack := t.stack.pushed id function args argCount }.lend t.stack.begun .argument
        args argCount) := by
  refine h.lend t.orderly rfl rfl rfl (h.toSound.entered id function hfree) ?new ?unheld ?shares
    ?gone
  case new =>
    rintro i - slot ⟨a, ha, kind, j, hj⟩
    have he := hj.denotes
    simp only [Variable.slot.injEq] at he
    exact Nat.ne_of_lt (h.begun a ha) he.1.symm
  case unheld => exact fun i _ hx => Nat.lt_irrefl _ (h.earlier _ _ _ hx)
  case shares =>
    intro a ha n k i hs
    refine ⟨a, List.mem_cons_of_mem _ ha, rfl, hs.inside, hs.cell, ?_⟩
    have hne : a.frame ≠ id := fun he => hid (CallStack.mem_frames.mpr ⟨a, ha, he⟩)
    rw [show (m.entered id function args argCount).frames.get a.frame = m.frames.get a.frame from
      Store.get_set_ne _ _ hne]
    exact hs.listed
  case gone =>
    intro x hx hg a ha
    rcases List.mem_cons.mp ha with rfl | ha
    · cases x with
      | own n => rfl
      | slot n k i =>
        have hne : n ≠ t.stack.begun := Nat.ne_of_lt (h.earlier n k i hx)
        simp [Variable.isOf, hne]
    · exact hg a ha

theorem attached (h : Coupled m t) (hr : Represents recording m t.stack) {a : Activation}
    (ha : a ∈ t.stack.linked) (hat : a.attached = false) (o : Bool) {locals : Address}
    {count : Nat} (hfree : ∀ i < count, t.lent (slotAddress locals i) = none) :
    Coupled (m.putFrame a.frame { m.frames.get a.frame with locals, localCount := count })
      ({ t with
        stack := t.stack.update a.frame fun a =>
          { a with locals, localCount := count, attached := true }
        orderly := o }.lend a.serial .localVar locals count) := by
  -- Having no locals so far, it has no variable among them that a handle could denote.
  have hz := h.unattached a ha hat
  have hnone : ∀ i, ¬ i < a.count .localVar := fun i hi => by simp [Activation.count, hz] at hi
  refine h.lend o rfl rfl rfl (h.toSound.attached hr ha hat o hfree) ?new ?unheld ?shares ?gone
  case new =>
    rintro i - slot ⟨b, hb, kind, j, hj⟩
    obtain ⟨rfl, rfl, rfl⟩ := h.slot_inj ha hb hj.denotes
    exact hnone j hj.inside
  case unheld =>
    intro i _ hx
    obtain ⟨n, hn⟩ := List.getElem?_of_mem hx
    exact hnone i (h.shares ha hn).inside
  case shares =>
    intro b hb n k i hs
    by_cases hba : b.frame = a.frame
    · obtain rfl := hr.eq_of_frame ha hb hba
      cases k with
      | localVar => exact absurd hs.inside (hnone i)
      | argument =>
        refine ⟨_, CallStack.mem_update.mpr ⟨b, hb, if_pos rfl⟩, rfl, hs.inside, hs.cell, ?_⟩
        simp only [putFrame, Store.get_set_self]
        exact hs.listed
    · refine ⟨b, CallStack.mem_update.mpr ⟨b, hb, if_neg hba⟩, rfl, hs.inside, hs.cell, ?_⟩
      simp only [putFrame, Store.get_set_ne _ _ hba]
      exact hs.listed
  case gone =>
    intro x _ hg b hb
    obtain ⟨c, hc, rfl⟩ := CallStack.mem_update.mp hb
    have hgc := hg c hc
    by_cases hca : c.frame = a.frame
    · rwa [if_pos hca]
    · rwa [if_neg hca]

/-- Leaving the innermost frame gives its slots back, and fixes its handles at their values. -/
theorem left (h : Coupled m t) (hr : Represents recording m t.stack) {a : Activation}
    {rest : List Activation} (hl : t.stack.linked = a :: rest) :
    Coupled (m.left a.frame)
      ({ t with stack := { t.stack with linked := rest } }.reclaim a.serial) := by
  have hin : ∀ {b}, b ∈ rest → b ∈ t.stack.linked := fun hb => hl ▸ List.mem_cons_of_mem _ hb
  have hself : a ∈ t.stack.linked := hl ▸ List.mem_cons_self
  have hother := h.serial_ne hl
  constructor
  case toSound => exact h.toSound.left hl
  case memory =>
    intro slot
    rw [memory_left, h.memory]
    exact (Cells.view_reclaim { t with stack := { t.stack with linked := rest } } _ _).symm
  case handedOut => exact (freshCapture_left m a.frame).trans h.handedOut
  case placed =>
    intro n x hn
    -- What the frame lists is detached with its value, which is that of its cell.
    have hfixed : (⟨n⟩ : Capture) ∈ (m.frames.get a.frame).captured →
        (m.left a.frame).captures.get n = .owned (t.cell x) := fun hc => by
      rw [captures_left, if_pos hc, h.captureValue hn]
    rcases h.placed n x hn with ⟨b, hb, kind, i, hx, hs⟩ | ⟨hg, ho⟩
    · rcases List.mem_cons.mp (hl ▸ hb) with rfl | hb
      · refine .inr ⟨fun c hc => ?_, hfixed hs.listed⟩
        rw [hx]
        simpa [Variable.isOf] using (hother c hc).symm
      · -- What another frame lists, the frame that is left does not.
        have hne : b.frame ≠ a.frame := fun he => by
          obtain rfl := hr.eq_of_frame hself (hin hb) he
          exact hother _ hb rfl
        have hc : (⟨n⟩ : Capture) ∉ (m.frames.get a.frame).captured := fun hc =>
          hne (hr.apart _ (CallStack.mem_frames.mpr ⟨b, hin hb, rfl⟩) _
            (CallStack.mem_frames.mpr ⟨a, hself, rfl⟩) _ hs.listed hc)
        refine .inl ⟨b, hb, kind, i, hx, hs.inside, ?_, ?_⟩
        · rw [captures_left, if_neg hc, hs.cell]
        · rw [frames_left, Store.get_set_ne _ _ hne]
          exact hs.listed
    · refine .inr ⟨fun c hc => hg c (hin hc), ?_⟩
      by_cases hc : (⟨n⟩ : Capture) ∈ (m.frames.get a.frame).captured
      · exact hfixed hc
      · rw [captures_left, if_neg hc]
        exact ho

end Coupled

end TieredVm
