import Mathlib.Data.List.Basic
import TieredVm.Bytecode.Basic

/-!
# Line lookup

The entry that covers an offset is the last one that starts at or before it, which `LineTable.scan`
finds by looking at every entry. In a table whose entries are in the order of their offsets, those that
start at or before an offset come first, and halving finds where they end (`startedBefore_parts`).

* `Added.ordered`: a table to which entries are added in the order of their offsets is in that order.
* `find?_eq_scan`: the lookup is the scan.
* `Locates`: what any search may answer. When several entries start at an offset it may hit any of them,
  and when none does it misses at the place where one could be added. `search_locates`: halving is such
  a search.
* `lookup_is_scan`: whatever such a search answers, the entry it comes to is what the scan finds, unless
  several entries start at the offset, and the table has an entry at every index that is used.
-/

namespace TieredVm.LineTable

/-- The entries are in the order of their offsets. Several may share one. -/
def Ordered (t : LineTable) : Prop := t.entries.toList.Pairwise fun a b => a.pc ≤ b.pc

/-- The table was made by adding entries, none of which starts before the one added last. -/
inductive Added : LineTable → Prop where
  | empty : Added {}
  | add {t : LineTable} (added : Added t) (e : LineEntry)
    (late : ∀ last, t.entries.back? = some last → last.pc ≤ e.pc) : Added (t.add e)

/-- The last of the entries that start at or before an offset. -/
def scan (t : LineTable) (pc : Nat) : Option LineEntry :=
  (t.entries.toList.filter fun e => e.pc ≤ pc).getLast?

theorem isSome_scan (t : LineTable) (pc : Nat) :
    (t.scan pc).isSome ↔ ∃ e ∈ t.entries, e.pc ≤ pc := by
  simp [scan]

variable {t : LineTable} {pc : Nat}

/-! ## Order -/

theorem Ordered.pc_le (h : t.Ordered) {i j : Nat} {a b : LineEntry} (hij : i ≤ j)
    (ha : t.entries[i]? = some a) (hb : t.entries[j]? = some b) : a.pc ≤ b.pc := by
  rcases Nat.eq_or_lt_of_le hij with rfl | hij
  · rw [ha] at hb
    exact Nat.le_of_eq (congrArg LineEntry.pc (Option.some.inj hb))
  · rw [← Array.getElem?_toList] at ha hb
    obtain ⟨hi, rfl⟩ := List.getElem?_eq_some_iff.mp ha
    obtain ⟨hj, rfl⟩ := List.getElem?_eq_some_iff.mp hb
    exact List.pairwise_iff_getElem.mp h i j hi hj hij

/-- An entry that does not start before the last one keeps the order. -/
theorem Ordered.add (h : t.Ordered) {e : LineEntry}
    (late : ∀ last, t.entries.back? = some last → last.pc ≤ e.pc) : (t.add e).Ordered := by
  show (t.entries.push e).toList.Pairwise _
  rw [Array.toList_push]
  refine List.pairwise_append.mpr ⟨h, List.pairwise_singleton _ _, fun a ha b hb => ?_⟩
  obtain rfl := List.mem_singleton.mp hb
  -- No entry starts after the last one.
  obtain ⟨i, hi⟩ := List.mem_iff_getElem?.mp ha
  rw [Array.getElem?_toList] at hi
  have hsize : i < t.entries.size := (Array.getElem?_eq_some_iff.mp hi).1
  have hback : t.entries.back? = some t.entries[t.entries.size - 1] := by
    rw [Array.back?_eq_getElem?, Array.getElem?_eq_getElem]
  refine Nat.le_trans (h.pc_le (Nat.le_sub_one_of_lt hsize) hi ?_) (late _ hback)
  rw [Array.getElem?_eq_getElem]

/-- **Adding in order makes an ordered table.** -/
theorem Added.ordered (h : t.Added) : t.Ordered := by
  induction h with
  | empty => exact List.Pairwise.nil
  | add _ e late ih => exact ih.add late

/-! ## Halving -/

/-- All entries below an index start at or before an offset. -/
def StartBefore (t : LineTable) (pc lo : Nat) : Prop :=
  ∀ i e, i < lo → t.entries[i]? = some e → e.pc ≤ pc

/-- No entry from an index on does. -/
def StartAfter (t : LineTable) (pc hi : Nat) : Prop :=
  ∀ i e, hi ≤ i → t.entries[i]? = some e → pc < e.pc

/-- **Halving finds where the entries that start at or before an offset end.** -/
theorem startedBefore_parts (h : t.Ordered) {lo hi : Nat} (hle : lo ≤ hi)
    (hsize : hi ≤ t.entries.size) (hlo : t.StartBefore pc lo) (hhi : t.StartAfter pc hi) :
    t.startedBefore pc lo hi hsize ≤ t.entries.size ∧
      t.StartBefore pc (t.startedBefore pc lo hi hsize) ∧
      t.StartAfter pc (t.startedBefore pc lo hi hsize) := by
  fun_induction startedBefore t pc lo hi hsize with
  | case1 lo hi hsize hlt mid hmid hpc ih =>
    refine ih (by omega) (fun i a hi ha => ?_) hhi
    exact Nat.le_trans (h.pc_le (Nat.le_of_lt_succ hi) ha (Array.getElem?_eq_getElem hmid)) hpc
  | case2 lo hi hsize hlt mid hmid hpc ih =>
    refine ih (by omega) hlo fun i a hi ha => ?_
    exact Nat.lt_of_lt_of_le (Nat.lt_of_not_le hpc) (h.pc_le hi (Array.getElem?_eq_getElem hmid) ha)
  | case3 lo hi hsize hlt =>
    obtain rfl : lo = hi := by omega
    exact ⟨hsize, hlo, hhi⟩

/-- Where they end in the whole table. -/
theorem startedBefore_all (h : t.Ordered) (pc : Nat) {r : Nat}
    (hr : t.startedBefore pc 0 t.entries.size (Nat.le_refl _) = r) :
    r ≤ t.entries.size ∧ t.StartBefore pc r ∧ t.StartAfter pc r := by
  subst hr
  refine startedBefore_parts h (Nat.zero_le _) (Nat.le_refl _)
    (fun _ _ hi => absurd hi (Nat.not_lt_zero _)) fun i e hi he => ?_
  rw [Array.getElem?_eq_none hi] at he
  cases he

/-- What is found is the last entry of those that come first. -/
theorem scan_eq_of_parts {r : Nat} (hlo : t.StartBefore pc r) (hhi : t.StartAfter pc r) :
    t.scan pc = (t.entries.toList.take r).getLast? := by
  have htake : (t.entries.toList.take r).filter (fun e => e.pc ≤ pc) = t.entries.toList.take r := by
    refine List.filter_eq_self.mpr fun e he => ?_
    obtain ⟨i, hi, rfl⟩ := List.mem_take_iff_getElem.mp he
    have hir := Nat.lt_of_lt_of_le hi (Nat.min_le_left ..)
    refine decide_eq_true (hlo i _ hir ?_)
    rw [← Array.getElem?_toList, List.getElem?_eq_getElem]
  have hdrop : (t.entries.toList.drop r).filter (fun e => e.pc ≤ pc) = [] := by
    refine List.filter_eq_nil_iff.mpr fun e he => ?_
    obtain ⟨i, hi⟩ := List.mem_iff_getElem?.mp he
    rw [List.getElem?_drop, Array.getElem?_toList] at hi
    simpa using hhi (r + i) e (Nat.le_add_right r i) hi
  rw [scan, ← List.take_append_drop r t.entries.toList, List.filter_append, htake, hdrop,
    List.append_nil, List.take_append_drop]

/-- Nothing starts at or before the offset. -/
theorem scan_eq_none_of_parts (hhi : t.StartAfter pc 0) : t.scan pc = none := by
  rw [scan_eq_of_parts (fun _ _ hi => absurd hi (Nat.not_lt_zero _)) hhi, List.take_zero]
  rfl

/-- The last of those that come first has the index before their end. -/
theorem scan_eq_getElem?_of_parts {n : Nat} (hn : n < t.entries.size)
    (hlo : t.StartBefore pc (n + 1)) (hhi : t.StartAfter pc (n + 1)) :
    t.scan pc = t.entries[n]? := by
  have hlength : n < t.entries.toList.length := hn
  rw [scan_eq_of_parts hlo hhi, List.getLast?_take, if_neg (Nat.succ_ne_zero n), Nat.succ_sub_one,
    List.getElem?_eq_getElem hlength, Option.some_or, ← List.getElem?_eq_getElem hlength,
    Array.getElem?_toList]

/-- **Halving finds what the scan finds.** -/
theorem find?_eq_scan (h : t.Ordered) (pc : Nat) : t.find? pc = t.scan pc := by
  rw [find?, search]
  split
  · rename_i hr
    obtain ⟨-, -, hhi⟩ := startedBefore_all h pc hr
    rw [scan_eq_none_of_parts hhi]
    rfl
  · rename_i n hr
    obtain ⟨hn, hlo, hhi⟩ := startedBefore_all h pc hr
    rw [scan_eq_getElem?_of_parts hn hlo hhi]
    split <;> rfl

/-! ## Searches -/

/-- What a search for an offset may answer, however it goes about it. -/
inductive Locates (t : LineTable) (pc : Nat) : Place → Prop where
  | hit {i : Nat} {e : LineEntry} (entry : t.entries[i]? = some e) (starts : e.pc = pc) :
    Locates t pc (.hit i)
  | miss {i : Nat} (absent : ∀ e ∈ t.entries, e.pc ≠ pc) (room : i ≤ t.entries.size)
    (before : ∀ j e, j < i → t.entries[j]? = some e → e.pc ≤ pc)
    (after : ∀ j e, i ≤ j → t.entries[j]? = some e → pc ≤ e.pc) : Locates t pc (.miss i)

/-- At most one entry starts at the offset. -/
def Unshared (t : LineTable) (pc : Nat) : Prop :=
  ∀ (i j : Nat) (a b : LineEntry), t.entries[i]? = some a → t.entries[j]? = some b →
    a.pc = pc → b.pc = pc → i = j

/-- The index at which `entryAt?` looks, if it looks at all. -/
def Place.index? : Place → Option Nat
  | .hit i => some i
  | .miss 0 => none
  | .miss (i + 1) => some i

/-- **Halving is a search.** -/
theorem search_locates (h : t.Ordered) (pc : Nat) : t.Locates pc (t.search pc) := by
  rw [search]
  split
  · rename_i hr
    obtain ⟨-, -, hhi⟩ := startedBefore_all h pc hr
    refine .miss (fun e he hpc => ?_) (Nat.zero_le _) (fun _ _ hj => absurd hj (Nat.not_lt_zero _))
      fun j e hj he => Nat.le_of_lt (hhi j e hj he)
    obtain ⟨i, hi⟩ := Array.mem_iff_getElem?.mp he
    exact absurd (hhi i e (Nat.zero_le _) hi) (Nat.not_lt_of_le (Nat.le_of_eq hpc))
  · rename_i n hr
    obtain ⟨hn, hlo, hhi⟩ := startedBefore_all h pc hr
    have hentry : t.entries[n]? = some t.entries[n] := Array.getElem?_eq_getElem hn
    split
    · rename_i hpc
      rw [hentry] at hpc
      exact .hit hentry (Option.some.inj hpc)
    · rename_i hpc
      refine .miss (fun e he hstarts => hpc ?_) hn hlo fun j e hj he => Nat.le_of_lt (hhi j e hj he)
      -- An entry that starts at the offset is among those that come first, so the last of them does.
      obtain ⟨i, hi⟩ := Array.mem_iff_getElem?.mp he
      have hin : i ≤ n := Nat.le_of_not_lt fun hlt =>
        absurd (hhi i e hlt hi) (Nat.not_lt_of_le (Nat.le_of_eq hstarts))
      have hfrom := h.pc_le hin hi hentry
      rw [hstarts] at hfrom
      rw [hentry, Option.map_some, Nat.le_antisymm (hlo n _ (Nat.lt_succ_self n) hentry) hfrom]

namespace Locates

variable {p : Place}

/-- The table has an entry wherever a search makes the lookup look. -/
theorem index_lt (h : t.Locates pc p) {i : Nat} (hi : p.index? = some i) : i < t.entries.size := by
  cases h with
  | hit entry _ =>
    obtain rfl := Option.some.inj hi
    exact (Array.getElem?_eq_some_iff.mp entry).1
  | @miss k absent room _ _ =>
    cases k with
    | zero => cases hi
    | succ k =>
      obtain rfl := Option.some.inj hi
      exact room

/-- **Every search comes to what the scan finds.** -/
theorem entryAt?_eq_scan (ho : t.Ordered) (hpc : t.Unshared pc) (h : t.Locates pc p) :
    t.entryAt? p = t.scan pc := by
  cases h with
  | @hit i e entry starts =>
    refine (scan_eq_getElem?_of_parts (Array.getElem?_eq_some_iff.mp entry).1 ?_ ?_).symm
    · exact fun j a hj ha => starts ▸ ho.pc_le (Nat.le_of_lt_succ hj) ha entry
    · intro j a hj ha
      have hle : pc ≤ a.pc := starts ▸ ho.pc_le (Nat.le_of_succ_le hj) entry ha
      -- No other entry starts where the one that was hit does.
      exact Nat.lt_of_le_of_ne hle fun heq =>
        absurd (hpc i j e a entry ha starts heq.symm) (Nat.ne_of_lt hj)
  | @miss i absent room before after =>
    have hafter : t.StartAfter pc i := fun j a hj ha =>
      Nat.lt_of_le_of_ne (after j a hj ha) (absent a (Array.mem_of_getElem? ha)).symm
    cases i with
    | zero => exact (scan_eq_none_of_parts hafter).symm
    | succ i => exact (scan_eq_getElem?_of_parts room before hafter).symm

end Locates

/-! ## Lookup -/

/-- The scan finds the entry after which none starts at or before the offset. -/
theorem scan_eq_some_iff (ho : t.Ordered) {e : LineEntry} : t.scan pc = some e ↔
    ∃ i, t.entries[i]? = some e ∧ e.pc ≤ pc ∧
      ∀ (j : Nat) (a : LineEntry), i < j → t.entries[j]? = some a → pc < a.pc := by
  constructor
  · intro h
    obtain ⟨r, hr⟩ : ∃ r, t.startedBefore pc 0 t.entries.size (Nat.le_refl _) = r := ⟨_, rfl⟩
    obtain ⟨hsize, hlo, hhi⟩ := startedBefore_all ho pc hr
    cases r with
    | zero => rw [scan_eq_none_of_parts hhi] at h; cases h
    | succ n =>
      rw [scan_eq_getElem?_of_parts hsize hlo hhi] at h
      exact ⟨n, h, hlo n e (Nat.lt_succ_self n) h, fun j a hj => hhi j a hj⟩
  · rintro ⟨i, hi, hpc, hafter⟩
    rw [scan_eq_getElem?_of_parts (Array.getElem?_eq_some_iff.mp hi).1 ?_ fun j a hj => hafter j a hj,
      hi]
    exact fun j a hj ha => Nat.le_trans (ho.pc_le (Nat.le_of_lt_succ hj) ha hi) hpc

/-- Nothing is found exactly when the first entry, if there is one, starts after the offset. -/
theorem scan_eq_none_iff (ho : t.Ordered) :
    t.scan pc = none ↔ ∀ first, t.entries[0]? = some first → pc < first.pc := by
  rw [← Option.not_isSome_iff_eq_none, isSome_scan]
  constructor
  · exact fun h first hfirst => Nat.lt_of_not_le fun hle => h ⟨first, Array.mem_of_getElem? hfirst, hle⟩
  · rintro h ⟨e, he, hle⟩
    obtain ⟨i, hi⟩ := Array.mem_iff_getElem?.mp he
    have hsize : 0 < t.entries.size := Nat.zero_lt_of_lt (Array.getElem?_eq_some_iff.mp hi).1
    have hfirst := Array.getElem?_eq_getElem hsize
    exact absurd (h _ hfirst)
      (Nat.not_lt_of_le (Nat.le_trans (ho.pc_le (Nat.zero_le i) hfirst hi) hle))

/-- What looking up an offset comes to. -/
structure LooksUp (t : LineTable) (pc : Nat) : Prop where
  /-- The table's own search answers what a search may answer. -/
  located : t.Locates pc (t.search pc)
  /-- Whatever a search answers, the table has an entry where the lookup looks, -/
  inside : ∀ p, t.Locates pc p → ∀ i, p.index? = some i → i < t.entries.size
  /-- and it comes to the entry that the scan finds. -/
  found : ∀ p, t.Locates pc p → t.entryAt? p = t.scan pc
  find?_eq : t.find? pc = t.scan pc
  /-- That is the last entry that starts at or before the offset. -/
  some_iff : ∀ e, t.find? pc = some e ↔ ∃ i, t.entries[i]? = some e ∧ e.pc ≤ pc ∧
    ∀ (j : Nat) (a : LineEntry), i < j → t.entries[j]? = some a → pc < a.pc
  /-- There is none only if no entry does: the table is empty, or its first entry starts later. -/
  none_iff : t.find? pc = none ↔ ∀ first, t.entries[0]? = some first → pc < first.pc

/-- **Looking up by search is the plain scan**, in every table to which entries were added in order, for
every offset at which no more than one of them starts. Other offsets may be shared. -/
theorem lookup_is_scan (h : t.Added) (hpc : t.Unshared pc) : t.LooksUp pc := by
  have ho := h.ordered
  have hfind := find?_eq_scan ho pc
  constructor
  case located => exact search_locates ho pc
  case inside => exact fun p hp i hi => hp.index_lt hi
  case found => exact fun p hp => hp.entryAt?_eq_scan ho hpc
  case find?_eq => exact hfind
  case some_iff => exact fun e => by rw [hfind, scan_eq_some_iff ho]
  case none_iff => rw [hfind, scan_eq_none_iff ho]

/-! ### Entries that share an offset -/

namespace Shared

def table : LineTable := .ofList [⟨2, 1, 1⟩, ⟨4, 2, 1⟩, ⟨4, 2, 5⟩, ⟨7, 3, 1⟩]

end Shared

open Shared in
/-- Two entries share an offset before the one that is looked up. The later one covers it. -/
theorem lookup_is_scan_shared :
    table.Added ∧ table.Unshared 6 ∧ table.LooksUp 6 ∧ table.find? 6 = some ⟨4, 2, 5⟩ := by
  have hadded : table.Added :=
    (((Added.empty.add ⟨2, 1, 1⟩ (by decide)).add ⟨4, 2, 1⟩ (by decide)).add ⟨4, 2, 5⟩
      (by decide)).add ⟨7, 3, 1⟩ (by decide)
  have hunshared : table.Unshared 6 := by
    intro i j a b ha _ hpc _
    have hmem : ∀ e ∈ table.entries, e.pc ≠ 6 := by decide
    exact absurd hpc (hmem a (Array.mem_of_getElem? ha))
  have hlookup := lookup_is_scan hadded hunshared
  exact ⟨hadded, hunshared, hlookup, by rw [hlookup.find?_eq]; decide⟩

end TieredVm.LineTable
