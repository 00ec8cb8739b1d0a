/-!
# Line tables

A line table maps offsets into a function's code to source positions. Its entries are added in
order of their offsets, and `find?` looks up the entry that covers an offset: a search halves the
range in which it can start, and either hits an entry that starts at the offset or misses, one place
after the entry that covers it.

* `LineTable` and `LineEntry` keep their names; `add` and `find?` are `LineTable::add` and
  `LineTable::find`.
* `search` is the `binary_search_by_key` of a slice that `find` calls, `Place.hit` and `Place.miss`
  being its `Ok` and `Err`.
-/

namespace TieredVm

/-- One entry: the first offset it covers, and the position there. -/
structure LineEntry where
  pc : Nat
  line : Nat
  column : Nat
deriving DecidableEq, Repr

/-- Source positions of a function's code. -/
structure LineTable where
  entries : Array LineEntry := #[]
deriving DecidableEq

namespace LineTable

/-- Adds an entry after the others. -/
def add (t : LineTable) (e : LineEntry) : LineTable := ⟨t.entries.push e⟩

/-- The table with the given entries, in order. -/
def ofList (es : List LineEntry) : LineTable := es.foldl add {}

/-- How many entries start at or before `pc`, given that all below `lo` do and none from `hi` on
does. Only entries of the table are looked at. -/
def startedBefore (t : LineTable) (pc lo hi : Nat) (hsize : hi ≤ t.entries.size) : Nat :=
  if hlt : lo < hi then
    let mid := (lo + hi) / 2
    have hmid : mid < t.entries.size := by omega
    if t.entries[mid].pc ≤ pc then startedBefore t pc (mid + 1) hi hsize
    else startedBefore t pc lo mid (Nat.le_of_lt hmid)
  else lo
termination_by hi - lo

/-- Where a search for an offset ends. -/
inductive Place where
  /-- At an entry that starts there. -/
  | hit (i : Nat)
  /-- No entry does; one that did could be added at the index. -/
  | miss (i : Nat)
deriving DecidableEq

/-- Searches for an offset. -/
def search (t : LineTable) (pc : Nat) : Place :=
  match startedBefore t pc 0 t.entries.size (Nat.le_refl _) with
  | 0 => .miss 0
  | n + 1 => if (t.entries[n]?.map LineEntry.pc) = some pc then .hit n else .miss (n + 1)

/-- The entry that was hit, or else the one before the place that was missed. -/
def entryAt? (t : LineTable) : Place → Option LineEntry
  | .hit i => t.entries[i]?
  | .miss 0 => none
  | .miss (i + 1) => t.entries[i]?

/-- The entry covering `pc`: the last one that starts at or before it. -/
def find? (t : LineTable) (pc : Nat) : Option LineEntry := t.entryAt? (t.search pc)

end LineTable

end TieredVm
