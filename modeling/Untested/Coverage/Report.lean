/-
# Coverage reports

A coverage report says which lines of each source file never ran.  It remembers its files in the
order in which they first came up, and a file that comes up again keeps its place.  Beside the
files it keeps an index, in which the place of a file is looked up by its path.
-/

import Untested.Line.Set

namespace Untested

/-- The place of each file, the last file first. -/
def slotsOf (entries : List (String × LineSet)) : List (String × Nat) :=
  (entries.map Prod.fst).zipIdx.reverse

/-- The missing lines of each file, in report order. -/
structure CoverageReport where
  /-- The files, each with its missing lines. -/
  entries : List (String × LineSet)
  /-- The place of each file among the entries. -/
  index : List (String × Nat) := slotsOf entries
  /-- No file is listed twice. -/
  distinct : (entries.map Prod.fst).Nodup := by simp
  /-- The index leads to the files as they are listed. -/
  indexed : index = slotsOf entries := by rfl

namespace CoverageReport

instance : EmptyCollection CoverageReport where
  emptyCollection := { entries := [] }

instance : Inhabited CoverageReport := ⟨∅⟩

def paths (report : CoverageReport) : List String :=
  report.entries.map Prod.fst

/-! ## Looking up a place -/

/-- When no key comes up twice, a key is looked up as whatever it stands with. -/
theorem lookup_eq_some_iff_mem {α : Type} {key : String} {value : α}
    {pairs : List (String × α)} (distinct : (pairs.map Prod.fst).Nodup) :
    pairs.lookup key = some value ↔ (key, value) ∈ pairs := by
  induction pairs with
  | nil => simp
  | cons pair pairs ih =>
    rw [List.map_cons, List.nodup_cons] at distinct
    rw [List.lookup_cons, List.mem_cons, Prod.ext_iff]
    by_cases hkey : key = pair.1
    · have hmem : (key, value) ∉ pairs := fun hmem =>
        distinct.1 (List.mem_map.2 ⟨_, hmem, hkey⟩)
      simp [hkey, hkey ▸ hmem, eq_comm]
    · simp [beq_false_of_ne hkey, hkey, ih distinct.2]

theorem slotsOf_append_singleton (entries : List (String × LineSet)) (path : String)
    (missing : LineSet) :
    slotsOf (entries ++ [(path, missing)]) = (path, entries.length) :: slotsOf entries := by
  simp [slotsOf, List.zipIdx_append]

theorem map_fst_slotsOf (entries : List (String × LineSet)) :
    (slotsOf entries).map Prod.fst = (entries.map Prod.fst).reverse := by
  rw [slotsOf, List.map_reverse, List.zipIdx_map_fst]

theorem lookup_index_eq_some_iff_mem {report : CoverageReport} {path : String} {slot : Nat} :
    report.index.lookup path = some slot ↔ (path, slot) ∈ report.index := by
  apply lookup_eq_some_iff_mem
  rw [report.indexed, map_fst_slotsOf]
  exact List.pairwise_reverse.2 (report.distinct.imp Ne.symm)

/-- The index has each path at its own place, and no other path. -/
theorem lookup_index_eq_some_iff {report : CoverageReport} {path : String} {slot : Nat} :
    report.index.lookup path = some slot ↔ report.paths[slot]? = some path := by
  rw [lookup_index_eq_some_iff_mem, report.indexed, slotsOf, List.mem_reverse,
    List.mk_mem_zipIdx_iff_getElem?]
  rfl

theorem lookup_index_eq_none_iff {report : CoverageReport} {path : String} :
    report.index.lookup path = none ↔ path ∉ report.paths := by
  rw [List.mem_iff_getElem?, Option.eq_none_iff_forall_ne_some, not_exists]
  exact forall_congr' fun slot => not_congr lookup_index_eq_some_iff

/-- The index never leads beyond the entries. -/
theorem slot_lt_length {report : CoverageReport} {path : String} {slot : Nat}
    (hslot : report.index.lookup path = some slot) : slot < report.entries.length := by
  obtain ⟨hlt, -⟩ := List.getElem?_eq_some_iff.1 (lookup_index_eq_some_iff.1 hslot)
  rwa [paths, List.length_map] at hlt

/-! ## Recording and finding -/

/-- The entries with the lines of one of them replaced. -/
def setLinesAt (slot : Nat) (missing : LineSet) (entries : List (String × LineSet)) :
    List (String × LineSet) :=
  entries.modify slot fun entry => (entry.1, missing)

theorem map_fst_setLinesAt (slot : Nat) (missing : LineSet) (entries : List (String × LineSet)) :
    (setLinesAt slot missing entries).map Prod.fst = entries.map Prod.fst := by
  apply List.ext_getElem?
  intro place
  rw [setLinesAt, List.getElem?_map, List.getElem?_map, List.getElem?_modify]
  cases entries[place]? with
  | none => rfl
  | some entry => by_cases hplace : slot = place <;> simp [hplace]

/-- The report with the missing lines of one file recorded.  Lines recorded earlier for the same
file are replaced, and the file keeps its place. -/
def insert (report : CoverageReport) (path : String) (missing : LineSet) : CoverageReport :=
  match hslot : report.index.lookup path with
  | some slot =>
    { entries := setLinesAt slot missing report.entries
      index := report.index
      distinct := by rw [map_fst_setLinesAt]; exact report.distinct
      indexed := by rw [slotsOf, map_fst_setLinesAt]; exact report.indexed }
  | none =>
    { entries := report.entries ++ [(path, missing)]
      index := (path, report.entries.length) :: report.index
      distinct := by
        rw [List.map_append, List.nodup_append]
        refine ⟨report.distinct, by simp, fun other hother same hsame heq => ?_⟩
        obtain rfl := List.mem_singleton.1 hsame
        exact lookup_index_eq_none_iff.1 hslot (heq ▸ hother)
      indexed := by rw [slotsOf_append_singleton, report.indexed] }

/-- The report that records the given files one after the other. -/
def ofList (entries : List (String × LineSet)) : CoverageReport :=
  entries.foldl (fun report entry => report.insert entry.1 entry.2) ∅

/-- The missing lines of a file, if the report lists it. -/
def get? (report : CoverageReport) (path : String) : Option LineSet :=
  match hslot : report.index.lookup path with
  | some slot => some (report.entries.get ⟨slot, slot_lt_length hslot⟩).2
  | none => none

def size (report : CoverageReport) : Nat :=
  report.entries.length

def isEmpty (report : CoverageReport) : Bool :=
  report.entries.isEmpty

/-- The number of missing lines in all files together. -/
def totalMissing (report : CoverageReport) : Nat :=
  report.entries.foldr (fun entry count => entry.2.size + count) 0

end CoverageReport

end Untested
