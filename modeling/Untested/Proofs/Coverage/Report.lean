/-
# What a report keeps of its entries

A report that records entries one after the other lists their paths by first occurrence, and for
each path it has the lines of the last entry.  All along, the index leads from each path to the
place where it is listed, and from no other path to anywhere.
-/

import Mathlib.Algebra.Order.Ring.Nat
import Mathlib.Data.Finset.Card
import Mathlib.Data.List.Induction
import Untested.Coverage.Report

namespace Untested.CoverageReport

/-- A report is known by its entries, since they determine the index. -/
theorem eq_of_entries_eq {first second : CoverageReport}
    (hentries : first.entries = second.entries) : first = second := by
  obtain ⟨_, _, _, rfl⟩ := first
  obtain ⟨_, _, _, rfl⟩ := second
  cases hentries
  rfl

instance : DecidableEq CoverageReport := fun first second =>
  if h : first.entries = second.entries then
    .isTrue (eq_of_entries_eq h)
  else
    .isFalse fun heq => h (by rw [heq])

/-! ## One more entry -/

/-- Recording a path that is listed leaves the order as it is, and any other path goes to the
end. -/
theorem paths_insert (report : CoverageReport) (path : String) (missing : LineSet) :
    (report.insert path missing).paths =
      if path ∈ report.paths then report.paths else report.paths ++ [path] := by
  rw [insert]
  split
  · rename_i slot hslot
    have hlisted : path ∈ report.paths := List.mem_of_getElem? (lookup_index_eq_some_iff.1 hslot)
    rw [if_pos hlisted, paths, map_fst_setLinesAt, paths]
  · rename_i hslot
    rw [if_neg (lookup_index_eq_none_iff.1 hslot), paths, List.map_append, paths]
    rfl

/-- The lines of a path stand at its place. -/
theorem get?_eq_bind (report : CoverageReport) (path : String) :
    report.get? path =
      (report.index.lookup path).bind fun slot => report.entries[slot]?.map Prod.snd := by
  rw [get?]
  split
  · rename_i slot hslot
    have hlt := slot_lt_length hslot
    calc some (report.entries.get ⟨slot, hlt⟩).2
        = report.entries[slot]?.map Prod.snd := by
          rw [List.getElem?_eq_getElem hlt]
          rfl
      _ = (report.index.lookup path).bind fun slot => report.entries[slot]?.map Prod.snd := by
          rw [hslot, Option.bind_some]
  · rename_i hnone
    rw [hnone, Option.bind_none]

/-- The lines that were recorded last are found, and those of all other paths are untouched. -/
theorem get?_insert (report : CoverageReport) (path other : String) (missing : LineSet) :
    (report.insert path missing).get? other =
      if other = path then some missing else report.get? other := by
  rw [get?_eq_bind, get?_eq_bind, insert]
  split
  · rename_i slot hslot
    dsimp only
    by_cases hother : other = path
    · rw [if_pos hother, hother, hslot, Option.bind_some, setLinesAt, List.getElem?_modify_eq,
        List.getElem?_eq_getElem (slot_lt_length hslot)]
      rfl
    · rw [if_neg hother]
      refine Option.bind_congr fun place hplace => ?_
      have hne : slot ≠ place := by
        rintro rfl
        have hsame := (lookup_index_eq_some_iff.1 hplace).symm.trans
          (lookup_index_eq_some_iff.1 hslot)
        exact hother (Option.some.inj hsame)
      rw [setLinesAt, List.getElem?_modify_ne _ _ hne]
  · rename_i hnone
    dsimp only
    by_cases hother : other = path
    · rw [if_pos hother, hother, List.lookup_cons_self, Option.bind_some,
        List.getElem?_concat_length]
      rfl
    · rw [if_neg hother, List.lookup_cons, beq_false_of_ne hother]
      refine Option.bind_congr fun place hplace => ?_
      rw [List.getElem?_append_left (slot_lt_length hplace)]

/-- What is listed is what is found. -/
theorem mem_entries_iff {report : CoverageReport} {path : String} {missing : LineSet} :
    (path, missing) ∈ report.entries ↔ report.get? path = some missing := by
  rw [get?_eq_bind, Option.bind_eq_some_iff, List.mem_iff_getElem?]
  refine exists_congr fun slot => ?_
  rw [lookup_index_eq_some_iff, paths, List.getElem?_map]
  cases report.entries[slot]? with
  | none => simp
  | some entry => simp [Prod.ext_iff]

/-- The missing lines of all files are counted path by path. -/
theorem totalMissing_eq (report : CoverageReport) :
    report.totalMissing =
      (report.paths.map fun path => ((report.get? path).map LineSet.size).getD 0).sum := by
  have hsize : ∀ entry ∈ report.entries,
      ((report.get? entry.1).map LineSet.size).getD 0 = entry.2.size := by
    intro entry hentry
    rw [mem_entries_iff.1 hentry]
    rfl
  rw [paths, List.map_map]
  calc report.totalMissing
      = (report.entries.map fun entry => entry.2.size).sum := by
        rw [totalMissing, List.sum_eq_foldr, List.foldr_map]
    _ = _ := by rw [← List.map_congr_left hsize]; rfl

/-! ## All entries -/

theorem ofList_append_singleton (entries : List (String × LineSet)) (path : String)
    (missing : LineSet) :
    ofList (entries ++ [(path, missing)]) = (ofList entries).insert path missing := by
  rw [ofList, ofList, List.foldl_append]
  rfl

/-- The paths of a report, each at its first occurrence. -/
theorem paths_ofList (entries : List (String × LineSet)) :
    (ofList entries).paths = (entries.map Prod.fst).eraseDups := by
  induction entries using List.reverseRecOn with
  | nil => rfl
  | append_singleton entries entry ih =>
      obtain ⟨path, missing⟩ := entry
      rw [ofList_append_singleton, paths_insert, ih, List.map_append, List.eraseDups_append]
      by_cases hmem : path ∈ entries.map Prod.fst
      · rw [if_pos (List.mem_eraseDups.2 hmem)]
        simp [List.removeAll, hmem]
      · rw [if_neg (mt List.mem_eraseDups.1 hmem)]
        simp [List.removeAll, hmem, List.eraseDups_cons]

/-- The lines of a path are those of its last entry. -/
theorem get?_ofList (entries : List (String × LineSet)) (path : String) :
    (ofList entries).get? path = entries.reverse.lookup path := by
  induction entries using List.reverseRecOn with
  | nil => rfl
  | append_singleton entries entry ih =>
      obtain ⟨other, missing⟩ := entry
      rw [ofList_append_singleton, get?_insert, ih, List.reverse_append, List.reverse_singleton,
        List.singleton_append, List.lookup_cons]
      by_cases hpath : path = other
      · rw [if_pos hpath, beq_iff_eq.2 hpath]
      · rw [if_neg hpath, beq_false_of_ne hpath]

/-- A report into which entries were recorded, with any paths among them repeated in any manner.
Its paths are distinct, in the order of their first entries, and as many as there are among the
entries.  The index leads to each path at its own place and to nothing else, so that no place is
looked up beyond the last file.  Each path has the lines of its last entry, the others have none,
and the missing lines are those of the last entries together. -/
theorem ofList_spec (recorded : List (String × LineSet)) :
    (ofList recorded).paths.Nodup ∧
    (∀ path slot, (ofList recorded).index.lookup path = some slot ↔
      (ofList recorded).paths[slot]? = some path) ∧
    (∀ path slot, (path, slot) ∈ (ofList recorded).index →
      slot < (ofList recorded).entries.length ∧
        (ofList recorded).index.lookup path = some slot) ∧
    (∀ path, (ofList recorded).get? path = recorded.reverse.lookup path) ∧
    (ofList recorded).paths = (recorded.map Prod.fst).eraseDups ∧
    (∀ path missing, (path, missing) ∈ (ofList recorded).entries ↔
      recorded.reverse.lookup path = some missing) ∧
    (ofList recorded).size = (recorded.map Prod.fst).toFinset.card ∧
    (ofList recorded).totalMissing =
      ((recorded.map Prod.fst).eraseDups.map fun path =>
        ((recorded.reverse.lookup path).map LineSet.size).getD 0).sum := by
  refine ⟨(ofList recorded).distinct, fun path slot => lookup_index_eq_some_iff, ?_,
    get?_ofList recorded, paths_ofList recorded, ?_, ?_, ?_⟩
  · intro path slot hmem
    have hslot := lookup_index_eq_some_iff_mem.2 hmem
    exact ⟨slot_lt_length hslot, hslot⟩
  · intro path missing
    rw [mem_entries_iff, get?_ofList]
  · have hfiles : (ofList recorded).paths.toFinset = (recorded.map Prod.fst).toFinset := by
      ext path
      rw [List.mem_toFinset, List.mem_toFinset, paths_ofList, List.mem_eraseDups]
    calc (ofList recorded).size
        = (ofList recorded).paths.length := (List.length_map Prod.fst).symm
      _ = (ofList recorded).paths.toFinset.card :=
          (List.toFinset_card_of_nodup (ofList recorded).distinct).symm
      _ = (recorded.map Prod.fst).toFinset.card := by rw [hfiles]
  · simp only [totalMissing_eq, paths_ofList, get?_ofList]

end Untested.CoverageReport
