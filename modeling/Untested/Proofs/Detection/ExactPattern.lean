/-
# Leaving out a file by its own path

A pattern without wildcards matches its own text only.  Since paths are matched with slashes, such a
pattern leaves out the row of a path that is spelt with slashes, and that of a path spelt with
backslashes only if the pattern has slashes in their place.  A pattern that contains a backslash
matches no path at all.
-/

import Untested.Proofs.Coverage.Report
import Untested.Proofs.Detection.Removal
import Untested.Proofs.Glob.Matching

namespace Untested

/-! ## Patterns without wildcards -/

namespace Glob

/-- The pattern has no wildcard and opens no class. -/
def IsExact (pattern : List Char) : Prop :=
  ∀ c ∈ pattern, c ∉ ['*', '?', '[']

instance (pattern : List Char) : Decidable (IsExact pattern) :=
  List.decidableBAll (fun c => c ∉ ['*', '?', '[']) pattern

variable {pattern text : List Char}

theorem IsExact.spells (hexact : IsExact pattern) (starts : Bool) :
    Spells starts pattern (pattern.map .literal) := by
  induction pattern generalizing starts with
  | nil => exact .nil
  | cons c rest ih =>
      rw [IsExact, List.forall_mem_cons] at hexact
      exact .literal hexact.1 (ih hexact.2 _)

theorem denotes_map_literal_iff : Denotes (pattern.map .literal) text ↔ text = pattern := by
  induction pattern generalizing text with
  | nil => exact Iff.rfl
  | cons c rest ih =>
      have hsingle : (Piece.literal c).IsSingle := ⟨nofun, nofun⟩
      rw [List.map_cons, hsingle.denotes_iff]
      constructor
      · rintro ⟨d, behind, rfl, hstands, hbehind⟩
        rw [show d = c from hstands, ih.1 hbehind]
      · rintro rfl
        exact ⟨c, rest, rfl, rfl, ih.2 rfl⟩

/-- A pattern without wildcards matches its own text only. -/
theorem IsExact.isMatch_iff (hexact : IsExact pattern) :
    isMatch pattern text = true ↔ text = pattern := by
  have hspells : Spells true pattern (pattern.map .literal) := hexact.spells true
  rw [isMatch, pieces?_eq_some_iff.2 hspells]
  simp only [decide_eq_true_eq]
  rw [hspells.decides.search_eq_matched_iff, denotes_map_literal_iff]

end Glob

namespace Path

theorem backslash_not_mem_withSlashes (path : List Char) : '\\' ∉ withSlashes path := by
  intro hmem
  obtain ⟨c, _, hc⟩ := List.mem_map.1 hmem
  by_cases hbackslash : c = '\\'
  · rw [if_pos hbackslash] at hc
    exact absurd hc (by decide)
  · rw [if_neg hbackslash] at hc
    exact hbackslash hc

theorem withSlashes_eq_self {path : List Char} (hpath : '\\' ∉ path) :
    withSlashes path = path := by
  rw [withSlashes, List.map_congr_left (g := id), List.map_id]
  intro c hc
  apply if_neg
  rintro rfl
  exact hpath hc

end Path

/-! ## Rows that are left out -/

/-- The report without the row of a path. -/
def CoverageReport.withoutRow (report : CoverageReport) (path : String) : CoverageReport where
  entries := report.entries.filter fun entry => entry.1 ≠ path
  distinct := report.distinct.sublist (List.filter_sublist.map Prod.fst)

namespace Detector

variable (detector : Detector)

/-- A pass has nothing to do with the row of a path.  It learns that the row is excluded without
reading anything, and it acts and ends as if the report had no such row, with one worker or with
several. -/
structure LeavesOut (path : String) : Prop where
  unread : ∀ (m : Type → Type) [Monad m] (read : SourceReader m) (missing : LineSet),
    detector.check read (path, missing) = pure (.ok .excluded)
  detect_eq : ∀ (m : Type → Type) [Monad m] [LawfulMonad m] (read : SourceReader m)
    (report : CoverageReport),
    detector.detect read report = detector.detect read (report.withoutRow path)
  mayEnd_iff : ∀ read report result,
    detector.MayEnd read report result ↔ detector.MayEnd read (report.withoutRow path) result

variable {detector} {path : String}

theorem without_withoutRow (hexcluded : detector.isExcluded path = true)
    (report : CoverageReport) :
    (report.withoutRow path).without detector.exclude = report.without detector.exclude := by
  apply CoverageReport.eq_of_entries_eq
  show List.filter _ (List.filter _ report.entries) = List.filter _ report.entries
  rw [List.filter_filter]
  apply List.filter_congr
  intro entry _
  by_cases hpath : entry.1 = path
  · have hmatched : (detector.exclude.any fun pattern =>
        Glob.isMatch pattern.toList (Path.withSlashes entry.1.toList)) = true := by
      rw [hpath]
      exact hexcluded
    rw [hmatched]
    rfl
  · rw [decide_eq_true hpath, Bool.and_true]

/-- Whoever reads a file learns more than that it is left out. -/
theorem learnt_ne_excluded (path : String) (entry : String × LineSet)
    (result : Except Fault (Option String)) : learnt path entry result ≠ .ok .excluded := by
  generalize hlearnt : learnt path entry result = outcome
  have hlearns : Learns path entry result outcome := by
    rw [← hlearnt]
    exact learns_learnt path entry result
  cases hlearns <;> nofun

/-- The rows that a pass has nothing to do with are those that a pattern matches. -/
theorem leavesOut_iff : detector.LeavesOut path ↔ detector.isExcluded path = true := by
  constructor
  · intro hleaves
    by_contra hexcluded
    rw [Bool.not_eq_true] at hexcluded
    let entry : String × LineSet := (path, ∅)
    have hunread : detector.outcome (fun _ => .ok none) entry = .ok .excluded :=
      hleaves.unread Id (fun _ => .ok none) ∅
    have hlearnt : detector.outcome (fun _ => .ok none) entry =
        learnt (Path.join detector.root entry.1) entry (.ok none) :=
      detector.outcome_of_not_excluded _ hexcluded
    exact learnt_ne_excluded _ _ _ (hlearnt.symm.trans hunread)
  · intro hexcluded
    refine ⟨?_, ?_, ?_⟩
    · intro m _ read missing
      exact detector.check_of_excluded hexcluded
    · intro m _ _ read report
      rw [detector.detect_without, detector.detect_without, without_withoutRow hexcluded]
    · intro read report result
      rw [detector.mayEnd_without, detector.mayEnd_without, without_withoutRow hexcluded]

/-- A pattern that contains a backslash and no wildcard matches no path. -/
theorem isMatch_withSlashes_of_backslash {pattern : List Char} (hexact : Glob.IsExact pattern)
    (hbackslash : '\\' ∈ pattern) (path : List Char) :
    Glob.isMatch pattern (Path.withSlashes path) = false := by
  rw [← Bool.not_eq_true, hexact.isMatch_iff]
  rintro rfl
  exact Path.backslash_not_mem_withSlashes path hbackslash

theorem isExcluded_cons_of_backslash {pattern : String} (hexact : Glob.IsExact pattern.toList)
    (hbackslash : '\\' ∈ pattern.toList) (root : String) (patterns : List String)
    (path : String) :
    isExcluded ⟨root, pattern :: patterns⟩ path = isExcluded ⟨root, patterns⟩ path := by
  rw [isExcluded, List.any_cons, isMatch_withSlashes_of_backslash hexact hbackslash,
    Bool.false_or, isExcluded]

/-- A path without wildcards that is spelt with slashes is a pattern that leaves out its own row,
and one that is spelt with backslashes is left out by the pattern with slashes in their place.  Its
own spelling is then a pattern that leaves out no row at all. -/
theorem leavesOut_of_own_path (path : String) (hexact : Glob.IsExact path.toList) :
    (∀ detector : Detector, path ∈ detector.exclude → '\\' ∉ path.toList →
      detector.LeavesOut path) ∧
    (∀ detector : Detector, String.ofList (Path.withSlashes path.toList) ∈ detector.exclude →
      detector.LeavesOut path) ∧
    ('\\' ∈ path.toList → ∀ root patterns other,
      LeavesOut ⟨root, path :: patterns⟩ other ↔ LeavesOut ⟨root, patterns⟩ other) := by
  have hslashed (detector : Detector)
      (hmem : String.ofList (Path.withSlashes path.toList) ∈ detector.exclude) :
      detector.LeavesOut path := by
    have hexact' : Glob.IsExact (Path.withSlashes path.toList) := by
      intro c hc
      obtain ⟨d, hd, rfl⟩ := List.mem_map.1 hc
      split
      · decide
      · exact hexact d hd
    rw [leavesOut_iff, isExcluded, List.any_eq_true]
    refine ⟨_, hmem, ?_⟩
    rw [String.toList_ofList, hexact'.isMatch_iff]
  refine ⟨?_, hslashed, ?_⟩
  · intro detector hmem hpath
    apply hslashed detector
    rwa [Path.withSlashes_eq_self hpath, String.ofList_toList]
  · intro hbackslash root patterns other
    rw [leavesOut_iff, leavesOut_iff, isExcluded_cons_of_backslash hexact hbackslash]

/-- The row of a path with backslashes is left out by the pattern with slashes. -/
theorem leavesOut_of_own_path_slashed :
    Glob.IsExact "pkg\\a.py".toList ∧ LeavesOut ⟨"src", ["*.pyi", "pkg/a.py"]⟩ "pkg\\a.py" := by
  have hexact : Glob.IsExact "pkg\\a.py".toList := by decide +kernel
  apply And.intro hexact
  apply (leavesOut_of_own_path _ hexact).2.1
  decide +kernel

/-- The pattern that repeats a path with backslashes does not leave out its row: the file is read
and checked, and what never ran in it is found. -/
theorem not_leavesOut_of_own_path :
    Glob.IsExact "pkg\\a.py".toList ∧ ¬ LeavesOut ⟨"/r", ["pkg\\a.py"]⟩ "pkg\\a.py" ∧
      (detect (m := Id) ⟨"/r", ["pkg\\a.py"]⟩
          (fun path => if path = "/r/pkg\\a.py" then .ok (some "def f():\n    return 1\n")
            else .ok none)
          { entries := [("pkg\\a.py", .ofList [2])] }).run =
        .ok { findings := [{ file := "pkg\\a.py", name := "f", line := 1 }]
              filesChecked := 1 } := by
  refine ⟨by decide +kernel, ?_, by decide +kernel⟩
  rw [leavesOut_iff]
  decide +kernel

end Detector

end Untested
