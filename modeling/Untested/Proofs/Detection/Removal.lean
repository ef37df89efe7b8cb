/-
# Leaving out files removes rows

A pass with patterns for files to leave out is compared with the pass without patterns over the
report from which the matching rows are removed.  They give the same result, with one worker or
with several, and both look at the files of the remaining rows alone.  So more patterns never turn
a pass that succeeds into one that fails, and never add to what it finds.
-/

import Mathlib.Data.List.Flatten
import Untested.Proofs.Detection.Exclusion
import Untested.Proofs.Detection.Parallel

namespace Untested

/-- A row remains when no pattern matches its path. -/
theorem CoverageReport.mem_entries_without {report : CoverageReport} {patterns : List String}
    {entry : String × LineSet} :
    entry ∈ (report.without patterns).entries ↔
      entry ∈ report.entries ∧ Detector.isExcluded ⟨"", patterns⟩ entry.1 = false := by
  rw [without, List.mem_filter, Bool.not_eq_true']
  rfl

namespace Detector

variable (detector : Detector)

theorem isExcluded_of_subset {longer : List String} (hlonger : detector.exclude ⊆ longer)
    {path : String} (hpath : isExcluded ⟨detector.root, longer⟩ path = false) :
    detector.isExcluded path = false := by
  rw [isExcluded, List.any_eq_false] at hpath ⊢
  exact fun pattern hpattern => hpath pattern (hlonger hpattern)

/-! ## Readers -/

section Readers

variable {read read' : String → Except Fault (Option String)}

/-- Two readers say the same of every file that a pass looks at. -/
def Agree (report : CoverageReport) (read read' : String → Except Fault (Option String)) : Prop :=
  ∀ path ∈ (report.without detector.exclude).paths,
    read (Path.join detector.root path) = read' (Path.join detector.root path)

variable {detector}

/-- What is learnt of the files depends on nothing else. -/
theorem Agree.outcomes_eq {report : CoverageReport} (hagree : detector.Agree report read read') :
    report.entries.map (detector.outcome read) = report.entries.map (detector.outcome read') := by
  refine List.map_congr_left fun entry hentry => ?_
  cases hexcluded : detector.isExcluded entry.1 with
  | true =>
      rw [detector.outcome_of_excluded read hexcluded, detector.outcome_of_excluded read' hexcluded]
  | false =>
      have hpath : entry.1 ∈ (report.without detector.exclude).paths :=
        List.mem_map_of_mem (CoverageReport.mem_entries_without.2 ⟨hentry, hexcluded⟩)
      rw [detector.outcome_of_not_excluded read hexcluded,
        detector.outcome_of_not_excluded read' hexcluded, hagree entry.1 hpath]

theorem Agree.detect_eq {report : CoverageReport} (hagree : detector.Agree report read read') :
    (detector.detect (m := Id) read report).run = (detector.detect (m := Id) read' report).run := by
  rw [detect_run, detect_run, hagree.outcomes_eq]

theorem Agree.detectInParallel_eq {report : CoverageReport}
    (hagree : detector.Agree report read read') (order : List Nat) :
    (detector.detectInParallel (m := Id) order read report).run =
      (detector.detectInParallel (m := Id) order read' report).run := by
  rw [detectInParallel_run, detectInParallel_run, hagree.outcomes_eq]

end Readers

variable (read : String → Except Fault (Option String))

/-! ## Several workers -/

/-- Some order of completion leads to a result. -/
def MayEnd (report : CoverageReport) (result : Except Fault Detection) : Prop :=
  ∃ order, detector.Completes read report order ∧
    (detector.detectInParallel (m := Id) order read report).run = result

theorem isSchedule_range {α : Type} (results : List (Except Fault α)) :
    IsSchedule results (List.range results.length) where
  nodup := List.nodup_range
  lt_length _ hindex := List.mem_range.1 hindex
  of_skipped _ hindex hskipped := absurd (List.mem_range.2 hindex) hskipped

/-- Several workers find what one worker finds, or end with the fault of any file that fails. -/
theorem mayEnd_iff {report : CoverageReport} {result : Except Fault Detection} :
    detector.MayEnd read report result ↔
      detector.ReadsAll read report ∧ (detector.detect (m := Id) read report).run = result ∨
      ∃ entry ∈ report.entries, ∃ fault, detector.FailsWith read entry fault ∧
        result = .error fault := by
  constructor
  · rintro ⟨order, horder, rfl⟩
    by_cases hreads : detector.ReadsAll read report
    · exact .inl ⟨hreads, (detector.detectInParallel_of_readsAll read hreads order).symm⟩
    · obtain ⟨_, index, _, entry, fault, _, hentry, hfails, _, hresult⟩ :=
        detector.detectInParallel_of_not_readsAll read hreads horder
      exact .inr ⟨entry, List.mem_of_getElem? hentry, fault, hfails, hresult⟩
  · rintro (⟨hreads, rfl⟩ | ⟨entry, hentry, fault, hfails, rfl⟩)
    · exact ⟨_, isSchedule_range _, detector.detectInParallel_of_readsAll read hreads _⟩
    · exact detector.detectInParallel_first read hentry hfails

/-! ## Rows that remain -/

/-- The files that fail a pass are among the rows that remain. -/
theorem exists_failsWith_without (report : CoverageReport) (fault : Fault) :
    (∃ entry ∈ report.entries, detector.FailsWith read entry fault) ↔
      ∃ entry ∈ (report.without detector.exclude).entries,
        FailsWith ⟨detector.root, []⟩ read entry fault := by
  constructor
  · rintro ⟨entry, hentry, hexcluded, hfails⟩
    exact ⟨entry, CoverageReport.mem_entries_without.2 ⟨hentry, hexcluded⟩, rfl, hfails⟩
  · rintro ⟨entry, hentry, _, hfails⟩
    obtain ⟨hentry, hexcluded⟩ := CoverageReport.mem_entries_without.1 hentry
    exact ⟨entry, hentry, hexcluded, hfails⟩

theorem readsAll_without {report : CoverageReport} :
    detector.ReadsAll read report ↔
      ReadsAll ⟨detector.root, []⟩ read (report.without detector.exclude) := by
  have hfails := detector.exists_failsWith_without read report
  rw [readsAll_iff, readsAll_iff]
  constructor
  · intro hnone entry hentry fault hentryFails
    obtain ⟨other, hother, hotherFails⟩ := (hfails fault).2 ⟨entry, hentry, hentryFails⟩
    exact hnone other hother fault hotherFails
  · intro hnone entry hentry fault hentryFails
    obtain ⟨other, hother, hotherFails⟩ := (hfails fault).1 ⟨entry, hentry, hentryFails⟩
    exact hnone other hother fault hotherFails

/-- Several workers may end with a result exactly when they may over the remaining rows. -/
theorem mayEnd_without {report : CoverageReport} {result : Except Fault Detection} :
    detector.MayEnd read report result ↔
      MayEnd ⟨detector.root, []⟩ read (report.without detector.exclude) result := by
  have hdetect : (detector.detect (m := Id) read report).run =
      (detect (m := Id) ⟨detector.root, []⟩ read (report.without detector.exclude)).run :=
    congrArg Id.run (detector.detect_without (m := Id) read report)
  rw [mayEnd_iff, mayEnd_iff, readsAll_without, hdetect]
  refine or_congr_right ⟨?_, ?_⟩
  · rintro ⟨entry, hentry, fault, hfails, rfl⟩
    obtain ⟨other, hother, hotherFails⟩ :=
      (detector.exists_failsWith_without read _ _).1 ⟨entry, hentry, hfails⟩
    exact ⟨other, hother, fault, hotherFails, rfl⟩
  · rintro ⟨entry, hentry, fault, hfails, rfl⟩
    obtain ⟨other, hother, hotherFails⟩ :=
      (detector.exists_failsWith_without read _ _).2 ⟨entry, hentry, hfails⟩
    exact ⟨other, hother, fault, hotherFails, rfl⟩

/-! ## More patterns -/

variable {longer : List String}

/-- With more patterns, a file is left out or brings up the same findings as before. -/
theorem flagged_sublist (hlonger : detector.exclude ⊆ longer) (entry : String × LineSet) :
    (flagged ⟨detector.root, longer⟩ read entry).Sublist (detector.flagged read entry) := by
  cases hexcluded : isExcluded ⟨detector.root, longer⟩ entry.1 with
  | true =>
      rw [flagged, tree?, hexcluded, if_pos rfl]
      exact List.nil_sublist _
  | false =>
      rw [flagged, flagged, tree?, tree?, hexcluded,
        detector.isExcluded_of_subset hlonger hexcluded]

theorem missing?_eq (hlonger : detector.exclude ⊆ longer) (entry : String × LineSet) :
    missing? ⟨detector.root, longer⟩ read entry =
      if isExcluded ⟨detector.root, longer⟩ entry.1 then none
      else detector.missing? read entry := by
  cases hexcluded : isExcluded ⟨detector.root, longer⟩ entry.1 with
  | true => rw [missing?, hexcluded, if_pos rfl, if_pos rfl]
  | false =>
      rw [if_neg (by decide), missing?, missing?, hexcluded,
        detector.isExcluded_of_subset hlonger hexcluded]

theorem filterMap_missing?_sublist (hlonger : detector.exclude ⊆ longer)
    (entries : List (String × LineSet)) :
    (entries.filterMap (missing? ⟨detector.root, longer⟩ read)).Sublist
      (entries.filterMap (detector.missing? read)) := by
  rw [funext (detector.missing?_eq read hlonger)]
  induction entries with
  | nil => exact .slnil
  | cons entry entries ih =>
      rw [List.filterMap_cons, List.filterMap_cons]
      split
      · split
        · exact ih
        · exact ih.cons _
      · rename_i path hpath
        split at hpath
        · cases hpath
        · rw [hpath]
          exact ih.cons_cons _

theorem readsAll_of_subset (hlonger : detector.exclude ⊆ longer) {report : CoverageReport}
    (hreads : detector.ReadsAll read report) :
    ReadsAll ⟨detector.root, longer⟩ read report :=
  fun entry hentry hexcluded =>
    hreads entry hentry (detector.isExcluded_of_subset hlonger hexcluded)

/-- A pass that succeeds meets no file that fails. -/
theorem readsAll_of_detect {report : CoverageReport} {detection : Detection}
    (hdetect : (detector.detect (m := Id) read report).run = .ok detection) :
    detector.ReadsAll read report := by
  by_contra hreads
  obtain ⟨_, _, _, _, _, _, _, herror⟩ := detector.detect_of_not_readsAll read hreads
  rw [hdetect] at herror
  cases herror

/-- Where no file fails, several workers end as one worker does. -/
theorem mayEnd_of_readsAll {report : CoverageReport} (hreads : detector.ReadsAll read report)
    {result : Except Fault Detection} :
    detector.MayEnd read report result ↔ (detector.detect (m := Id) read report).run = result := by
  rw [mayEnd_iff]
  constructor
  · rintro (⟨_, hdetect⟩ | ⟨entry, hentry, fault, hfails, _⟩)
    · exact hdetect
    · exact absurd hfails ((detector.readsAll_iff read).1 hreads entry hentry fault)
  · intro hdetect
    exact .inl ⟨hreads, hdetect⟩

/-- Several workers succeed only with what one worker finds. -/
theorem detect_of_mayEnd {report : CoverageReport} {detection : Detection}
    (hends : detector.MayEnd read report (.ok detection)) :
    (detector.detect (m := Id) read report).run = .ok detection := by
  rcases (detector.mayEnd_iff read).1 hends with ⟨_, hdetect⟩ | ⟨_, _, _, _, herror⟩
  · exact hdetect
  · cases herror

/-- A pass that succeeds goes on to succeed with more patterns, and finds no more. -/
theorem detect_of_subset (hlonger : detector.exclude ⊆ longer) {report : CoverageReport}
    {detection : Detection}
    (hdetect : (detector.detect (m := Id) read report).run = .ok detection) :
    ∃ fewer, (detect (m := Id) ⟨detector.root, longer⟩ read report).run = .ok fewer ∧
      (∀ result, MayEnd ⟨detector.root, longer⟩ read report result ↔ .ok fewer = result) ∧
      fewer.findings.Sublist detection.findings ∧
      fewer.missingFiles.Sublist detection.missingFiles := by
  have hreads := detector.readsAll_of_detect read hdetect
  have hreads' := detector.readsAll_of_subset read hlonger hreads
  obtain ⟨_, hsame, hfindings, hmissing, _⟩ := detector.detect_of_readsAll read hreads
  obtain rfl := Except.ok.inj (hsame.symm.trans hdetect)
  obtain ⟨fewer, hfewer, hfewerFindings, hfewerMissing, _⟩ :=
    detect_of_readsAll _ read hreads'
  refine ⟨fewer, hfewer, fun result => ?_, ?_, ?_⟩
  · rw [mayEnd_of_readsAll _ read hreads', hfewer]
  · rw [hfindings, hfewerFindings]
    exact List.Sublist.flatMap_right _ fun entry _ => detector.flagged_sublist read hlonger entry
  · rw [hmissing, hfewerMissing]
    exact detector.filterMap_missing?_sublist read hlonger report.entries

/-- Leaving out files is removing their rows from the report, and nothing else.  A pass acts and
ends as the one without patterns does over the rows that remain, and several workers may end with
the same results there.  Two readers that agree on the files of these rows make no difference,
whatever they say of others.  And a pass that succeeds, with one worker or several, also succeeds
with more patterns, with some of the findings and of the missing files in the same order. -/
theorem exclusion_removes_rows (report : CoverageReport) :
    (∀ (m : Type → Type) [Monad m] [LawfulMonad m] (read : SourceReader m),
      detector.detect read report =
        detect ⟨detector.root, []⟩ read (report.without detector.exclude)) ∧
    (∀ read result, detector.MayEnd read report result ↔
      MayEnd ⟨detector.root, []⟩ read (report.without detector.exclude) result) ∧
    (∀ read read', detector.Agree report read read' →
      (detector.detect (m := Id) read report).run =
          (detector.detect (m := Id) read' report).run ∧
        ∀ order, (detector.detectInParallel (m := Id) order read report).run =
          (detector.detectInParallel (m := Id) order read' report).run) ∧
    (∀ read longer detection, detector.exclude ⊆ longer →
      (detector.detect (m := Id) read report).run = .ok detection ∨
          detector.MayEnd read report (.ok detection) →
        ∃ fewer, (detect (m := Id) ⟨detector.root, longer⟩ read report).run = .ok fewer ∧
          (∀ result, MayEnd ⟨detector.root, longer⟩ read report result ↔ .ok fewer = result) ∧
          fewer.findings.Sublist detection.findings ∧
          fewer.missingFiles.Sublist detection.missingFiles) := by
  refine ⟨?_, ?_, ?_, ?_⟩
  · intro m _ _ read
    exact detector.detect_without read report
  · intro read result
    exact detector.mayEnd_without read
  · intro read read' hagree
    exact ⟨hagree.detect_eq, hagree.detectInParallel_eq⟩
  · intro read longer detection hlonger hends
    exact detector.detect_of_subset read hlonger
      (hends.elim id (detector.detect_of_mayEnd read))

/-- A file that is left out may as well be unreadable, and leaving out one more is no harm. -/
theorem exclusion_removes_rows_unreadable :
    let report : CoverageReport :=
      { entries := [("old\\a.py", .ofList [2]), ("b.py", .ofList [2])] }
    let source : Except Fault (Option String) := .ok (some "def f():\n    return 1\n")
    let read : String → Except Fault (Option String) := fun _ => source
    let read' : String → Except Fault (Option String) :=
      fun path => if path = "src/b.py" then source else .error (.io path "denied")
    let found : Detection :=
      { findings := [{ file := "b.py", name := "f", line := 1 }], filesChecked := 1 }
    (detect (m := Id) ⟨"src", ["old/*"]⟩ read report).run = .ok found ∧
      (detect (m := Id) ⟨"src", ["old/*"]⟩ read' report).run = .ok found ∧
      ∃ fewer, (detect (m := Id) ⟨"src", ["b.*", "old/*"]⟩ read report).run = .ok fewer ∧
        fewer.findings.Sublist found.findings := by
  intro report source read read' found
  obtain ⟨_, _, hagree, hlonger⟩ := exclusion_removes_rows ⟨"src", ["old/*"]⟩ report
  have hfound : (detect (m := Id) ⟨"src", ["old/*"]⟩ read report).run = .ok found := by
    decide +kernel
  have hpaths : (report.without ["old/*"]).paths = ["b.py"] := by decide +kernel
  have hsame := (hagree read read' fun path hpath => by
    rw [hpaths, List.mem_singleton] at hpath
    rw [hpath]
    decide +kernel).1
  refine ⟨hfound, hsame ▸ hfound, ?_⟩
  obtain ⟨fewer, hfewer, _, hfindings, _⟩ :=
    hlonger read ["b.*", "old/*"] found (by simp) (.inl hfound)
  exact ⟨fewer, hfewer, hfindings⟩

end Detector

end Untested
