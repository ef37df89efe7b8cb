/-
# What a pass finds

A pass over the files of a report either finds exactly the functions that never ran, or ends with
the fault of the first file that fails.  No file is lost: each one is checked, missing or left
out.
-/

import Untested.Proofs.Detection.Outcome

namespace Untested.Detector

/-- Going through files one after the other gives all outcomes or the first fault. -/
theorem checkAll_run (check : String × LineSet → Id (Except Fault FileOutcome))
    (entries : List (String × LineSet)) :
    (checkAll check entries).run = (entries.map fun entry => (check entry).run).mapM id := by
  induction entries with
  | nil => rfl
  | cons entry entries ih =>
      have hstep : (checkAll check (entry :: entries)).run =
          (andThen (checkAll check entries) (check entry).run).run := by
        rw [checkAll_cons]
        rfl
      rw [hstep, List.map_cons, List.mapM_cons, ← ih]
      cases (check entry).run with
      | error fault => rfl
      | ok outcome =>
          show (checkAll check entries).run.map _ = _
          cases (checkAll check entries).run <;> rfl

variable (detector : Detector) (read : String → Except Fault (Option String))

/-- A pass puts the outcomes of all files together, unless there is a fault among them. -/
theorem detect_run (report : CoverageReport) :
    (detector.detect (m := Id) read report).run =
      ((report.entries.map (detector.outcome read)).mapM id).map .ofOutcomes := by
  have hstep : (detector.detect (m := Id) read report).run =
      (checkAll (detector.check (m := Id) read) report.entries).run.map .ofOutcomes := rfl
  rw [hstep, checkAll_run]
  rfl

/-- The outcomes of files that do not fail the pass. -/
theorem ofOutcomes_of_map_ok {entries : List (String × LineSet)} {outcomes : List FileOutcome}
    (houtcomes : entries.map (detector.outcome read) = outcomes.map .ok) :
    outcomes.flatMap FileOutcome.findings = entries.flatMap (detector.flagged read) ∧
      outcomes.filterMap FileOutcome.missing? = entries.filterMap (detector.missing? read) ∧
      outcomes.countP FileOutcome.isExcluded =
        entries.countP fun entry => detector.isExcluded entry.1 := by
  induction entries generalizing outcomes with
  | nil =>
      obtain rfl : outcomes = [] := by simpa using houtcomes.symm
      exact ⟨rfl, rfl, rfl⟩
  | cons entry entries ih =>
      cases outcomes with
      | nil => cases houtcomes
      | cons outcome outcomes =>
          rw [List.map_cons, List.map_cons, List.cons.injEq] at houtcomes
          obtain ⟨hfindings, hmissing, hexcluded⟩ := detector.outcome_ok read houtcomes.1
          obtain ⟨ihfindings, ihmissing, ihexcluded⟩ := ih houtcomes.2
          rw [List.flatMap_cons, List.flatMap_cons, List.filterMap_cons, List.filterMap_cons,
            List.countP_cons, List.countP_cons, hfindings, hmissing, hexcluded, ihfindings,
            ihmissing, ihexcluded]
          exact ⟨rfl, rfl, rfl⟩

theorem not_failsWith_of_map_ok {entries : List (String × LineSet)} {outcomes : List FileOutcome}
    (houtcomes : entries.map (detector.outcome read) = outcomes.map .ok)
    {entry : String × LineSet} (hentry : entry ∈ entries) (fault : Fault) :
    ¬ detector.FailsWith read entry fault := by
  intro hfails
  have hmem : detector.outcome read entry ∈ outcomes.map Except.ok :=
    houtcomes ▸ List.mem_map_of_mem hentry
  rw [(detector.outcome_error_iff read).2 hfails] at hmem
  simp at hmem

/-- When no file fails, there is an outcome for each of them. -/
theorem exists_outcomes_of_readsAll {report : CoverageReport}
    (hreads : detector.ReadsAll read report) :
    ∃ outcomes : List FileOutcome,
      report.entries.map (detector.outcome read) = outcomes.map .ok := by
  rcases forall_ok_or_first_error (report.entries.map (detector.outcome read)) with
    houtcomes | ⟨before, fault, after, houtcomes⟩
  · exact houtcomes
  · have hmem : .error fault ∈ report.entries.map (detector.outcome read) := by
      rw [houtcomes]
      exact List.mem_append_right _ List.mem_cons_self
    obtain ⟨entry, hentry, hfails⟩ := List.mem_map.1 hmem
    exact absurd ((detector.outcome_error_iff read).1 hfails)
      ((detector.readsAll_iff read).1 hreads entry hentry fault)

/-- When no file fails, a pass finds the functions that never ran, lists the missing files and
accounts for every file. -/
theorem detect_of_readsAll {report : CoverageReport} (hreads : detector.ReadsAll read report) :
    ∃ detection, (detector.detect (m := Id) read report).run = .ok detection ∧
      detection.findings = report.entries.flatMap (detector.flagged read) ∧
      detection.missingFiles = report.entries.filterMap (detector.missing? read) ∧
      detection.filesChecked + detection.missingFiles.length +
        (report.entries.countP fun entry => detector.isExcluded entry.1) = report.size := by
  obtain ⟨outcomes, houtcomes⟩ := detector.exists_outcomes_of_readsAll read hreads
  obtain ⟨hfindings, hmissing, hexcluded⟩ := detector.ofOutcomes_of_map_ok read houtcomes
  have hlength : outcomes.length = report.size := by
    have := congrArg List.length houtcomes
    rw [List.length_map, List.length_map] at this
    exact this.symm
  refine ⟨.ofOutcomes outcomes, by rw [detect_run, houtcomes, mapM_id_map_ok]; rfl, ?_⟩
  rw [Detection.ofOutcomes_eq]
  refine ⟨hfindings, hmissing, ?_⟩
  rw [← hexcluded, ← hlength]
  exact FileOutcome.count_eq_length outcomes

/-- When files fail, a pass ends with the fault of the first of them. -/
theorem detect_of_not_readsAll {report : CoverageReport}
    (hreads : ¬ detector.ReadsAll read report) :
    ∃ before entry after fault, report.entries = before ++ entry :: after ∧
      (∀ earlier ∈ before, ∀ other, ¬ detector.FailsWith read earlier other) ∧
      detector.FailsWith read entry fault ∧
      (detector.detect (m := Id) read report).run = .error fault := by
  rw [detect_run]
  rcases forall_ok_or_first_error (report.entries.map (detector.outcome read)) with
    ⟨outcomes, houtcomes⟩ | ⟨outcomes, fault, others, houtcomes⟩
  · exfalso
    apply hreads
    rw [readsAll_iff]
    exact fun entry hentry => detector.not_failsWith_of_map_ok read houtcomes hentry
  · obtain ⟨before, rest, hentries, hbefore, hrest⟩ := List.map_eq_append_iff.1 houtcomes
    obtain ⟨entry, after, rfl, hentry, _⟩ := List.map_eq_cons_iff.1 hrest
    refine ⟨before, entry, after, fault, hentries, ?_,
      (detector.outcome_error_iff read).1 hentry, ?_⟩
    · exact fun earlier hearlier => detector.not_failsWith_of_map_ok read hbefore hearlier
    · rw [houtcomes, mapM_id_first_error]
      rfl

/-- A pass is sound and complete.  If every file that is there and not left out can be used, the
findings are those of all functions at any depth that never ran, in report order and then in the
order of the source text, the missing files are listed in report order, and every file of the
report is accounted for.  Otherwise the pass ends with the fault of the first file that fails,
whatever the others hold. -/
theorem detect_spec (report : CoverageReport) :
    (detector.ReadsAll read report →
      ∃ detection, (detector.detect (m := Id) read report).run = .ok detection ∧
        detection.findings = report.entries.flatMap (detector.flagged read) ∧
        detection.missingFiles = report.entries.filterMap (detector.missing? read) ∧
        detection.filesChecked + detection.missingFiles.length +
          (report.entries.countP fun entry => detector.isExcluded entry.1) = report.size) ∧
    (¬ detector.ReadsAll read report →
      ∃ before entry after fault, report.entries = before ++ entry :: after ∧
        (∀ earlier ∈ before, ∀ other, ¬ detector.FailsWith read earlier other) ∧
        detector.FailsWith read entry fault ∧
        (detector.detect (m := Id) read report).run = .error fault) := by
  constructor
  · intro hreads
    exact detector.detect_of_readsAll read hreads
  · intro hreads
    exact detector.detect_of_not_readsAll read hreads

/-- A function is found although the one around it has run. -/
example : (detect (m := Id) ⟨"src", []⟩
    (fun _ => .ok (some "def f():\n    def g():\n        return 1\n    return 2\n"))
    { entries := [("a.py", .ofList [3])] }).run =
      .ok { findings := [{ file := "a.py", name := "g", line := 2 }], filesChecked := 1 } := by
  decide +kernel

end Untested.Detector
