/-
# Findings of a run are legible

A run takes the files of its findings from a coverage table, in which blanks part the columns, and
the names from source texts, in which they are words.  So every finding has a line of its own among
the complaints, and the line tells its parts apart.
-/

import Untested.Proofs.Coverage.Rows
import Untested.Proofs.Program.Pass
import Untested.Proofs.Python.Names
import Untested.Proofs.Summary.Terminal

namespace Untested

open Text

namespace Detector

theorem isLegible_of_mem_findingsIn {file path : String} {missing : LineSet} {source : List Char}
    {body : List Python.Statement} (hfile : IsSolid file.toList)
    (hparse : Python.parse path source = .ok body) :
    ∀ finding ∈ findingsIn file missing body, finding.IsLegible := by
  intro finding hfinding
  obtain ⟨record, hrecord, rfl⟩ := List.mem_map.1 hfinding
  exact ⟨hfile,
    Python.newline_not_mem_name_of_parse hparse (List.mem_filter.1 hrecord).1⟩

/-- Whatever comes out when a file is read, what is learnt of it is legible. -/
theorem isLegible_of_learnt {path : String} {entry : String × LineSet}
    {result : Except Fault (Option String)} {outcome : FileOutcome}
    (hfile : IsSolid entry.1.toList) (hlearnt : learnt path entry result = .ok outcome) :
    ∀ finding ∈ outcome.findings, finding.IsLegible := by
  have hlearns := learns_learnt path entry result
  rw [hlearnt] at hlearns
  cases hlearns with
  | absent => exact fun _ hfinding => absurd hfinding List.not_mem_nil
  | parsed hparse => exact isLegible_of_mem_findingsIn hfile hparse

end Detector

namespace Program

variable {σ : Type} {before after : σ}

/-! ## Passes -/

section

variable {detector : Detector} {read : SourceReader (StateM σ)}

theorem isLegible_of_check {entry : String × LineSet} {outcome : FileOutcome}
    (hfile : IsSolid entry.1.toList)
    (hcheck : Yields (detector.check read entry) before (.ok outcome) after) :
    ∀ finding ∈ outcome.findings, finding.IsLegible := by
  cases hexcluded : detector.isExcluded entry.1 with
  | true =>
      rw [detector.check_of_excluded hexcluded, yields_pure_iff] at hcheck
      obtain rfl := Except.ok.inj hcheck.1
      exact fun _ hfinding => absurd hfinding List.not_mem_nil
  | false =>
      rw [detector.check_of_not_excluded hexcluded, yields_map_iff] at hcheck
      obtain ⟨result, _, hlearnt⟩ := hcheck
      exact Detector.isLegible_of_learnt hfile hlearnt

theorem isLegible_of_checkAll {entries : List (String × LineSet)} {outcomes : List FileOutcome}
    (hfiles : ∀ entry ∈ entries, IsSolid entry.1.toList)
    (hcheckAll : Yields (Detector.checkAll (detector.check read) entries) before (.ok outcomes)
      after) :
    ∀ outcome ∈ outcomes, ∀ finding ∈ outcome.findings, finding.IsLegible := by
  induction entries generalizing outcomes before with
  | nil =>
      obtain rfl := Except.ok.inj (yields_pure_iff.1 hcheckAll).1
      exact fun _ houtcome => absurd houtcome List.not_mem_nil
  | cons entry entries ih =>
      rw [List.forall_mem_cons] at hfiles
      rw [Detector.checkAll_cons, yields_bind_iff] at hcheckAll
      obtain ⟨result, between, hresult, hrest⟩ := hcheckAll
      cases result with
      | error fault => cases (yields_pure_iff.1 hrest).1
      | ok outcome =>
          obtain ⟨results, hresults, houtcomes⟩ := yields_map_iff.1 hrest
          cases results with
          | error fault => cases houtcomes
          | ok others =>
              obtain rfl := Except.ok.inj houtcomes
              exact List.forall_mem_cons.2
                ⟨isLegible_of_check hfiles.1 hresult, ih hfiles.2 hresults⟩

/-- A pass over a report without blanks in its paths. -/
theorem isLegible_of_detect {report : CoverageReport} {detection : Detection}
    (hfiles : ∀ path ∈ report.paths, IsSolid path.toList)
    (hdetect : Yields (detector.detect read report) before (.ok detection) after) :
    ∀ finding ∈ detection.findings, finding.IsLegible := by
  rw [Detector.detect, yields_bind_iff] at hdetect
  obtain ⟨result, between, hresult, hpure⟩ := hdetect
  cases result with
  | error fault => cases (yields_pure_iff.1 hpure).1
  | ok outcomes =>
      obtain rfl := Except.ok.inj (yields_pure_iff.1 hpure).1
      have hentries : ∀ entry ∈ report.entries, IsSolid entry.1.toList :=
        fun entry hentry => hfiles entry.1 (List.mem_map_of_mem hentry)
      rw [Detection.ofOutcomes_eq]
      intro finding hfinding
      obtain ⟨outcome, houtcome, hfinding⟩ := List.mem_flatMap.1 hfinding
      exact isLegible_of_checkAll hentries hresult outcome houtcome finding hfinding

end

/-! ## Reports -/

section

variable {host : Host (StateM σ)} {options : Options} {config : Config} {result : CoverageReport}

theorem read_of_reportIn {bytes : List UInt8}
    (hreport : Gives (reportIn bytes) before result after) :
    CoverageTable.read bytes = .ok result :=
  (yields_pure_iff.1 (gives_unlessFault_iff.1 hreport)).1

theorem exists_read_of_reportAt {path : String}
    (hreport : Gives (reportAt host path) before result after) :
    ∃ bytes, CoverageTable.read bytes = .ok result := by
  rw [reportAt] at hreport
  obtain ⟨contents?, between, _, hrest⟩ := gives_bind_iff.1 hreport
  cases contents? with
  | error cause => exact absurd hrest not_gives_throw
  | ok contents =>
      cases contents with
      | unreadable cause => exact absurd hrest not_gives_throw
      | bytes content => exact ⟨content, read_of_reportIn hrest⟩

/-- Wherever the report of a run comes from, it is read from a table. -/
theorem exists_read_of_report (hreport : Gives (report host options config) before result after) :
    ∃ bytes, CoverageTable.read bytes = .ok result := by
  rw [report] at hreport
  split at hreport
  · obtain ⟨bytes, _, _, hrest⟩ := gives_bind_iff.1 hreport
    exact ⟨bytes, read_of_reportIn hrest⟩
  · exact exists_read_of_reportAt hreport
  · obtain ⟨name, _, _, hrest⟩ := gives_bind_iff.1 hreport
    obtain ⟨table, _, _, hrest⟩ := gives_bind_iff.1 hrest
    exact ⟨_, read_of_reportIn hrest⟩

/-- What is found in the files of such a report is legible, whatever files are left out. -/
theorem isLegible_of_report {detector : Detector} {read : SourceReader (StateM σ)}
    {patterns : List String} {detection : Detection} {measured searched : σ}
    (hreport : Gives (report host options config) before result measured)
    (hdetect : Yields (detector.detect read (result.without patterns)) measured (.ok detection)
      searched) :
    ∀ finding ∈ detection.findings, finding.IsLegible := by
  obtain ⟨bytes, hread⟩ := exists_read_of_report hreport
  refine isLegible_of_detect (fun path hpath => CoverageTable.isSolid_of_read hread ?_) hdetect
  obtain ⟨entry, hentry, rfl⟩ := List.mem_map.1 hpath
  exact List.mem_map_of_mem (List.mem_filter.1 hentry).1

end

end Program

end Untested
