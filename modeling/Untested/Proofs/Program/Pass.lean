/-
# The pass of a run

However a run looks for findings, with one worker or with several, and whatever files it leaves
out: a pass that succeeds is that of one worker over the report without these files.
-/

import Untested.Proofs.Detection.Exclusion
import Untested.Proofs.Detection.Parallel
import Untested.Proofs.Program.Step

namespace Untested.Program

variable {σ : Type}

/-- Files that are all looked into without a fault may as well be looked into one after the
other. -/
theorem yields_checkAll {check : String × LineSet → StateM σ (Except Fault FileOutcome)}
    {entries : List (String × LineSet)} {outcomes : List FileOutcome} {before after : σ}
    (hmapM : Yields (entries.mapM check) before (outcomes.map .ok) after) :
    Yields (Detector.checkAll check entries) before (.ok outcomes) after := by
  induction entries generalizing outcomes before with
  | nil =>
      rw [List.mapM_nil, yields_pure_iff] at hmapM
      obtain ⟨houtcomes, rfl⟩ := hmapM
      obtain rfl : outcomes = [] := by simpa using houtcomes.symm
      exact yields_pure_iff.2 ⟨rfl, rfl⟩
  | cons entry entries ih =>
      rw [List.mapM_cons, yields_bind_iff] at hmapM
      obtain ⟨result, between, hresult, hrest⟩ := hmapM
      rw [yields_bind_iff] at hrest
      obtain ⟨results, last, hresults, hpure⟩ := hrest
      obtain ⟨houtcomes, rfl⟩ := yields_pure_iff.1 hpure
      cases outcomes with
      | nil => cases houtcomes
      | cons outcome outcomes =>
          rw [List.map_cons, List.cons.injEq] at houtcomes
          obtain ⟨rfl, rfl⟩ := houtcomes
          rw [Detector.checkAll_cons, yields_bind_iff]
          refine ⟨.ok outcome, between, hresult, ?_⟩
          rw [Detector.andThen, yields_map_iff]
          exact ⟨.ok outcomes, ih hresults, rfl⟩

/-- When several workers end without a fault, one worker finds the same. -/
theorem yields_detect_of_parallel {detector : Detector} {order : List Nat}
    {read : SourceReader (StateM σ)} {report : CoverageReport} {detection : Detection}
    {before after : σ}
    (hparallel :
      Yields (detector.detectInParallel order read report) before (.ok detection) after) :
    Yields (detector.detect read report) before (.ok detection) after := by
  rw [Detector.detectInParallel, yields_bind_iff] at hparallel
  obtain ⟨results, between, hresults, hpure⟩ := hparallel
  obtain ⟨hgather, rfl⟩ := yields_pure_iff.1 hpure
  cases hgathered : Detector.gather order results with
  | error fault =>
      rw [hgathered] at hgather
      cases hgather
  | ok outcomes =>
      rw [hgathered] at hgather
      obtain rfl : results = outcomes.map .ok := Detector.eq_map_ok_of_gather hgathered
      rw [Detector.detect, yields_bind_iff]
      exact ⟨.ok outcomes, between, yields_checkAll hresults, yields_pure_iff.2 ⟨hgather, rfl⟩⟩

/-- The pass of a run that succeeds. -/
theorem yields_detect_of_gives {host : Host (StateM σ)} {options : Options} {config : Config}
    {report : CoverageReport} {detection : Detection} {before after : σ}
    (hpass : Gives (Program.detection host options config report) before detection after) :
    Yields
      (Detector.detect ⟨config.sourceRootIn (project options), []⟩ host.readIfExists
        (report.without config.exclude))
      before (.ok detection) after := by
  have hdetect : Yields
      (Detector.detect ⟨config.sourceRootIn (project options), config.exclude⟩ host.readIfExists
        report) before (.ok detection) after := by
    rw [Program.detection] at hpass
    split at hpass
    · exact yields_detect_of_parallel (gives_unlessFault_iff.1 hpass)
    · exact gives_unlessFault_iff.1 hpass
  rwa [Detector.detect_without] at hdetect

end Untested.Program
