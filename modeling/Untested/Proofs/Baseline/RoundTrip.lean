/-
# Baselines are saved and loaded

Wherever a baseline can be saved, loading the file gives the baseline again.  Findings that were
saved are all known afterwards, and they stay known while their definitions drift a little.
-/

import Untested.Proofs.Baseline.Document
import Untested.Proofs.Host.Saving

namespace Untested.Baseline

open Machine (Changes opened prepared directoryOf yields_create_iff yields_prepare_iff)
open Program (Yields yields_bind_iff yields_pure_iff)

variable {machine after : Machine} {path : String} {baseline : Baseline}

/-! ## Saving -/

/-- What is left to do of saving a baseline once the directories are made. -/
def writeOut (path : String) (baseline : Baseline) (made : Except AccessError Unit) :
    StateM Machine (Except BaselineFault Unit) := do
  match made with
  | .error cause => return .error (.unavailable cause)
  | .ok () =>
    match ← Machine.host.writeBuffered path baseline.pieces with
    | .error cause => return .error (.unavailable cause)
    | .ok (.error _) => return .error .malformed
    | .ok (.ok ()) => return .ok ()

theorem save_eq (path : String) (baseline : Baseline) :
    baseline.save Machine.host path =
      (if directoryOf path = "" then pure (.ok ())
        else Machine.host.makeDirectories (directoryOf path)) >>= writeOut path baseline := by
  rw [save, directoryOf]
  split <;> rfl

/-- The bytes of a baseline file whose refusal is heeded. -/
def heeded (baseline : Baseline) : List UInt8 :=
  Host.heeded [] 0 baseline.pieces

/-- Where a path can be opened, as much of a baseline arrives there as there is room for.  Saving it
fails only where there is no room for what is heeded. -/
theorem yields_save_fitting (baseline : Baseline) (hpath : machine.canSave path = true) :
    ∃ names after, Yields (baseline.save Machine.host path) machine
        (if machine.HasRoom baseline.heeded.length then .ok () else .error .malformed) after ∧
      Changes names machine after ∧ after.Holds path names (machine.fitting baseline.bytes) := by
  obtain ⟨files, hopened⟩ := Machine.canSave_iff.1 hpath
  obtain ⟨names, hchanges, hholds⟩ := Machine.exists_of_opened hopened
  rw [opened] at hopened
  split at hopened
  · cases hopened
  · rename_i made hmade
    have hcreate : ({ machine with files := made } : Machine).files.create
        (({ machine with files := made } : Machine).absolute path) = .ok files := hopened
    obtain ⟨after, hwrite, hchanges', hafter⟩ :=
      Machine.yields_writeBuffered baseline.pieces hcreate hholds
    rw [flatten_pieces] at hafter
    refine ⟨names, after, ?_, hchanges.trans hchanges', hafter⟩
    rw [save_eq, yields_bind_iff]
    refine ⟨.ok (), { machine with files := made }, yields_prepare_iff.2 ⟨made, hmade, rfl⟩, ?_⟩
    rw [writeOut, yields_bind_iff]
    refine ⟨_, after, hwrite, ?_⟩
    have hsame : ({ machine with files := made } : Machine).HasRoom
        (Host.heeded [] 0 baseline.pieces).length ↔ machine.HasRoom baseline.heeded.length :=
      Iff.rfl
    by_cases hroom : machine.HasRoom baseline.heeded.length
    · rw [if_pos hroom, if_pos (hsame.2 hroom)]
      exact yields_pure_iff.2 ⟨rfl, rfl⟩
    · rw [if_neg hroom, if_neg (mt hsame.1 hroom)]
      exact yields_pure_iff.2 ⟨rfl, rfl⟩

/-- A baseline file begins with what is heeded of it. -/
theorem exists_heeded_append (baseline : Baseline) :
    ∃ rest, baseline.heeded ++ rest = baseline.bytes ∧ rest.length ≤ Host.bufferCapacity := by
  rw [← flatten_pieces]
  exact Host.exists_heeded_append [] baseline.pieces 0 rfl (Nat.zero_le _)

theorem length_heeded_le (baseline : Baseline) :
    baseline.heeded.length ≤ baseline.bytes.length := by
  obtain ⟨rest, happend, _⟩ := baseline.exists_heeded_append
  rw [← happend, List.length_append]
  exact Nat.le_add_right _ _

/-- Where a path can be opened and there is room, a baseline is saved. -/
theorem yields_save (hpath : machine.canSave path = true)
    (hroom : machine.HasRoom baseline.bytes.length) :
    ∃ names after, Yields (baseline.save Machine.host path) machine (.ok ()) after ∧
      Changes names machine after ∧ after.Holds path names baseline.bytes := by
  have hsaved := yields_save_fitting baseline hpath
  rwa [if_pos (hroom.mono baseline.length_heeded_le), Machine.fitting_eq_self_iff.2 hroom] at hsaved

/-- A baseline is saved only where the path can be opened. -/
theorem canSave_of_yields_save
    (hsave : Yields (baseline.save Machine.host path) machine (.ok ()) after) :
    machine.canSave path = true := by
  rw [save_eq, yields_bind_iff] at hsave
  obtain ⟨made?, between, hmade, hsave⟩ := hsave
  cases made? with
  | error cause => cases (yields_pure_iff.1 hsave).1
  | ok _ =>
      obtain ⟨made, hprepared, rfl⟩ := yields_prepare_iff.1 hmade
      rw [writeOut, yields_bind_iff] at hsave
      obtain ⟨written?, written, hwritten, hsave⟩ := hsave
      match written? with
      | .error cause => cases (yields_pure_iff.1 hsave).1
      | .ok (.error cause) => cases (yields_pure_iff.1 hsave).1
      | .ok (.ok ()) =>
          obtain ⟨files, hfiles⟩ := Machine.create_of_yields_writeBuffered hwritten
          exact Machine.canSave_iff.2 ⟨files, by rw [opened, hprepared]; exact hfiles⟩

/-! ## Loading -/

/-- What is loaded is what the file contains. -/
theorem yields_load_of_read {content : List UInt8}
    (hread : Yields (Machine.host.read path) machine (.ok (.bytes content)) machine) :
    Yields (load Machine.host path) machine (read content) machine := by
  rw [load, yields_bind_iff]
  exact ⟨.ok (.bytes content), machine, hread, yields_pure_iff.2 ⟨rfl, rfl⟩⟩

/-- A baseline can be saved just where its path can be opened, and loading the saved file gives the
baseline again: the same version, the same time and the same fingerprints in order, whatever their
texts contain.  A baseline of another version is refused for its version, and no saved file is
malformed.  The numbers have to be words of 32 bits, and there has to be room for the file. -/
theorem load_save (path : String) (hlegal : baseline.IsLegal)
    (hroom : machine.HasRoom baseline.bytes.length) :
    ((∃ saved, Yields (baseline.save Machine.host path) machine (.ok ()) saved) ↔
        machine.canSave path = true) ∧
      ∀ saved, Yields (baseline.save Machine.host path) machine (.ok ()) saved →
        Yields (load Machine.host path) saved
          (if baseline.version = currentVersion then .ok baseline else .error .versionMismatch)
          saved := by
  constructor
  · constructor
    · rintro ⟨saved, hsave⟩
      exact canSave_of_yields_save hsave
    · intro hpath
      obtain ⟨_, saved, hsave, _, _⟩ := yields_save hpath hroom
      exact ⟨saved, hsave⟩
  · intro saved hsave
    obtain ⟨names, after, hsave', _, hholds⟩ := yields_save (canSave_of_yields_save hsave) hroom
    obtain ⟨_, rfl⟩ := hsave.unique hsave'
    rw [← read_written hlegal]
    exact yields_load_of_read hholds.yields_read

/-- A baseline with the most awkward of texts. -/
def awkward (version : Nat) : Baseline where
  version
  createdAt := "0\r"
  functions := [⟨"a \"b\"\\c.py", "f\n\t\x01", 1⟩, ⟨"𝒻é.py", "\x7f/", 4294967295⟩]

/-- Such a baseline is saved and loaded, unless its version is yet to come. -/
theorem load_save_awkward :
    (∃ saved, Yields ((awkward 1).save Machine.host "out/known") {} (.ok ()) saved ∧
      Yields (load Machine.host "out/known") saved (.ok (awkward 1)) saved) ∧
    ∃ saved, Yields ((awkward 2).save Machine.host "out/known") {} (.ok ()) saved ∧
      Yields (load Machine.host "out/known") saved (.error .versionMismatch) saved := by
  have hlegal (version : Nat) (hversion : version ≤ maxLine) : (awkward version).IsLegal :=
    ⟨hversion, (by decide +kernel : ∀ fingerprint ∈ (awkward 0).functions,
      fingerprint.line ≤ maxLine)⟩
  have hroom (count : Nat) : Machine.HasRoom {} count := fun room hroom => by cases hroom
  have hpath : Machine.canSave {} "out/known" = true := by decide +kernel
  constructor
  · obtain ⟨hiff, hload⟩ := load_save "out/known" (hlegal 1 (by decide)) (hroom _)
    obtain ⟨saved, hsave⟩ := hiff.2 hpath
    exact ⟨saved, hsave, hload saved hsave⟩
  · obtain ⟨hiff, hload⟩ := load_save "out/known" (hlegal 2 (by decide)) (hroom _)
    obtain ⟨saved, hsave⟩ := hiff.2 hpath
    exact ⟨saved, hsave, hload saved hsave⟩

/-! ## Findings -/

/-- Whether a finding may be an earlier one that has moved: the file and the name are the same, and
the line is not too far away. -/
structure DriftsFrom (finding earlier : Finding) : Prop where
  file : finding.file = earlier.file
  name : finding.name = earlier.name
  below : finding.line ≤ earlier.line + 10
  above : earlier.line ≤ finding.line + 10

theorem recognizes_ofFinding_iff {finding earlier : Finding} :
    (Fingerprint.ofFinding earlier).recognizes finding = true ↔ DriftsFrom finding earlier := by
  simp only [Fingerprint.recognizes, Bool.and_eq_true, decide_eq_true_eq]
  constructor
  · rintro ⟨⟨⟨hfile, hname⟩, habove⟩, hbelow⟩
    exact ⟨hfile.symm, hname.symm, hbelow, habove⟩
  · rintro ⟨hfile, hname, hbelow, habove⟩
    exact ⟨⟨⟨hfile.symm, hname.symm⟩, habove⟩, hbelow⟩

theorem driftsFrom_self (finding : Finding) : DriftsFrom finding finding :=
  ⟨rfl, rfl, Nat.le_add_right _ _, Nat.le_add_right _ _⟩

/-- A finding is known to the baseline of some findings if it drifts from one of them. -/
theorem isKnown_ofFindings_iff {seconds : Nat} {findings : List Finding} {finding : Finding} :
    (ofFindings seconds findings).isKnown finding = true ↔
      ∃ earlier ∈ findings, DriftsFrom finding earlier := by
  rw [isKnown, ofFindings, List.any_map, List.any_eq_true]
  simp only [Function.comp_apply, recognizes_ofFinding_iff]

/-- Findings that have only drifted are all known. -/
theorem divide_ofFindings {seconds : Nat} {findings drifted : List Finding}
    (hdrifted : ∀ finding ∈ drifted, ∃ earlier ∈ findings, DriftsFrom finding earlier) :
    (ofFindings seconds findings).divide drifted = ([], drifted) := by
  have hknown : ∀ finding ∈ drifted, (ofFindings seconds findings).isKnown finding = true :=
    fun finding hfinding => isKnown_ofFindings_iff.2 (hdrifted finding hfinding)
  rw [divide, List.partition_eq_filter_filter, List.filter_eq_nil_iff.2, List.filter_eq_self.2]
  · simpa using hknown
  · simpa using hknown

theorem isLegal_ofFindings {seconds : Nat} {findings : List Finding}
    (hlines : ∀ finding ∈ findings, finding.line ≤ maxLine) :
    (ofFindings seconds findings).IsLegal := by
  constructor
  · show currentVersion ≤ maxLine
    decide
  · intro fingerprint hfingerprint
    obtain ⟨finding, hfinding, rfl⟩ := List.mem_map.1 hfingerprint
    exact hlines finding hfinding

theorem read_ofFindings (seconds : Nat) {findings : List Finding}
    (hlines : ∀ finding ∈ findings, finding.line ≤ maxLine) :
    read (ofFindings seconds findings).bytes = .ok (ofFindings seconds findings) :=
  (read_written (isLegal_ofFindings hlines)).trans (if_pos rfl)

/-- The baseline of some findings is saved and loaded wherever it can be, and knows all of them, in
order, and whatever has only drifted from one of them. -/
theorem load_save_ofFindings {seconds : Nat} {findings : List Finding}
    (hpath : machine.canSave path = true)
    (hroom : machine.HasRoom (ofFindings seconds findings).bytes.length)
    (hlines : ∀ finding ∈ findings, finding.line ≤ maxLine) :
    ∃ saved loaded,
      Yields ((ofFindings seconds findings).save Machine.host path) machine (.ok ()) saved ∧
      Yields (load Machine.host path) saved (.ok loaded) saved ∧
      loaded.divide findings = ([], findings) ∧
      ∀ drifted, (∀ finding ∈ drifted, ∃ earlier ∈ findings, DriftsFrom finding earlier) →
        (loaded.divide drifted).1 = [] := by
  obtain ⟨_, saved, hsave, _, hholds⟩ := yields_save hpath hroom
  refine ⟨saved, ofFindings seconds findings, hsave, ?_, ?_, ?_⟩
  · rw [← read_ofFindings seconds hlines]
    exact yields_load_of_read hholds.yields_read
  · exact divide_ofFindings fun finding hfinding => ⟨finding, hfinding, driftsFrom_self finding⟩
  · intro drifted hdrifted
    rw [divide_ofFindings hdrifted]

end Untested.Baseline
