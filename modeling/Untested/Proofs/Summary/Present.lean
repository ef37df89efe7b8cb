/-
# What is presented can be read back

A summary leaves a run as lines on its outputs, or as a document on one of them or in a file.
Whoever reads the lines comes by the places of the findings, and whoever reads the document by the
summary.
-/

import Untested.Proofs.Program.Step
import Untested.Proofs.Summary.Document
import Untested.Proofs.Summary.Terminal
import Untested.Summary.Present

namespace Untested.Summary

open Program (Yields yields_bind_iff yields_map_iff yields_pure_iff)

variable {σ : Type} {host : Host (StateM σ)} {output : Option String} {isQuiet : Bool}
  {summary : Summary} {before after : σ} {result : Except Fault Unit}

/-! ## What reaches the computer -/

/-- An action that cannot fail is carried out as it is. -/
theorem yields_done_iff {action : StateM σ Unit} :
    Yields (action >>= fun _ => pure (.ok ())) before result after ↔
      result = .ok () ∧ Yields action before () after := by
  rw [yields_bind_iff]
  constructor
  · rintro ⟨_, _, haction, hresult⟩
    obtain ⟨rfl, rfl⟩ := yields_pure_iff.1 hresult
    exact ⟨rfl, haction⟩
  · rintro ⟨rfl, haction⟩
    exact ⟨(), after, haction, yields_pure_iff.2 ⟨rfl, rfl⟩⟩

/-- Lines go to the output for complaints first and then to that for results. -/
theorem yields_present_lines_iff :
    Yields (present host .terminal output isQuiet summary) before result after ↔
      result = .ok () ∧ ∃ complained,
        Yields (host.complain (Terminal.complaints host.usesColor isQuiet summary)) before ()
          complained ∧
        Yields (host.print (Terminal.results host.usesColor isQuiet summary)) complained ()
          after := by
  refine yields_done_iff.trans (and_congr_right fun _ => ?_)
  rw [showLines, yields_bind_iff]
  constructor
  · rintro ⟨_, complained, hcomplain, hprint⟩
    exact ⟨complained, hcomplain, hprint⟩
  · rintro ⟨complained, hcomplain, hprint⟩
    exact ⟨(), complained, hcomplain, hprint⟩

/-- A document goes to the output for results. -/
theorem yields_present_document_iff :
    Yields (present host .json none isQuiet summary) before result after ↔
      result = .ok () ∧ Yields (host.printLine summary.document) before () after :=
  yields_done_iff

/-- To save a document is to write its bytes, where a refusal is a fault that names the file. -/
theorem yields_saveDocument_iff {path : String} :
    Yields (saveDocument host path summary) before result after ↔
      ∃ written, Yields (host.write path (Text.encode summary.document)) before written after ∧
        written.mapError (fun cause => .io path cause.message) = result := by
  rw [saveDocument, yields_bind_iff]
  constructor
  · rintro ⟨written, _, hwrite, hresult⟩
    cases written with
    | error cause =>
        obtain ⟨rfl, rfl⟩ := yields_pure_iff.1 hresult
        exact ⟨.error cause, hwrite, rfl⟩
    | ok _ =>
        obtain ⟨rfl, rfl⟩ := yields_pure_iff.1 hresult
        exact ⟨.ok (), hwrite, rfl⟩
  · rintro ⟨written, hwrite, rfl⟩
    refine ⟨written, after, hwrite, ?_⟩
    cases written with
    | error cause => exact yields_pure_iff.2 ⟨rfl, rfl⟩
    | ok _ => exact yields_pure_iff.2 ⟨rfl, rfl⟩

/-- A document goes to a file, and the complaints say where it is. -/
theorem yields_present_file_iff {path : String} :
    Yields (present host .json (some path) isQuiet summary) before (.ok ()) after ↔
      ∃ saved, Yields (host.write path (Text.encode summary.document)) before (.ok ()) saved ∧
        Yields (host.complainLine ("Report written to: " ++ path)) saved () after := by
  rw [present, yields_bind_iff]
  constructor
  · rintro ⟨saved?, saved, hsave, hrest⟩
    cases saved? with
    | error fault => cases (yields_pure_iff.1 hrest).1
    | ok _ =>
        obtain ⟨written, hwrite, hsaved⟩ := yields_saveDocument_iff.1 hsave
        obtain ⟨_, hcomplain⟩ := yields_done_iff.1 hrest
        cases written with
        | error cause => cases hsaved
        | ok _ => exact ⟨saved, hwrite, hcomplain⟩
  · rintro ⟨saved, hwrite, hcomplain⟩
    exact ⟨.ok (), saved, yields_saveDocument_iff.2 ⟨.ok (), hwrite, rfl⟩,
      yields_done_iff.2 ⟨rfl, hcomplain⟩⟩

/-- A file that refuses the document is a fault, and then nothing more is written. -/
theorem yields_present_refused_iff {path : String} {fault : Fault} :
    Yields (present host .json (some path) isQuiet summary) before (.error fault) after ↔
      ∃ cause, Yields (host.write path (Text.encode summary.document)) before (.error cause)
        after ∧ fault = .io path cause.message := by
  rw [present, yields_bind_iff]
  constructor
  · rintro ⟨saved?, saved, hsave, hrest⟩
    obtain ⟨written, hwrite, rfl⟩ := yields_saveDocument_iff.1 hsave
    cases written with
    | error cause =>
        obtain ⟨hfault, rfl⟩ := yields_pure_iff.1 hrest
        exact ⟨cause, hwrite, (Except.error.inj hfault).symm⟩
    | ok _ => cases (yields_done_iff.1 hrest).1
  · rintro ⟨cause, hwrite, rfl⟩
    exact ⟨_, after, yields_saveDocument_iff.2 ⟨.error cause, hwrite, rfl⟩,
      yields_pure_iff.2 ⟨rfl, rfl⟩⟩

/-! ## What a reader comes by -/

/-- A summary is shown when a reader of what has reached the computer comes by its findings. -/
inductive Shows (host : Host (StateM σ)) (isQuiet : Bool) (summary : Summary) (before after : σ) :
    Format → Option String → Prop where
  /-- The complaints name the places of the findings.  Something is said among the results when there
  are none, unless the run is quiet. -/
  | lines {output : Option String} {complaints results : String} {complained : σ}
      (complain : Yields (host.complain complaints) before () complained)
      (print : Yields (host.print results) complained () after)
      (places : Terminal.readFindings complaints = summary.findings.map Finding.place)
      (clear : results = "" ↔ summary.findings ≠ [] ∨ isQuiet = true) :
      Shows host isQuiet summary before after .terminal output
  /-- A document among the results says what the summary says. -/
  | document {document : String}
      (print : Yields (host.printLine document) before () after)
      (reading : Reading.ofBytes? (Text.encode document) =
        some ⟨documentVersion, summary.findings.length, summary⟩) :
      Shows host isQuiet summary before after .json none
  /-- A document in a file says so, and the complaints say where it is. -/
  | file {path : String} {bytes : List UInt8} {saved : σ}
      (write : Yields (host.write path bytes) before (.ok ()) saved)
      (complain : Yields (host.complainLine ("Report written to: " ++ path)) saved () after)
      (reading : Reading.ofBytes? bytes =
        some ⟨documentVersion, summary.findings.length, summary⟩) :
      Shows host isQuiet summary before after .json (some path)

/-- What is presented is shown, whatever the format and wherever it goes. -/
theorem shows_of_yields_present {format : Format}
    (hlegible : ∀ finding ∈ summary.findings, finding.IsLegible)
    (hpresent : Yields (present host format output isQuiet summary) before (.ok ()) after) :
    Shows host isQuiet summary before after format output := by
  cases format with
  | terminal =>
      obtain ⟨_, complained, hcomplain, hprint⟩ := yields_present_lines_iff.1 hpresent
      exact .lines hcomplain hprint (Terminal.readFindings_complaints hlegible)
        Terminal.results_eq_empty_iff
  | json =>
      cases output with
      | none =>
          exact .document (yields_present_document_iff.1 hpresent).2 (Reading.ofBytes?_encode _)
      | some path =>
          obtain ⟨saved, hwrite, hcomplain⟩ := yields_present_file_iff.1 hpresent
          exact .file hwrite hcomplain (Reading.ofBytes?_encode _)

end Untested.Summary
