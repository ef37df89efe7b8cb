/-
# Documents say what their summaries say

A program that reads the document of a summary looks its members up by name.  It comes by every
part of the summary in this way, whatever characters the texts contain, so no two summaries have
the same document.
-/

import Untested.Proofs.Json.Document
import Untested.Summary.Document

namespace Untested

namespace JsonValue

/-- A natural number of any size, written without sign, point and exponent. -/
def count? : JsonValue → Option Nat
  | number literal =>
    if literal.all Text.isDigit then some (Text.decimalValue literal) else none
  | _ => none

def flag? : JsonValue → Option Bool
  | bool value => some value
  | _ => none

@[simp]
theorem count?_ofNat (n : Nat) : (ofNat n).count? = some n := by
  have hdigits : (Text.decimalDigits n).all Text.isDigit = true :=
    List.all_eq_true.2 fun c => Text.isDigit_of_mem_decimalDigits
  rw [ofNat, count?, if_pos hdigits, Text.decimalValue_decimalDigits]

@[simp]
theorem flag?_bool (value : Bool) : (bool value).flag? = some value := rfl

end JsonValue

namespace Finding

/-- The finding that a JSON value denotes. -/
def ofJson? (value : JsonValue) : Option Finding := do
  match ← value.record? ["file", "name", "line", "is_async"] with
  | [file, name, line, isAsync] =>
    return {
      file := ← file.text?
      name := ← name.text?
      line := ← line.count?
      isAsync := ← isAsync.flag? }
  | _ => failure

theorem isPlain_toJson (finding : Finding) : finding.toJson.IsPlain := by
  apply JsonValue.IsPlain.ofMembers
  simp only [List.forall_mem_cons]
  exact ⟨.ofText _, .ofText _, .ofNat _, .bool _, by simp⟩

theorem ofJson?_toJson (finding : Finding) : ofJson? finding.toJson = some finding := by
  have hrecord : finding.toJson.record? ["file", "name", "line", "is_async"] =
      some [.ofText finding.file, .ofText finding.name, .ofNat finding.line,
        .bool finding.isAsync] :=
    JsonValue.record?_ofMembers
      (show ["file", "name", "line", "is_async"].Nodup by decide)
  simp only [ofJson?, hrecord, Option.bind_eq_bind, Option.bind_some, JsonValue.text?_ofText,
    JsonValue.count?_ofNat, JsonValue.flag?_bool]
  rfl

end Finding

namespace Summary

/-- What a document says. -/
structure Reading where
  version : String
  /-- The number of findings, as it is stated. -/
  total : Nat
  summary : Summary
deriving DecidableEq, Repr

/-- What a JSON value says as a document. -/
def Reading.ofJson? (value : JsonValue) : Option Reading := do
  let names := ["version", "total", "files_checked", "baselined", "functions", "missing_files"]
  match ← value.record? names with
  | [version, total, filesChecked, baselined, findings, missingFiles] =>
    return {
      version := ← version.text?
      total := ← total.count?
      summary := {
        findings := ← (← findings.items?).mapM Finding.ofJson?
        missingFiles := ← (← missingFiles.items?).mapM JsonValue.text?
        filesChecked := ← filesChecked.count?
        baselined := ← baselined.count? } }
  | _ => failure

/-- What the bytes of a document say. -/
def Reading.ofBytes? (bytes : List UInt8) : Option Reading :=
  (JsonValue.ofBytes? bytes).bind ofJson?

theorem isPlain_toJson (summary : Summary) : summary.toJson.IsPlain := by
  have hfindings : JsonValue.IsPlain (.array (summary.findings.map Finding.toJson)) := by
    apply JsonValue.IsPlain.array
    intro item hitem
    obtain ⟨finding, _, rfl⟩ := List.mem_map.1 hitem
    exact finding.isPlain_toJson
  have hmissing : JsonValue.IsPlain (.array (summary.missingFiles.map .ofText)) := by
    apply JsonValue.IsPlain.array
    intro item hitem
    obtain ⟨path, _, rfl⟩ := List.mem_map.1 hitem
    exact .ofText path
  apply JsonValue.IsPlain.ofMembers
  simp only [List.forall_mem_cons]
  exact ⟨.ofText _, .ofNat _, .ofNat _, .ofNat _, hfindings, hmissing, by simp⟩

theorem ofJson?_toJson (summary : Summary) :
    Reading.ofJson? summary.toJson =
      some ⟨documentVersion, summary.findings.length, summary⟩ := by
  have hrecord : summary.toJson.record?
      ["version", "total", "files_checked", "baselined", "functions", "missing_files"] =
      some [.ofText documentVersion, .ofNat summary.findings.length, .ofNat summary.filesChecked,
        .ofNat summary.baselined, .array (summary.findings.map Finding.toJson),
        .array (summary.missingFiles.map .ofText)] :=
    JsonValue.record?_ofMembers
      (show ["version", "total", "files_checked", "baselined", "functions",
        "missing_files"].Nodup by decide)
  have hfindings : (summary.findings.map Finding.toJson).mapM Finding.ofJson? =
      some summary.findings := by
    rw [List.mapM_map, JsonValue.mapM_eq_some_map (g := id), List.map_id]
    exact fun finding _ => finding.ofJson?_toJson
  have hmissing : (summary.missingFiles.map JsonValue.ofText).mapM JsonValue.text? =
      some summary.missingFiles := by
    rw [List.mapM_map, JsonValue.mapM_eq_some_map (g := id), List.map_id]
    exact fun path _ => JsonValue.text?_ofText path
  simp only [Reading.ofJson?, hrecord, Option.bind_eq_bind, Option.bind_some,
    JsonValue.text?_ofText, JsonValue.count?_ofNat, JsonValue.items?, hfindings, hmissing]
  rfl

/-- The document of a summary is well formed and denotes the value that was written. -/
theorem ofBytes?_document (summary : Summary) :
    JsonValue.ofBytes? (Text.encode summary.document) = some summary.toJson :=
  JsonValue.ofBytes?_encode summary.isPlain_toJson

theorem Reading.ofBytes?_encode (summary : Summary) :
    ofBytes? (Text.encode summary.document) =
      some ⟨documentVersion, summary.findings.length, summary⟩ := by
  rw [ofBytes?, ofBytes?_document, Option.bind_some, ofJson?_toJson]

/-- A document is well-formed JSON, and what it says is the summary: the findings in order, each
with its file, name, line and kind, the missing files in order, and both numbers.  The total is the
number of the findings.  So no two summaries have the same document. -/
theorem reading_document :
    (∀ summary : Summary, Reading.ofBytes? (Text.encode summary.document) =
      some ⟨documentVersion, summary.findings.length, summary⟩) ∧
    Function.Injective document := by
  refine ⟨Reading.ofBytes?_encode, ?_⟩
  intro first second hsame
  have hboth := Reading.ofBytes?_encode first
  rw [hsame, Reading.ofBytes?_encode second, Option.some.injEq, Reading.mk.injEq] at hboth
  exact hboth.2.2.symm

example :
    let summary : Summary := ⟨[⟨"a \"b\"\\c.py", "𝒻\n\x01", 7, true⟩], ["gone/é.py"], 0, 12⟩
    Reading.ofBytes? (Text.encode summary.document) = some ⟨"1.0", 1, summary⟩ := by
  decide +kernel

end Summary

end Untested
