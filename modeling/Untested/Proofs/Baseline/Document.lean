/-
# Baselines are read back

A baseline is the value of its document, so the bytes of a baseline file give the baseline again,
provided that its numbers are words of 32 bits.  A baseline of another version is recognised as
such and never taken for a malformed file.
-/

import Untested.Baseline
import Untested.Proofs.Json.Document

namespace Untested

namespace Fingerprint

/-- The line of a fingerprint is a line number. -/
def IsLegal (fingerprint : Fingerprint) : Prop :=
  fingerprint.line ≤ maxLine

theorem isPlain_toJson (fingerprint : Fingerprint) : fingerprint.toJson.IsPlain := by
  refine .ofMembers ?_
  simp only [List.forall_mem_cons]
  exact ⟨.ofText _, .ofText _, .ofNat _, by simp⟩

theorem ofJson?_toJson {fingerprint : Fingerprint} (hlegal : fingerprint.IsLegal) :
    ofJson? fingerprint.toJson = some fingerprint := by
  have hrecord : fingerprint.toJson.record? ["file", "name", "line"] =
      some [.ofText fingerprint.file, .ofText fingerprint.name, .ofNat fingerprint.line] :=
    JsonValue.record?_ofMembers (show ["file", "name", "line"].Nodup by decide)
  simp only [ofJson?, hrecord, Option.bind_eq_bind, Option.bind_some, JsonValue.text?_ofText,
    JsonValue.nat?_ofNat hlegal]
  rfl

end Fingerprint

namespace Baseline

/-- The version and the lines of a baseline are words of 32 bits. -/
structure IsLegal (baseline : Baseline) : Prop where
  version : baseline.version ≤ maxLine
  functions : ∀ fingerprint ∈ baseline.functions, fingerprint.IsLegal

theorem isPlain_toJson (baseline : Baseline) : baseline.toJson.IsPlain := by
  refine .ofMembers ?_
  simp only [List.forall_mem_cons]
  refine ⟨.ofNat _, .ofText _, .array ?_, by simp⟩
  intro item hitem
  obtain ⟨fingerprint, _, rfl⟩ := List.mem_map.1 hitem
  exact fingerprint.isPlain_toJson

theorem ofJson?_toJson {baseline : Baseline} (hlegal : baseline.IsLegal) :
    ofJson? baseline.toJson = some baseline := by
  have hrecord : baseline.toJson.record? ["version", "created_at", "functions"] =
      some [.ofNat baseline.version, .ofText baseline.createdAt,
        .array (baseline.functions.map Fingerprint.toJson)] :=
    JsonValue.record?_ofMembers
      (show ["version", "created_at", "functions"].Nodup by decide)
  have hfunctions : (baseline.functions.map Fingerprint.toJson).mapM Fingerprint.ofJson? =
      some baseline.functions := by
    rw [List.mapM_map, JsonValue.mapM_eq_some_map (g := id), List.map_id]
    exact fun fingerprint hfingerprint =>
      Fingerprint.ofJson?_toJson (hlegal.functions fingerprint hfingerprint)
  simp only [ofJson?, hrecord, Option.bind_eq_bind, Option.bind_some, JsonValue.text?_ofText,
    JsonValue.nat?_ofNat hlegal.version, JsonValue.items?, hfunctions]
  rfl

/-- The bytes of a baseline file. -/
def bytes (baseline : Baseline) : List UInt8 :=
  Text.encode baseline.write

/-- The pieces in which a baseline is written make up its bytes. -/
theorem flatten_pieces (baseline : Baseline) : baseline.pieces.flatten = baseline.bytes := by
  have hbytes : baseline.bytes = (baseline.toJson.write 0).flatMap String.utf8EncodeChar :=
    Text.encode_ofList _
  rw [pieces, JsonValue.flatten_map_flatMap, JsonValue.flatten_pieces, hbytes]

/-- A baseline of the current version is read back, and any other one is refused for its
version. -/
theorem read_written {baseline : Baseline} (hlegal : baseline.IsLegal) :
    read baseline.bytes =
      if baseline.version = currentVersion then .ok baseline else .error .versionMismatch := by
  rw [read, bytes, write, JsonValue.ofBytes?_encode baseline.isPlain_toJson, Option.bind_some,
    ofJson?_toJson hlegal]

end Baseline

end Untested
