/-
# Baselines

A baseline records the findings of a project at some time, so that later runs report only what has
come up since.  A finding is recognised by its file, its name and roughly its line, because lines
move when a file is edited.
-/

import Untested.Finding
import Untested.Host.Buffer
import Untested.Json.Read
import Untested.Json.Write

namespace Untested

/-- What a baseline remembers of a finding. -/
structure Fingerprint where
  /-- The file, as the coverage report spells it. -/
  file : String
  name : String
  /-- The line on which the definition began. -/
  line : Nat
deriving DecidableEq, Repr

namespace Fingerprint

/-- How far a definition may move and still be recognised. -/
def lineDrift : Nat := 10

def ofFinding (finding : Finding) : Fingerprint where
  file := finding.file
  name := finding.name
  line := finding.line

/-- Whether a finding is recognised: it has the same file and name, and its line is not too far
away. -/
def recognizes (fingerprint : Fingerprint) (finding : Finding) : Bool :=
  fingerprint.file = finding.file && fingerprint.name = finding.name &&
    fingerprint.line ≤ finding.line + lineDrift && finding.line ≤ fingerprint.line + lineDrift

def toJson (fingerprint : Fingerprint) : JsonValue :=
  .ofMembers
    [("file", .ofText fingerprint.file), ("name", .ofText fingerprint.name),
     ("line", .ofNat fingerprint.line)]

/-- The fingerprint that a JSON value denotes. -/
def ofJson? (value : JsonValue) : Option Fingerprint := do
  match ← value.record? ["file", "name", "line"] with
  | [file, name, line] =>
    return { file := ← file.text?, name := ← name.text?, line := ← line.nat? maxLine }
  | _ => failure

end Fingerprint

/-- The findings of a project at some time. -/
structure Baseline where
  version : Nat
  /-- When it was recorded, in seconds since the beginning of the epoch. -/
  createdAt : String
  functions : List Fingerprint
deriving DecidableEq, Repr

/-- Why there is no baseline, or why it could not be written. -/
inductive BaselineFault where
  /-- The file cannot be opened. -/
  | unavailable (cause : AccessError)
  /-- The file does not hold a baseline, or it could not be read or written to its end. -/
  | malformed
  | versionMismatch
deriving DecidableEq, Repr

/-- The sentence shown to the user.  For a malformed file the reason found by the reader of the
format is not part of it. -/
def BaselineFault.message : BaselineFault → String
  | unavailable cause => "Failed to read baseline file: " ++ cause.message
  | malformed => "Failed to parse baseline"
  | versionMismatch => "Baseline version mismatch"

namespace Baseline

/-- The version of the file format that is written and read. -/
def currentVersion : Nat := 1

/-- The baseline of some findings, recorded at the given time. -/
def ofFindings (seconds : Nat) (findings : List Finding) : Baseline where
  version := currentVersion
  createdAt := Text.decimal seconds
  functions := findings.map .ofFinding

/-- Whether a finding is recorded. -/
def isKnown (baseline : Baseline) (finding : Finding) : Bool :=
  baseline.functions.any (·.recognizes finding)

/-- The findings that are not recorded, and those that are, both in order. -/
def divide (baseline : Baseline) (findings : List Finding) : List Finding × List Finding :=
  findings.partition fun finding => !baseline.isKnown finding

def toJson (baseline : Baseline) : JsonValue :=
  .ofMembers
    [("version", .ofNat baseline.version), ("created_at", .ofText baseline.createdAt),
     ("functions", .array (baseline.functions.map Fingerprint.toJson))]

/-- The text of a baseline file. -/
def write (baseline : Baseline) : String :=
  toString baseline.toJson

/-- The pieces in which a baseline file is written. -/
def pieces (baseline : Baseline) : List (List UInt8) :=
  (baseline.toJson.pieces 0).map (·.flatMap String.utf8EncodeChar)

/-- The baseline that a JSON value denotes, of whatever version. -/
def ofJson? (value : JsonValue) : Option Baseline := do
  match ← value.record? ["version", "created_at", "functions"] with
  | [version, createdAt, functions] =>
    return {
      version := ← version.nat? maxLine
      createdAt := ← createdAt.text?
      functions := ← (← functions.items?).mapM Fingerprint.ofJson? }
  | _ => failure

/-- The baseline that the bytes of a file hold. -/
def read (bytes : List UInt8) : Except BaselineFault Baseline :=
  match (JsonValue.ofBytes? bytes).bind ofJson? with
  | none => .error .malformed
  | some baseline =>
    if baseline.version = currentVersion then .ok baseline else .error .versionMismatch

variable {m : Type → Type} [Monad m]

/-- Loads a baseline from a file. -/
def load (host : Host m) (path : String) : m (Except BaselineFault Baseline) := do
  match ← host.read path with
  | .error cause => return .error (.unavailable cause)
  | .ok (.unreadable _) => return .error .malformed
  | .ok (.bytes content) => return read content

/-- Saves a baseline to a file, for which directories are made as needed. -/
def save (host : Host m) (path : String) (baseline : Baseline) :
    m (Except BaselineFault Unit) := do
  let directory := (Path.parent? path).getD ""
  let made ← if directory = "" then pure (.ok ()) else host.makeDirectories directory
  match made with
  | .error cause => return .error (.unavailable cause)
  | .ok () =>
    match ← host.writeBuffered path baseline.pieces with
    | .error cause => return .error (.unavailable cause)
    | .ok (.error _) => return .error .malformed
    | .ok (.ok ()) => return .ok ()

end Baseline

end Untested
