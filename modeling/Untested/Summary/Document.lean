/-
# Summaries for programs

A summary as a JSON document.
-/

import Untested.Json.Write
import Untested.Summary.Basic

namespace Untested

def Finding.toJson (finding : Finding) : JsonValue :=
  .ofMembers
    [("file", .ofText finding.file), ("name", .ofText finding.name),
     ("line", .ofNat finding.line), ("is_async", .bool finding.isAsync)]

namespace Summary

def documentVersion : String := "1.0"

def toJson (summary : Summary) : JsonValue :=
  .ofMembers
    [("version", .ofText documentVersion), ("total", .ofNat summary.findings.length),
     ("files_checked", .ofNat summary.filesChecked), ("baselined", .ofNat summary.baselined),
     ("functions", .array (summary.findings.map Finding.toJson)),
     ("missing_files", .array (summary.missingFiles.map .ofText))]

def document (summary : Summary) : String :=
  toString summary.toJson

end Summary

end Untested
