/-
# Presenting summaries

A summary goes to the outputs of the run as lines, or as a document to the output for results or
to a file.
-/

import Untested.Host.Basic
import Untested.Summary.Document
import Untested.Summary.Terminal

namespace Untested.Summary

variable {m : Type → Type} [Monad m]

def showLines (host : Host m) (isQuiet : Bool) (summary : Summary) : m Unit := do
  host.complain (Terminal.complaints host.usesColor isQuiet summary)
  host.print (Terminal.results host.usesColor isQuiet summary)

/-- Writes the document of a summary to a file. -/
def saveDocument (host : Host m) (path : String) (summary : Summary) :
    m (Except Fault Unit) := do
  match ← host.write path (Text.encode summary.document) with
  | .error cause => return .error (.io path cause.message)
  | .ok () => return .ok ()

/-- Presents a summary in a format.  Only a document can go to a file. -/
def present (host : Host m) (format : Format) (output : Option String) (isQuiet : Bool)
    (summary : Summary) : m (Except Fault Unit) := do
  match format, output with
  | .terminal, _ => return .ok (← showLines host isQuiet summary)
  | .json, none => return .ok (← host.printLine summary.document)
  | .json, some path =>
    match ← saveDocument host path summary with
    | .error fault => return .error fault
    | .ok () => return .ok (← host.complainLine ("Report written to: " ++ path))

end Untested.Summary
