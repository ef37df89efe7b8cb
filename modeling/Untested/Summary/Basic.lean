/-
# Summaries

A summary is all that is shown of a run.
-/

import Untested.Finding

namespace Untested

/-- All that is shown of a run. -/
structure Summary where
  findings : List Finding
  missingFiles : List String
  filesChecked : Nat
  /-- The number of findings that the baseline hides. -/
  baselined : Nat
deriving DecidableEq, Repr

/-- The ways to show a summary. -/
inductive Format where
  /-- Lines for people to read. -/
  | terminal
  /-- A document for programs to read. -/
  | json
deriving DecidableEq, Repr

/-- The format with a given name, in whatever case its letters are written. -/
def Format.ofName? (name : String) : Option Format :=
  let lower := String.ofList (name.toList.map Char.toLower)
  if lower = "terminal" || lower = "text" then some .terminal
  else if lower = "json" then some .json
  else none

end Untested
