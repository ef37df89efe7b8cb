/-
# Findings

A finding is a function whose body never ran.  It names the file as the coverage report spells it,
so that a reader of the report finds it again.
-/

import Untested.Python.Function
import Untested.Text.Decimal

namespace Untested

/-- A function whose body never ran. -/
structure Finding where
  /-- The file, as the coverage report spells it. -/
  file : String
  name : String
  /-- The line on which the definition begins. -/
  line : Nat
  isAsync : Bool := false
deriving DecidableEq, Repr

namespace Finding

def ofRecord (file : String) (record : Python.FunctionRecord) : Finding where
  file
  name := record.name
  line := record.line
  isAsync := record.isAsync

/-- The line shown for a finding, in the manner of compilers. -/
def write (finding : Finding) : String :=
  finding.file ++ ":" ++ Text.decimal finding.line ++ ": untested: " ++ finding.name

instance : ToString Finding where
  toString := write

end Finding

end Untested
