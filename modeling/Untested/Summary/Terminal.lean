/-
# Summaries for people

Each finding is a line among the complaints, as a compiler would write it.  That all is well goes
to the results.
-/

import Untested.Summary.Basic

namespace Untested.Terminal

/-- How a stretch of text is shown. -/
inductive Style where
  | dimmed
  | green
  | boldGreen
  | boldRed
deriving DecidableEq, Repr

/-- The parameters of the control sequence for a style. -/
def Style.code : Style → String
  | dimmed => "2"
  | green => "32"
  | boldGreen => "1;32"
  | boldRed => "1;31"

def paint (usesColor : Bool) (style : Style) (text : String) : String :=
  if usesColor then "\x1b[" ++ style.code ++ "m" ++ text ++ "\x1b[0m" else text

def ofLines (lines : List String) : String :=
  String.join (lines.map (· ++ "\n"))

/-- The hint at files that do not exist. -/
def missingHint (count : Nat) : String :=
  "Skipped " ++ Text.decimal count ++ " file(s) listed in the report but missing on disk"

/-- The hint at findings that the baseline hides. -/
def baselineHint (count : Nat) : String :=
  Text.decimal count ++ " known untested function(s) ignored by the baseline"

/-- The line that says that there are findings. -/
def alarm : String :=
  "Error: untested functions found!"

/-- The line that says that there are none. -/
def allClear (filesChecked : Nat) : String :=
  "No untested functions found (" ++ Text.decimal filesChecked ++ " files checked)."

def lineIf (condition : Bool) (line : String) : List String :=
  if condition then [line] else []

def complaintLines (usesColor isQuiet : Bool) (summary : Summary) : List String :=
  summary.findings.map Finding.write ++
    lineIf (!isQuiet && !summary.missingFiles.isEmpty)
      (paint usesColor .dimmed (missingHint summary.missingFiles.length)) ++
    lineIf (!isQuiet && 0 < summary.baselined)
      (paint usesColor .dimmed (baselineHint summary.baselined)) ++
    lineIf (!summary.findings.isEmpty) (paint usesColor .boldRed alarm)

def resultLines (usesColor isQuiet : Bool) (summary : Summary) : List String :=
  lineIf (summary.findings.isEmpty && !isQuiet)
    (paint usesColor .boldGreen (allClear summary.filesChecked))

/-- What is written to the output for complaints. -/
def complaints (usesColor isQuiet : Bool) (summary : Summary) : String :=
  ofLines (complaintLines usesColor isQuiet summary)

/-- What is written to the output for results. -/
def results (usesColor isQuiet : Bool) (summary : Summary) : String :=
  ofLines (resultLines usesColor isQuiet summary)

end Untested.Terminal
