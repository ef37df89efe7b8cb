/-
# Detection

A detector goes through the files of a coverage report and looks in each of them for functions
whose bodies lie in the missing lines of that file.  Files that a pattern excludes are not even
read, and files that do not exist are only listed.  A file that can be neither read nor parsed
fails the whole pass, since a finding could be lost with it.

Sources are read by an action of some monad, so that a pass can be run on the files of a computer
and reasoned about over a mere function.
-/

import Untested.Coverage.Report
import Untested.Finding
import Untested.Glob.Match
import Untested.Path
import Untested.Python.Source

namespace Untested

/-- The result of a pass. -/
structure Detection where
  /-- The findings, in report order and then in the order of the source text. -/
  findings : List Finding := []
  /-- The joined paths of files that do not exist, in report order. -/
  missingFiles : List String := []
  /-- The number of files that were read and parsed. -/
  filesChecked : Nat := 0
deriving DecidableEq

/-- What a pass learns about one file of the report. -/
inductive FileOutcome where
  /-- The file was parsed, with these findings. -/
  | checked (findings : List Finding)
  /-- There is no file with this path. -/
  | missing (path : String)
  | excluded
deriving DecidableEq

namespace Detection

/-- The result of a pass that learns one thing more. -/
def add (detection : Detection) : FileOutcome → Detection
  | .checked findings =>
    { detection with
      findings := detection.findings ++ findings
      filesChecked := detection.filesChecked + 1 }
  | .missing path => { detection with missingFiles := detection.missingFiles ++ [path] }
  | .excluded => detection

/-- The result of a pass that learns the given things one after the other. -/
def ofOutcomes (outcomes : List FileOutcome) : Detection :=
  outcomes.foldl add {}

end Detection

/-- The source text of a path, nothing if there is no such file, or a fault. -/
abbrev SourceReader (m : Type → Type) := String → m (Except Fault (Option String))

/-- Where a pass looks for files, and which it leaves out. -/
structure Detector where
  /-- The directory to which the paths of the report are relative. -/
  root : String
  /-- Patterns for paths of the report that are left out. -/
  exclude : List String := []

namespace Detector

/-- Whether a path of the report is left out.  Patterns are matched against the path with
slashes. -/
def isExcluded (detector : Detector) (path : String) : Bool :=
  detector.exclude.any fun pattern =>
    Glob.isMatch pattern.toList (Path.withSlashes path.toList)

/-- The findings in a source text, given the missing lines. -/
def findingsIn (path : String) (missing : LineSet) (body : List Python.Statement) :
    List Finding :=
  ((Python.functionsOfAll body).filter (·.isNeverCalled missing)).map (Finding.ofRecord path)

variable {m : Type → Type} [Monad m]

/-- Looks into one file of the report. -/
def check (detector : Detector) (read : SourceReader m) (entry : String × LineSet) :
    m (Except Fault FileOutcome) := do
  if detector.isExcluded entry.1 then return .ok .excluded
  let path := Path.join detector.root entry.1
  match ← read path with
  | .error fault => return .error fault
  | .ok none => return .ok (.missing path)
  | .ok (some source) =>
    return (Python.parse path source.toList).map fun body =>
      .checked (findingsIn entry.1 entry.2 body)

/-- Looks into the files one after the other and stops at the first fault. -/
def checkAll (check : String × LineSet → m (Except Fault FileOutcome)) :
    List (String × LineSet) → m (Except Fault (List FileOutcome))
  | [] => return .ok []
  | entry :: entries => do
    match ← check entry with
    | .error fault => return .error fault
    | .ok outcome => return (← checkAll check entries).map (outcome :: ·)

/-- Runs a pass over the files of a report in report order. -/
def detect (detector : Detector) (read : SourceReader m) (report : CoverageReport) :
    m (Except Fault Detection) := do
  return (← checkAll (detector.check read) report.entries).map .ofOutcomes

/-- The fault of a failed check. -/
def fault? {α : Type} : Except Fault α → Option Fault
  | .error fault => some fault
  | .ok _ => none

/-- What workers learn together that complete their tasks in the given order.  Outcomes come back
in report order, and of several faults the one that is met first is kept. -/
def gather {α : Type} (order : List Nat) (results : List (Except Fault α)) :
    Except Fault (List α) :=
  match order.findSome? fun index => (results[index]?).bind fault? with
  | some fault => .error fault
  | none => results.mapM id

/-- Runs a pass with several workers, which complete their tasks in the given order. -/
def detectInParallel (detector : Detector) (order : List Nat) (read : SourceReader m)
    (report : CoverageReport) : m (Except Fault Detection) := do
  return (gather order (← report.entries.mapM (detector.check read))).map .ofOutcomes

end Detector

end Untested
