import Untested.Host.Machine
import Untested.Main
import Untested.Proofs.Text.Utf8
import Untested.Proofs.Line.Compact
import Untested.Proofs.Coverage.Table
import Untested.Proofs.Detection.Outcome
import Untested.Proofs.Detection.Sequential
import Untested.Proofs.Detection.Parallel
import Untested.Proofs.Detection.Exclusion
import Untested.Proofs.Program.Step
import Untested.Proofs.Program.Pass
import Untested.Proofs.Program.Gate
import Untested.Proofs.Python.Records
import Untested.Proofs.Python.Nesting
import Untested.Proofs.Python.Spans
import Untested.Proofs.Python.Documentation
import Untested.Proofs.Coverage.Report
import Untested.Proofs.Line.Pieces
import Untested.Proofs.Line.NormalForm
import Untested.Proofs.Python.Surroundings
import Untested.Proofs.Coverage.Rows
import Untested.Proofs.Detection.Monotone
import Untested.Proofs.Detection.Removal
import Untested.Proofs.Baseline.RoundTrip
import Untested.Proofs.Program.Workflow
import Untested.Proofs.Coverage.LineEnds
import Untested.Proofs.Program.Sources
import Untested.Proofs.Baseline.Hiding
import Untested.Proofs.Python.Bodies
import Untested.Proofs.Python.Trivia
import Untested.Proofs.Python.Literals
import Untested.Proofs.Glob.Matching
import Untested.Proofs.Detection.ExactPattern
import Untested.Proofs.Program.Refusal
import Untested.Proofs.Summary.Document
import Untested.Proofs.Config.Extension
import Untested.Proofs.Summary.Terminal
import Untested.Proofs.Line.Runs
import Untested.Proofs.Text.Columns
import Untested.Proofs.Python.Walk
