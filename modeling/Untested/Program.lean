/-
# Runs

A run loads the configuration, gets hold of a coverage report, looks for functions whose bodies
never ran, and presents them.  Findings that are retained or known from a baseline are left out.
It succeeds if none is left.
-/

import Untested.Baseline
import Untested.Config.Load
import Untested.Coverage.Table
import Untested.Detection
import Untested.Options
import Untested.Project
import Untested.Runner
import Untested.Summary.Present

namespace Untested

/-- Why a run ends before its result is known. -/
inductive Failure where
  | fault (fault : Fault)
  | unknownFormat (name : String)
  | reportUnavailable (path : String) (cause : AccessError)
  | baselineNotWritten (path : String) (fault : BaselineFault)
  | baselineNotLoaded (path : String) (fault : BaselineFault)
deriving DecidableEq, Repr

namespace Failure

/-- The sentence that says what failed. -/
def message : Failure → String
  | fault cause => cause.message
  | unknownFormat name => "Unknown report format in config: " ++ name
  | reportUnavailable path _ => "Failed to open coverage report " ++ path
  | baselineNotWritten path _ => "Failed to write baseline " ++ path
  | baselineNotLoaded path _ => "Failed to load baseline " ++ path

/-- What identifies the failure: the code of a fault, and otherwise the first line of the
sentence. -/
def headline : Failure → String
  | fault cause => cause.code
  | failure =>
    String.ofList (Text.trimEnd (failure.message.toList.takeWhile (· ≠ '\n')))

/-- The lines that explain the failure. -/
def explanation : Failure → List String
  | fault cause =>
    cause.message :: (cause.help.map ("help: " ++ ·)).toList
  | unknownFormat name => [(unknownFormat name).message]
  | reportUnavailable path cause => [(reportUnavailable path cause).message, cause.message]
  | baselineNotWritten path cause => [(baselineNotWritten path cause).message, cause.message]
  | baselineNotLoaded path cause => [(baselineNotLoaded path cause).message, cause.message]

end Failure

namespace Program

variable {m : Type → Type} [Monad m]

/-- A step of a run. -/
abbrev Step (m : Type → Type) := ExceptT Failure m

/-- The result of an action, where a fault is a failure of the run. -/
def unlessFault {α : Type} (action : m (Except Fault α)) : Step m α := do
  match ← action with
  | .ok result => return result
  | .error fault => throw (.fault fault)

/-- The configuration with what the options add to it or put in its place. -/
def override (config : Config) (options : Options) : Config :=
  { config with
    sourceRoot := options.sourceRoot.or config.sourceRoot
    package := options.package.or config.package
    exclude := config.exclude ++ options.exclude
    retain := config.retain ++ options.retain }

/-- The directory of the project. -/
def project (options : Options) : String :=
  options.project.getD "."

/-- The configuration in a file. -/
def loadedConfig (host : Host m) (options : Options) : Step m Config :=
  unlessFault (
    match options.config with
    | some path => Config.load host path
    | none => Config.loadUsual host (project options))

/-- The configuration of the run. -/
def config (host : Host m) (options : Options) : Step m Config := do
  return override (← loadedConfig host options) options

/-- The format in which the result is shown. -/
def format (options : Options) (config : Config) : Step m Format :=
  match options.format.or (Format.ofName? config.format) with
  | some format => return format
  | none => throw (.unknownFormat config.format)

/-- The report in the bytes of a table. -/
def reportIn (bytes : List UInt8) : Step m CoverageReport :=
  unlessFault (pure (CoverageTable.read bytes))

/-- The report in a file. -/
def reportAt (host : Host m) (path : String) : Step m CoverageReport := do
  match ← host.read path with
  | .error cause => throw (.reportUnavailable path cause)
  | .ok (.unreadable cause) => throw (.fault (.io CoverageTable.streamName cause.message))
  | .ok (.bytes content) => reportIn content

/-- The package that is measured. -/
def package (host : Host m) (options : Options) (config : Config) : Step m String := do
  match config.package with
  | some package => return package
  | none =>
    unlessFault (Project.packageName host (Path.join (project options) Project.fileName))

/-- The report of a fresh run of the tests. -/
def freshReport (host : Host m) (options : Options) (config : Config) :
    Step m CoverageReport := do
  let runner : Runner := ⟨project options, config.runner⟩
  let table ← unlessFault (runner.run host (← package host options config))
  reportIn (Text.encode table)

/-- The coverage report of the run. -/
def report (host : Host m) (options : Options) (config : Config) : Step m CoverageReport := do
  match options.report with
  | some "-" => reportIn (← host.input)
  | some path => reportAt host path
  | none => freshReport host options config

/-- What a pass over the files of the report finds. -/
def detection (host : Host m) (options : Options) (config : Config) (report : CoverageReport) :
    Step m Detection := do
  let detector : Detector :=
    { root := config.sourceRootIn (project options), exclude := config.exclude }
  if options.isParallel then
    unlessFault (detector.detectInParallel (host.order report.size) host.readIfExists report)
  else
    unlessFault (detector.detect host.readIfExists report)

/-- Records findings as a baseline. -/
def record (host : Host m) (path : String) (isQuiet : Bool) (findings : List Finding) :
    Step m Unit := do
  let baseline := Baseline.ofFindings (← host.seconds) findings
  match ← (baseline.save host path : m _) with
  | .error cause => throw (.baselineNotWritten path cause)
  | .ok () =>
    if !isQuiet then
      let line :=
        "Baseline with " ++ Text.decimal findings.length ++ " untested functions written to " ++
          path
      host.printLine (Terminal.paint host.usesColor .green line)

/-- The findings that are new, and the number of those that a baseline knows. -/
def newFindings (host : Host m) (path : Option String) (findings : List Finding) :
    Step m (List Finding × Nat) := do
  match path with
  | none => return (findings, 0)
  | some path =>
    match ← (Baseline.load host path : m _) with
    | .error cause => throw (.baselineNotLoaded path cause)
    | .ok baseline =>
      let (new, known) := baseline.divide findings
      return (new, known.length)

/-- Carries out a run with the given configuration and gives its exit status: zero if no finding
is left or they are recorded as a baseline, and one otherwise. -/
def runWith (host : Host m) (options : Options) (config : Config) : Step m Nat := do
  let format ← format options config
  let detection ← detection host options config (← report host options config)
  let findings := detection.findings.filter fun finding => !config.retains finding.name
  match options.newBaseline with
  | some path =>
    record host path options.isQuiet findings
    return 0
  | none =>
    let (new, baselined) ← newFindings host options.baseline findings
    unlessFault (Summary.present host format options.output options.isQuiet
      { findings := new
        missingFiles := detection.missingFiles
        filesChecked := detection.filesChecked
        baselined })
    return if new.isEmpty then 0 else 1

/-- Carries out a run and gives its exit status. -/
def run (host : Host m) (options : Options) : Step m Nat := do
  runWith host options (← config host options)

/-- The name and the version of the program. -/
def versionLine : String :=
  "pynotest 0.1.0"

/-- The lines that describe the options. -/
def helpLines : List String :=
  ["Find Python functions whose body was never executed by the test suite",
   "",
   "Usage: pynotest [OPTIONS] [REPORT]",
   "",
   "Arguments:",
   "  [REPORT]  Coverage report to analyze. `-` reads `coverage report -m` output from stdin, " ++
     "a path reads it from a file. Without it the test suite is run under coverage first",
   "",
   "Options:",
   "  -C, --project <PROJECT>         Project directory holding pyproject.toml and the tests " ++
     "[default: .]",
   "      --source-root <DIR>         Directory the report's file paths are relative to " ++
     "(relative to the project directory; defaults to it)",
   "  -p, --package <PACKAGE>         Package to measure, instead of the name in pyproject.toml",
   "  -c, --config <CONFIG>           Path to configuration file",
   "  -f, --format <FORMAT>           Output format [possible values: terminal, json]",
   "  -o, --output <OUTPUT>           Output file (for json format)",
   "      --parallel                  Parse source files in parallel",
   "  -e, --exclude <EXCLUDE>         Report paths to skip (can be specified multiple times)",
   "  -r, --retain <RETAIN>           Function name patterns never reported " ++
     "(can be specified multiple times)",
   "      --baseline <FILE>           Baseline file of known untested functions to ignore",
   "      --generate-baseline <FILE>  Write the current findings to a baseline file " ++
     "and exit successfully",
   "  -v, --verbose                   Verbose output",
   "  -q, --quiet                     Quiet mode - only output results",
   "  -h, --help                      Print help",
   "  -V, --version                   Print version"]

/-- Explains a failure among the complaints. -/
def explain (host : Host m) (failure : Failure) : m Unit := do
  host.complainLine ("Error: " ++ failure.headline)
  for line in failure.explanation do
    host.complainLine ("  " ++ line)

/-- Does what a command line asks for and gives the exit status. -/
def invoke (host : Host m) (arguments : List String) : m Nat := do
  match Options.read arguments with
  | .misuse =>
    host.complainLine "error: unusable arguments; for more information, try '--help'."
    return 2
  | .help =>
    for line in helpLines do
      host.printLine line
    return 0
  | .version => host.printLine versionLine; return 0
  | .run options =>
    match ← (run host options).run with
    | .ok status => return status
    | .error failure => explain host failure; return 1

end Program

end Untested
