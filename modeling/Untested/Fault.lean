/-
# What can end a run

A fault is the cause for which an analysis gives up.  Its message, its code and its advice are
functions of the cause, so the wording stands in one place.
-/

import Untested.Line.Compact

namespace Untested

/-- The cause for which an analysis gives up. -/
inductive Fault where
  /-- The second line of a coverage table is not a line of dashes. -/
  | missingSeparator
  /-- A line list in a coverage table is malformed. -/
  | invalidLineRange (token reason : String)
  /-- A source file is not well formed.  Line and column count from one, columns in bytes. -/
  | malformedSource (path : String) (line column : Nat)
  /-- A file cannot be read or written, or a program cannot be started. -/
  | io (path cause : String)
  /-- A program ended without success. -/
  | commandFailed (command status : String)
  /-- The project file is no project table at all. -/
  | malformedProject (path : String)
  /-- The project table has no name. -/
  | unnamedProject (path : String)
  /-- A configuration file is malformed. -/
  | malformedConfig (path : String)
deriving DecidableEq, Repr

namespace Fault

/-- The fault of a malformed line list. -/
def ofRangeError (error : RangeError) : Fault :=
  .invalidLineRange (String.ofList error.token) error.fault.message

/-- The sentence shown to the user.  For a malformed project or configuration file the reason
found by the reader of the file format is not part of it. -/
def message : Fault → String
  | missingSeparator => "Coverage report is missing its '----' separator line"
  | invalidLineRange token reason => s!"Invalid line range '{token}': {reason}"
  | malformedSource path line column => s!"Syntax error in {path}:{line}:{column}"
  | io path cause => s!"I/O error on {path}: {cause}"
  | commandFailed command status => s!"`{command}` failed with {status}"
  | malformedProject path => s!"Cannot determine package name from {path}"
  | unnamedProject path =>
    s!"Cannot determine package name from {path}: no `name` in the [project] table"
  | malformedConfig path => s!"Invalid configuration in {path}"

/-- The code that identifies the kind of fault. -/
def code : Fault → String
  | missingSeparator => "pynotest::report::separator"
  | invalidLineRange .. => "pynotest::report::line_range"
  | malformedSource .. => "pynotest::source::syntax"
  | io .. => "pynotest::io"
  | commandFailed .. => "pynotest::runner::command"
  | malformedProject .. | unnamedProject .. => "pynotest::runner::pyproject"
  | malformedConfig .. => "pynotest::config"

/-- Advice on how to avoid the fault, where there is any. -/
def help : Fault → Option String
  | missingSeparator =>
    some ("expected the output of `coverage report -m`: a header line followed by a line of " ++
      "dashes")
  | invalidLineRange .. =>
    some ("missing lines must look like `12` or `12-15`; branch arcs (`12->15`) are not " ++
      "supported, re-run coverage without --branch")
  | malformedProject .. | unnamedProject .. =>
    some "set `package` in the config file or pass --package"
  | _ => none

end Fault

end Untested
