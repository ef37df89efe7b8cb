/-
# Configuration

A configuration says where a project's sources are, which files and functions do not matter, how
the tests are run and how the result is shown.  Whatever a file leaves out has a default.
-/

import Untested.Glob.Match
import Untested.Path
import Untested.Summary.Basic

namespace Untested

/-- How the tests of a project are run. -/
structure RunnerSettings where
  /-- The interpreter for which a tool for coverage and the tests are installed. -/
  interpreter : String := "python3"
  testModule : String := "pytest"
  testArguments : List String := []
deriving DecidableEq, Repr

/-- The settings of a project. -/
structure Config where
  /-- The directory to which the paths of a report are relative. -/
  sourceRoot : Option String := none
  /-- The package whose files are reported. -/
  package : Option String := none
  /-- Patterns for files that are never checked. -/
  exclude : List String := []
  /-- Patterns for names of functions that are never reported. -/
  retain : List String := []
  /-- How the tests are run. -/
  runner : RunnerSettings := {}
  /-- The name of the format in which the result is shown. -/
  format : String := "terminal"
deriving DecidableEq, Repr

namespace Config

/-- The directory to which the paths of a report are relative, as seen from the directory of the
project. -/
def sourceRootIn (config : Config) (project : String) : String :=
  match config.sourceRoot with
  | some root => if Path.isAbsolute root then root else Path.join project root
  | none => project

/-- Whether a function of this name is never reported. -/
def retains (config : Config) (name : String) : Bool :=
  config.retain.any fun pattern => Glob.isMatch pattern.toList name.toList

end Config

end Untested
