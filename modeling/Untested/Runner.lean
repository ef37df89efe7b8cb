/-
# Running the tests

The tests are run under a tool for coverage, which then writes its table.  Both commands run in
the directory of the project, and the first that fails ends the run.
-/

import Untested.Config.Basic
import Untested.Host.Basic

namespace Untested

/-- What runs the tests of a project. -/
structure Runner where
  project : String
  settings : RunnerSettings
deriving DecidableEq, Repr

namespace Runner

def testCommand (runner : Runner) : Command where
  program := runner.settings.interpreter
  arguments :=
    ["-m", "coverage", "run", "-m", runner.settings.testModule] ++ runner.settings.testArguments

/-- The command that writes the table for a package. -/
def reportCommand (runner : Runner) (package : String) : Command where
  program := runner.settings.interpreter
  arguments := ["-m", "coverage", "report", "--include=" ++ package ++ "/*", "-m"]

def startFault (command : Command) (cause : AccessError) : Fault :=
  .io command.program cause.message

/-- A result, unless the status of the command says that it failed. -/
def unlessFailed {α : Type} (command : Command) (status : Nat) (result : α) : Except Fault α :=
  if status = 0 then .ok result
  else .error (.commandFailed command.line ("exit status: " ++ Text.decimal status))

variable {m : Type → Type} [Monad m]

/-- Runs the tests.  What they write goes to the outputs of the run. -/
def runTests (runner : Runner) (host : Host m) : m (Except Fault Unit) := do
  match ← host.run runner.project runner.testCommand with
  | .error cause => return .error (startFault runner.testCommand cause)
  | .ok status => return unlessFailed runner.testCommand status ()

def report (runner : Runner) (host : Host m) (package : String) : m (Except Fault String) := do
  let command := runner.reportCommand package
  match ← host.capture runner.project command with
  | .error cause => return .error (startFault command cause)
  | .ok completion =>
    return unlessFailed command completion.status
      (String.ofList (Text.decodeLenient completion.output))

/-- Runs the tests and gives the table for a package. -/
def run (runner : Runner) (host : Host m) (package : String) : m (Except Fault String) := do
  match ← runner.runTests host with
  | .error fault => return .error fault
  | .ok () => runner.report host package

end Runner

end Untested
