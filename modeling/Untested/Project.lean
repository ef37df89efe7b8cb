/-
# Project files

A project declares its name in `pyproject.toml`.  The package that its tests measure has the same
name, with underscores for dashes.
-/

import Untested.Host.Basic
import Untested.Toml.Read
import Untested.Toml.View

namespace Untested.Project

/-- The name of the file that describes a project. -/
def fileName : String :=
  "pyproject.toml"

/-- The name that a value declares as that of the project, if it does.  A project that is given as
an array has to give its name. -/
def declaredName? (value : Toml) : Option (Option String) := do
  match ← value.fields? ["name"] with
  | [some name] => return some (← name.text?)
  | _ =>
    match value with
    | .array _ | .tables _ => failure
    | _ => return none

/-- The name that a project file declares, if it does.  There is no result for a text that is no
project file. -/
def read? (text : String) : Option (Option String) := do
  match ← (← Toml.ofText? text.toList).fields? ["project"] with
  | [some project] => declaredName? project
  | _ => return none

/-- The name of the package that belongs to a project name. -/
def packageOf (name : String) : String :=
  String.ofList (name.toList.map fun c => if c = '-' then '_' else c)

/-- The package of the project that a file describes. -/
def packageName {m : Type → Type} [Monad m] (host : Host m) (path : String) :
    m (Except Fault String) := do
  match ← host.readText path with
  | .error fault => return .error fault
  | .ok text =>
    match read? text with
    | none => return .error (.malformedProject path)
    | some none => return .error (.unnamedProject path)
    | some (some name) => return .ok (packageOf name)

end Untested.Project
