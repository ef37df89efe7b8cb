/-
# Finding configurations

A configuration is loaded from a file that the user names, or from the first file in the
directory of the project that has one of six names.
-/

import Untested.Config.Read
import Untested.Host.Basic

namespace Untested.Config

variable {m : Type → Type} [Monad m]

def load (host : Host m) (path : String) : m (Except Fault Config) := do
  match ← host.readText path with
  | .error fault => return .error fault
  | .ok text =>
    match read? (Path.extension? path) text with
    | some config => return .ok config
    | none => return .error (.malformedConfig path)

/-- The names that a configuration in the directory of a project may have, the first one that
exists being taken. -/
def usualNames : List String :=
  [".pynotest.yml", ".pynotest.yaml", ".pynotest.toml", "pynotest.yml", "pynotest.yaml",
   "pynotest.toml"]

def firstExisting (host : Host m) : List String → m (Option String)
  | [] => return none
  | path :: paths => do
    if ← host.exists? path then return some path else firstExisting host paths

/-- Loads the configuration of a project, or takes the defaults if it has none. -/
def loadUsual (host : Host m) (project : String) : m (Except Fault Config) := do
  match ← firstExisting host (usualNames.map (Path.join project)) with
  | some path => load host path
  | none => return .ok {}

end Untested.Config
