/-
# Reading configurations

A configuration is written in YAML or in TOML.  The extension of the file decides in which; with
any other extension, a text that is no configuration in YAML is read as TOML.  Fields that are not
known are ignored in both.
-/

import Untested.Config.Basic
import Untested.Toml.Read
import Untested.Toml.View
import Untested.Yaml.View

namespace Untested

namespace RunnerSettings

def ofToml? (value : Toml) : Option RunnerSettings := do
  match ← value.fields? ["python", "test_module", "test_args"] with
  | [interpreter, testModule, testArguments] =>
    let absent : RunnerSettings := {}
    return {
      interpreter := ← Toml.field? absent.interpreter Toml.text? interpreter
      testModule := ← Toml.field? absent.testModule Toml.text? testModule
      testArguments := ← Toml.field? absent.testArguments Toml.texts? testArguments }
  | _ => failure

def ofYaml? (root node : Yaml.Node) : Option RunnerSettings := do
  let fields ← root.fields? node
  let absent : RunnerSettings := {}
  return {
    interpreter := ← Yaml.Node.field? fields "python" absent.interpreter root.text?
    testModule := ← Yaml.Node.field? fields "test_module" absent.testModule root.text?
    testArguments := ← Yaml.Node.field? fields "test_args" absent.testArguments root.texts? }

end RunnerSettings

namespace Config

def formatOfToml? (value : Toml) : Option String := do
  match ← value.fields? ["format"] with
  | [format] => Toml.field? ({} : Config).format Toml.text? format
  | _ => failure

def formatOfYaml? (root node : Yaml.Node) : Option String := do
  let fields ← root.fields? node
  Yaml.Node.field? fields "format" ({} : Config).format root.text?

def ofToml? (value : Toml) : Option Config := do
  let names := ["source_root", "package", "exclude", "retain_patterns", "runner", "report"]
  match ← value.fields? names with
  | [sourceRoot, package, exclude, retain, runner, report] =>
    let absent : Config := {}
    let optional : Toml → Option (Option String) := fun value => value.text?.map some
    return {
      sourceRoot := ← Toml.field? none optional sourceRoot
      package := ← Toml.field? none optional package
      exclude := ← Toml.field? [] Toml.texts? exclude
      retain := ← Toml.field? [] Toml.texts? retain
      runner := ← Toml.field? absent.runner RunnerSettings.ofToml? runner
      format := ← Toml.field? absent.format formatOfToml? report }
  | _ => failure

def ofYaml? (root : Yaml.Node) : Option Config := do
  let fields ← root.fields? root
  let absent : Config := {}
  return {
    sourceRoot := ← Yaml.Node.field? fields "source_root" none root.optionalText?
    package := ← Yaml.Node.field? fields "package" none root.optionalText?
    exclude := ← Yaml.Node.field? fields "exclude" [] root.texts?
    retain := ← Yaml.Node.field? fields "retain_patterns" [] root.texts?
    runner := ← Yaml.Node.field? fields "runner" absent.runner (RunnerSettings.ofYaml? root)
    format := ← Yaml.Node.field? fields "report" absent.format (formatOfYaml? root) }

def readToml? (text : String) : Option Config := do
  ofToml? (← Toml.ofText? text.toList)

/-- Reads a configuration that is written in YAML.  Without a document, all settings have their
defaults. -/
def readYaml? (text : String) : Option Config := do
  match ← Yaml.document? text.toList with
  | some root => ofYaml? root
  | none => return {}

/-- Reads a configuration from a file with the given extension. -/
def read? (extension : Option String) (text : String) : Option Config :=
  if extension = some "yml" || extension = some "yaml" then readYaml? text
  else if extension = some "toml" then readToml? text
  else (readYaml? text).or (readToml? text)

end Config

end Untested
