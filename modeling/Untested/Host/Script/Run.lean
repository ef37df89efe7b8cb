/-
# Running scripts

A script runs in a directory of a file tree.  It may read and write files there, it writes output
and complaints, and it ends with a status, which is zero for success.
-/

import Untested.Host.FileTree
import Untested.Host.Script.Read
import Untested.Text.Blank
import Untested.Text.Utf8

namespace Untested.Script

open Text

/-- The surroundings of a running script. -/
structure Shell where
  files : FileTree
  /-- The absolute path of the working directory. -/
  directory : String
  arguments : List (List Char)
  /-- The values of named parameters, the latest first. -/
  bindings : List (List Char × List Char) := []
  status : Nat := 0
  /-- Whether the script has ended. -/
  hasExited : Bool := false
  /-- What the script has written so far. -/
  output : List UInt8 := []
  complaints : List UInt8 := []

namespace Shell

def value (shell : Shell) (name : List Char) : List Char :=
  if name = ['#'] then decimalDigits shell.arguments.length
  else if name = ['?'] then decimalDigits shell.status
  else if name = ['@'] || name = ['*'] then [' '].intercalate shell.arguments
  else if name.all isDigit then
    match decimalValue name with
    | 0 => []
    | index + 1 => shell.arguments[index]?.getD []
  else (shell.bindings.lookup name).getD []

/-- The fields of a word so far: the finished ones in reverse and the open one, if any. -/
structure Fields where
  /-- The finished fields in reverse. -/
  finished : List (List Char) := []
  /-- The field that goes on. -/
  current : Option (List Char) := none

namespace Fields

/-- The fields with characters added to the open one. -/
def extend (fields : Fields) (letters : List Char) : Fields :=
  { fields with current := some (fields.current.getD [] ++ letters) }

def join (fields : Fields) : List (List Char) → Fields
  | [] => fields
  | [letters] => fields.extend letters
  | letters :: next :: rest =>
    let extended := fields.extend letters
    join { finished := extended.current.toList ++ extended.finished } (next :: rest)

def toList (fields : Fields) : List (List Char) :=
  (fields.current.toList ++ fields.finished).reverse

end Fields

def expand (shell : Shell) (word : Word) : List (List Char) :=
  (word.foldl step {}).toList
where
  step (fields : Fields) : Segment → Fields
    | .text letters => fields.extend letters
    | .parameter ['@'] true => fields.join shell.arguments
    | .parameter name true => fields.extend (shell.value name)
    | .parameter name false => fields.join (words (shell.value name))

/-- The shell after a command that writes the given texts. -/
def finish (shell : Shell) (status : Nat) (output complaints : List UInt8) : Shell :=
  { shell with
    status
    output := shell.output ++ output
    complaints := shell.complaints ++ complaints }

def bytesOf (letters : List Char) : List UInt8 :=
  encode (String.ofList letters)

/-- The absolute form of a path as seen by the script. -/
def absolute (shell : Shell) (path : List Char) : String :=
  Path.join shell.directory (String.ofList path)

/-- Whether a condition between brackets holds. -/
def holds (shell : Shell) : List (List Char) → Bool
  | ['!'] :: rest => !holds shell rest
  | [] => false
  | [operand] => !operand.isEmpty
  | [operator, operand] =>
    let place := shell.files.resolve (shell.absolute operand)
    match String.ofList operator with
    | "-n" => !operand.isEmpty
    | "-z" => operand.isEmpty
    | "-e" => (place matches .existing _ _)
    | "-f" => (place matches .existing _ (.file _ _))
    | "-d" => (place matches .existing _ (.directory _))
    | "-x" => (place matches .existing _ (.file _ true))
    | _ => false
  | [left, operator, right] =>
    match String.ofList operator with
    | "=" => left = right
    | "!=" => left ≠ right
    | "-eq" => decimalValue left = decimalValue right
    | "-ne" => decimalValue left ≠ decimalValue right
    | "-gt" => decimalValue right < decimalValue left
    | "-lt" => decimalValue left < decimalValue right
    | "-ge" => decimalValue right ≤ decimalValue left
    | "-le" => decimalValue left ≤ decimalValue right
    | _ => false
  | _ => false

/-- Writes the contents of files one after the other. -/
def concatenate (shell : Shell) : List (List Char) → Shell
  | [] => shell
  | path :: rest =>
    let complain (cause : String) : Shell :=
      shell.finish 1 [] (encode ("cat: " ++ String.ofList path ++ ": " ++ cause ++ "\n"))
    match shell.files.read (shell.absolute path) with
    | .ok (.bytes content) => concatenate (shell.finish shell.status content []) rest
    | .ok (.unreadable _) => concatenate (complain "Is a directory") rest
    | .error _ => concatenate (complain "No such file or directory") rest

/-- Runs a command without redirections. -/
def runCommand (shell : Shell) (name : List Char) (arguments : List (List Char)) : Shell :=
  match String.ofList name with
  | "true" | ":" => shell.finish 0 [] []
  | "false" => shell.finish 1 [] []
  | "exit" =>
    let status := (arguments.head?.map decimalValue).getD shell.status
    { shell with status := status % 256, hasExited := true }
  | "echo" =>
    let text : List Char :=
      match arguments with
      | ['-', 'n'] :: rest => [' '].intercalate rest
      | _ => [' '].intercalate arguments ++ ['\n']
    shell.finish 0 (bytesOf text) []
  | "cat" => concatenate (shell.finish 0 [] []) arguments
  | "test" => shell.finish (if shell.holds arguments then 0 else 1) [] []
  | "[" => shell.finish (if shell.holds arguments.dropLast then 0 else 1) [] []
  | "shift" => { shell with arguments := shell.arguments.drop 1, status := 0 }
  | _ => shell.finish 127 [] (encode (String.ofList name ++ ": not found\n"))

/-- Sends what a command has written to where its redirections say. -/
def redirect (before after : Shell) : List Redirection → Shell
  | [] => after
  | redirection :: rest =>
    let written := after.output.drop before.output.length
    let quiet := { after with output := before.output }
    let store (target : Word) (prepare : String → Except AccessError FileTree) : Shell :=
      let path := before.absolute (((before.expand target).head?).getD [])
      match (prepare path).bind fun files => files.append path written with
      | .ok files => { quiet with files }
      | .error _ => { quiet with status := 2 }
    match redirection with
    | .append target => redirect before (store target fun _ => .ok after.files) rest
    | .overwrite target => redirect before (store target fun path => after.files.create path) rest
    | .complain =>
      redirect before { quiet with complaints := quiet.complaints ++ written } rest

/-- The name and the value of an assignment. -/
def assignment? (field : List Char) : Option (List Char × List Char) :=
  match splitOnce? '=' field with
  | some (name, value) =>
    if !name.isEmpty && name.all isNameChar && !name.head?.any isDigit then some (name, value)
    else none
  | none => none

end Shell

def run (script : Script) (shell : Shell) : Shell :=
  if shell.hasExited then shell
  else
    match script with
    | .skip => shell
    | .command words redirections =>
      let after :=
        match words.flatMap shell.expand with
        | [] => shell.finish 0 [] []
        | name :: arguments =>
          match Shell.assignment? name with
          | some binding =>
            { shell with bindings := binding :: shell.bindings, status := 0 }
          | none => shell.runCommand name arguments
      shell.redirect after redirections
    | .sequence first second => run second (run first shell)
    | .both first second =>
      let shell := run first shell
      if shell.status = 0 then run second shell else shell
    | .either first second =>
      let shell := run first shell
      if shell.status = 0 then shell else run second shell
    | .conditional condition consequence alternative =>
      let shell := run condition shell
      if shell.hasExited then shell
      else if shell.status = 0 then run consequence { shell with status := 0 }
      else run alternative { shell with status := 0 }
    | .loop name words body =>
      (words.flatMap shell.expand).foldl
        (fun shell field =>
          if shell.hasExited then shell
          else run body { shell with bindings := (name, field) :: shell.bindings })
        { shell with status := 0 }

end Untested.Script
