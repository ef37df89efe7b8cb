/-
# Model computers

A machine is a computer as a value: its files, its clock, the input of the run and what the run
has written.  Its programs are three small ones that every computer has, and the scripts among
its files.
-/

import Untested.Host.Basic
import Untested.Host.Script.Run

namespace Untested

/-- A computer as a value. -/
structure Machine where
  files : FileTree := .empty
  /-- The absolute path of the working directory. -/
  directory : String := "/"
  input : List UInt8 := []
  seconds : Nat := 0
  /-- The number of bytes that files can still take in, if there is a limit. -/
  room : Option Nat := none
  /-- What the run has written to the output for results. -/
  output : List UInt8 := []
  /-- What the run has written to the output for complaints. -/
  complaints : List UInt8 := []

namespace Machine

/-- The absolute form of a path. -/
def absolute (machine : Machine) (path : String) : String :=
  Path.join machine.directory path

/-- Changes the files, or refuses to. -/
def update (change : FileTree → Except AccessError FileTree) :
    StateM Machine (Except AccessError Unit) := fun machine =>
  match change machine.files with
  | .ok files => (.ok (), { machine with files })
  | .error cause => (.error cause, machine)

/-- Adds as many bytes to a file as there is room for. -/
def append (path : String) (bytes : List UInt8) : StateM Machine (Except AccessError Unit) :=
  fun machine =>
    let room := machine.room.getD bytes.length
    match machine.files.append (machine.absolute path) (bytes.take room) with
    | .error cause => (.error cause, machine)
    | .ok files =>
      let machine := { machine with files, room := machine.room.map (· - bytes.length) }
      (if bytes.length ≤ room then .ok () else .error .noSpace, machine)

/-- What a program that every computer has writes, and the status with which it ends. -/
def commonProgram? (command : Command) : Option Completion :=
  match command.program with
  | "true" => some { status := 0, output := [] }
  | "false" => some { status := 1, output := [] }
  | "echo" =>
    some { status := 0, output := Text.encode (" ".intercalate command.arguments ++ "\n") }
  | _ => none

/-- Runs the script that an executable file contains.  It has to name its interpreter. -/
def runScript (files : FileTree) (directory : String) (arguments : List String)
    (content : List UInt8) : Except AccessError Script.Shell :=
  let text := Text.decodeLenient content
  let shell : Script.Shell := { files, directory, arguments := arguments.map String.toList }
  if !(['#', '!'].isPrefixOf text) then .error .notExecutable
  else
    match Script.parse? text with
    | none => .ok { shell with status := 2 }
    | some script => .ok (script.run shell)

/-- Runs a program in a directory.  A name without a slash is one of the common programs, and any
other is the path of a script. -/
def start (machine : Machine) (directory : String) (command : Command) :
    Except AccessError Script.Shell := do
  let directory := machine.absolute directory
  match machine.files.resolve directory with
  | .existing _ (.directory _) => pure ()
  | .existing _ (.file _ _) => throw .notDirectory
  | .free _ => throw .notFound
  | .nowhere cause => throw cause
  let files := machine.files
  if command.program.contains '/' then
    match files.resolve (Path.join directory command.program) with
    | .existing _ (.file content true) => runScript files directory command.arguments content
    | .existing _ _ => throw .denied
    | .free _ => throw .notFound
    | .nowhere cause => throw cause
  else
    match commonProgram? command with
    | some completion =>
      return { files, directory, arguments := [], status := completion.status,
               output := completion.output }
    | none => throw .notFound

/-- The machine as the host of a run. -/
def host : Host (StateM Machine) where
  read path := return (← get).files.read ((← get).absolute path)
  exists? path := return (← get).files.exists? ((← get).absolute path)
  makeDirectories path := do
    let path := (← get).absolute path
    update (·.makeDirectories path)
  create path := do
    let path := (← get).absolute path
    update (·.create path)
  append := append
  run directory command := do
    let machine ← get
    match machine.start directory command with
    | .error cause => return .error cause
    | .ok shell =>
      set { machine with
        files := shell.files
        output := machine.output ++ shell.output
        complaints := machine.complaints ++ shell.complaints }
      return .ok shell.status
  capture directory command := do
    let machine ← get
    match machine.start directory command with
    | .error cause => return .error cause
    | .ok shell =>
      set { machine with
        files := shell.files
        complaints := machine.complaints ++ shell.complaints }
      return .ok { status := shell.status, output := shell.output }
  input := return (← get).input
  seconds := return (← get).seconds
  print text := modify fun machine =>
    { machine with output := machine.output ++ Text.encode text }
  complain text := modify fun machine =>
    { machine with complaints := machine.complaints ++ Text.encode text }

end Machine

end Untested
