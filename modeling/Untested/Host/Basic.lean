/-
# Hosts

A host is what a run needs of the computer it runs on: files, programs, a clock, an input and two
outputs.  A run is written over a host in any monad.  So one and the same run works on the files
of a computer and on a model of it.
-/

import Untested.Fault
import Untested.Host.FileTree
import Untested.Text.Utf8

namespace Untested

/-- A program with its arguments. -/
structure Command where
  /-- The name of the program, or a path to it. -/
  program : String
  arguments : List String
deriving DecidableEq, Repr

/-- The words of a command with blanks in between. -/
def Command.line (command : Command) : String :=
  " ".intercalate (command.program :: command.arguments)

/-- How a program ended, and what it wrote. -/
structure Completion where
  /-- Its status, which is zero for success. -/
  status : Nat
  output : List UInt8

/-- What a run needs of the computer it runs on. -/
structure Host (m : Type → Type) where
  /-- Opens a file to read it. -/
  read : String → m (Except AccessError FileTree.Contents)
  /-- Whether a path leads to a file or a directory. -/
  exists? : String → m Bool
  /-- Makes a directory and those on the way to it, unless they exist. -/
  makeDirectories : String → m (Except AccessError Unit)
  /-- Makes a file empty, or makes an empty file. -/
  create : String → m (Except AccessError Unit)
  /-- Adds bytes at the end of a file.  Where it fails, some of them may have been added. -/
  append : String → List UInt8 → m (Except AccessError Unit)
  /-- Runs a program in a directory and lets it write to the outputs of the run. -/
  run : String → Command → m (Except AccessError Nat)
  /-- Runs a program in a directory and catches its output. -/
  capture : String → Command → m (Except AccessError Completion)
  /-- The bytes of the input. -/
  input : m (List UInt8)
  /-- The seconds since the beginning of the epoch. -/
  seconds : m Nat
  /-- The order in which workers complete the given number of tasks. -/
  order : Nat → List Nat := List.range
  /-- Whether the outputs show colours. -/
  usesColor : Bool := false
  /-- Writes to the output for results. -/
  print : String → m Unit
  /-- Writes to the output for complaints. -/
  complain : String → m Unit

namespace Host

variable {m : Type → Type} [Monad m]

/-- The text of a file. -/
def readText (host : Host m) (path : String) : m (Except Fault String) := do
  let refuse (cause : AccessError) : Except Fault String := .error (.io path cause.message)
  match ← host.read path with
  | .error cause => return refuse cause
  | .ok (.unreadable cause) => return refuse cause
  | .ok (.bytes content) =>
    match Text.text? content with
    | some text => return .ok text
    | none => return .error (.io path "stream did not contain valid UTF-8")

/-- The text of a file, or nothing if there is no such file. -/
def readIfExists (host : Host m) (path : String) : m (Except Fault (Option String)) := do
  if ← host.exists? path then return (← host.readText path).map some else return .ok none

/-- Replaces what a file contains. -/
def write (host : Host m) (path : String) (bytes : List UInt8) : m (Except AccessError Unit) := do
  match ← host.create path with
  | .error cause => return .error cause
  | .ok () => host.append path bytes

/-- Writes a line to the output for results. -/
def printLine (host : Host m) (line : String) : m Unit :=
  host.print (line ++ "\n")

/-- Writes a line to the output for complaints. -/
def complainLine (host : Host m) (line : String) : m Unit :=
  host.complain (line ++ "\n")

end Host

end Untested
