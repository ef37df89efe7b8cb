/-
# The command line program

The outermost layer: the files, the clock and the outputs of the computer are the host of a run.
It starts no other programs, so a run needs a coverage report that exists already.
-/

import Std.Time.DateTime.Timestamp
import Untested.Program

open Untested

/-- Why a request to the computer was refused. -/
def accessErrorOf : IO.Error → AccessError
  | .noFileOrDirectory .. => .notFound
  | .permissionDenied .. => .denied
  | .alreadyExists .. => .alreadyExists
  | .inappropriateType _ code details =>
    if code = 20 then .notDirectory else if code = 21 then .isDirectory else .other details
  | error => .other (toString error)

/-- The result of a request to the computer. -/
def request {α : Type} (action : IO α) : IO (Except AccessError α) := do
  try
    return .ok (← action)
  catch error =>
    return .error (accessErrorOf error)

def readContents (path : String) : IO (Except AccessError FileTree.Contents) := do
  match ← request (IO.FS.Handle.mk path .read) with
  | .error cause => return .error cause
  | .ok handle =>
    match ← request handle.readBinToEnd with
    | .error cause => return .ok (.unreadable cause)
    | .ok content => return .ok (.bytes content.toList)

/-- Whether a path leads to something: it can be opened, or is refused for another reason. -/
def leadsSomewhere (path : String) : IO Bool := do
  match ← request (IO.FS.Handle.mk path .read) with
  | .error .notFound | .error .notDirectory => return false
  | _ => return true

/-- Adds bytes at the end of a file. -/
def appendBytes (path : String) (bytes : List UInt8) : IO Unit := do
  let handle ← IO.FS.Handle.mk path .append
  handle.write ⟨bytes.toArray⟩

/-- Refuses to start a program. -/
def refuse {α : Type} : IO (Except AccessError α) :=
  return .error (.other "programs are not started here")

def computer (usesColor : Bool) : Host IO where
  read := readContents
  exists? := leadsSomewhere
  makeDirectories path := request (IO.FS.createDirAll path)
  create path := request do
    let _ ← IO.FS.Handle.mk path .write
  append path bytes := request (appendBytes path bytes)
  run _ _ := refuse
  capture _ _ := refuse
  input := return (← (← IO.getStdin).readBinToEnd).toList
  seconds := return (← Std.Time.Timestamp.now).toSecondsSinceUnixEpoch.val.toNat
  usesColor
  print text := do (← IO.getStdout).putStr text
  complain text := do (← IO.getStderr).putStr text

/-- Runs the program on the arguments of the command line. -/
def main (arguments : List String) : IO UInt32 := do
  let isMuted := (← IO.getEnv "NO_COLOR").isSome
  let usesColor := !isMuted && (← (← IO.getStdout).isTty)
  return (← Program.invoke (computer usesColor) arguments).toUInt32
