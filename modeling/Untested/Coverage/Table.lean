/-
# Coverage tables

A coverage report is printed as a table:

    Name          Stmts   Miss  Cover   Missing
    -------------------------------------------
    pkg/a.py         10      4    60%   5-8
    pkg/b.py          3      0   100%
    -------------------------------------------
    TOTAL            13      4    69%

The first line is not looked at, and the second must be a line of dashes.  The rows behind it end
at a blank line, at a further line of dashes, or with the input.  A row without a fifth column is
fully covered and leaves no entry.

A table is read from bytes, one line at a time, so bytes behind the line where reading stops are
never decoded.
-/

import Untested.Coverage.Report
import Untested.Fault
import Untested.Text.Utf8

namespace Untested.CoverageTable

open Text

/-- The name under which faults speak of the input. -/
def streamName : String :=
  "<coverage report>"

/-- The cause of a fault for bytes that are no text. -/
def notText : String :=
  "stream did not contain valid UTF-8"

/-- The bytes of a line without the carriage return before its line feed. -/
def withoutReturn (line : List UInt8) : List UInt8 :=
  if line.getLast? = some 0x0D then line.dropLast else line

/-- The lines of a sequence of bytes.  A line ends with a line feed, possibly after a carriage
return, and a last line without one counts unless it is empty. -/
def byteLines (bytes : List UInt8) : List (List UInt8) :=
  go [] bytes
where
  /-- The lines of the rest of the bytes, given those of the open line in reverse. -/
  go (open_ : List UInt8) : List UInt8 → List (List UInt8)
    | [] => if open_.isEmpty then [] else [open_.reverse]
    | byte :: rest =>
      if byte = 0x0A then withoutReturn open_.reverse :: go [] rest
      else go (byte :: open_) rest

/-- The text of one line. -/
def decodeLine (line : List UInt8) : Except Fault (List Char) :=
  match decode? line with
  | some text => .ok text
  | none => .error (.io streamName notText)

/-- The beginning of a line of dashes. -/
def dashes : List Char :=
  ['-', '-', '-', '-']

def isRule (line : List Char) : Bool :=
  dashes.isPrefixOf line

def endsRows (line : List Char) : Bool :=
  isRule line || isBlankText line

/-- The file and the missing lines of a row, when it has a fifth column. -/
def readRow (line : List Char) : Except Fault (Option (String × LineSet)) :=
  match fields 4 (trim line) with
  | [name, _, _, _, missing] =>
    match LineSet.read (trim missing) with
    | .ok lines => .ok (some (String.ofList name, lines))
    | .error error => .error (.ofRangeError error)
  | _ => .ok none

/-- Reads rows into a report until they end. -/
def readRows (report : CoverageReport) : List (List UInt8) → Except Fault CoverageReport
  | [] => .ok report
  | bytes :: rest => do
    let line ← decodeLine bytes
    if endsRows line then return report
    match ← readRow line with
    | none => readRows report rest
    | some (path, missing) => readRows (report.insert path missing) rest

def read (bytes : List UInt8) : Except Fault CoverageReport := do
  match byteLines bytes with
  | [] => throw .missingSeparator
  | header :: rest =>
    let _ ← decodeLine header
    match rest with
    | [] => throw .missingSeparator
    | second :: rows =>
      let line ← decodeLine second
      if !isRule line then throw .missingSeparator
      readRows ∅ rows

def readText (text : String) : Except Fault CoverageReport :=
  read (encode text)

end Untested.CoverageTable
