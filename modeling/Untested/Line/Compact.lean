/-
# Compact line lists

A set of lines is written as its runs in ascending order, separated by commas: a run of one line
is its number, a longer run its two ends joined by a dash, as in `5-8, 12, 20-21`.  Reading is
more liberal than writing.  Pieces may come in any order, may overlap and may have blanks around
every number.  One malformed piece fails the whole list, so that no line is dropped silently.
-/

import Untested.Line.Set
import Untested.Text.Blank
import Untested.Text.Decimal

namespace Untested

/-- Why a piece of a line list denotes no lines. -/
inductive RangeFault where
  /-- A number is not a string of ASCII digits. -/
  | notDecimal
  /-- A number exceeds the greatest line number. -/
  | tooLarge
  /-- The two ends are in the wrong order. -/
  | reversed
deriving DecidableEq, Repr

/-- The explanation shown to the user. -/
def RangeFault.message : RangeFault → String
  | notDecimal => "expected a decimal line number"
  | tooLarge => "number too large to fit in target type"
  | reversed => "range start is after range end"

/-- The first malformed piece of a line list, trimmed, and what is wrong with it. -/
structure RangeError where
  /-- The piece without the blanks at its ends. -/
  token : List Char
  fault : RangeFault
deriving DecidableEq, Repr

namespace LineSet

open Text

/-- One run: a single number, or its two ends. -/
def writeRun (run : Nat × Nat) : List Char :=
  if run.1 = run.2 then decimalDigits run.1
  else decimalDigits run.1 ++ '-' :: decimalDigits run.2

/-- Runs separated by a comma and a space. -/
def writeRuns : List (Nat × Nat) → List Char
  | [] => []
  | [run] => writeRun run
  | run :: next :: runs => writeRun run ++ ',' :: ' ' :: writeRuns (next :: runs)

/-- The compact list of the members. -/
def write (set : LineSet) : List Char :=
  writeRuns set.runs

instance : ToString LineSet where
  toString set := String.ofList set.write

/-- A line number, with blanks allowed around it. -/
def readLine (text : List Char) : Except RangeFault Nat :=
  let digits := trim text
  if digits.isEmpty || !digits.all isDigit then .error .notDecimal
  else if maxLine < decimalValue digits then .error .tooLarge
  else .ok (decimalValue digits)

/-- The lines denoted by one trimmed piece.  A piece with a dash in it is read as two ends, so
its start is looked at before its end and the order of the two last. -/
def readPiece (token : List Char) : Except RangeFault LineSet :=
  match splitOnce? '-' token with
  | none => do
    let line ← readLine token
    return interval line line
  | some (left, right) => do
    let start ← readLine left
    let stop ← readLine right
    if stop < start then throw .reversed
    return interval start stop

/-- The lines of all pieces together, or the first malformed piece. -/
def readPieces : List (List Char) → Except RangeError LineSet
  | [] => .ok ∅
  | piece :: pieces =>
    match readPiece (trim piece) with
    | .error fault => .error { token := trim piece, fault }
    | .ok lines => (readPieces pieces).map lines.union

/-- The set denoted by a comma-separated list of lines and ranges. -/
def read (text : List Char) : Except RangeError LineSet :=
  readPieces (splitAt ',' text)

end LineSet

end Untested
