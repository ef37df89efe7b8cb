/-
# Line spans

The lines that a statement occupies form an interval that is never empty.
-/

import Untested.Line.Set

namespace Untested

/-- The lines from `start` to `stop`, both included. -/
structure LineSpan where
  start : Nat
  stop : Nat
  /-- A span holds at least its first line. -/
  start_le_stop : start ≤ stop := by omega
deriving DecidableEq, Repr

namespace LineSpan

/-- The span between two lines.  When they come in the wrong order it is the single line
`start`. -/
def between (start stop : Nat) : LineSpan where
  start := start
  stop := max stop start
  start_le_stop := Nat.le_max_right ..

def single (line : Nat) : LineSpan :=
  between line line

def lines (span : LineSpan) : LineSet :=
  .interval span.start span.stop

/-- The number of lines in the span. -/
def count (span : LineSpan) : Nat :=
  span.stop + 1 - span.start

end LineSpan

end Untested
