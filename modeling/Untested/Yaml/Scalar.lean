/-
# Scalars in YAML

A scalar is written plain, between quotation marks, or as a block of lines below its indicator.
Where a plain or quoted scalar goes over several lines, the end of a line is folded: a single one
becomes a space, and of several all but the first are kept.
-/

import Untested.Text.Hexadecimal
import Untested.Yaml.Source

namespace Untested.Yaml

/-- The blank space just passed within a scalar. -/
inductive Gap where
  /-- Blanks within a line. -/
  | inline (blanks : List Char)
  /-- Ends of lines.  The first is absent where it was escaped. -/
  | broken (first : Option Char) (more : List Char)
deriving DecidableEq, Repr

namespace Gap

/-- No blank space at all. -/
def none : Gap :=
  .inline []

/-- Whether there is no blank space. -/
def isNone : Gap → Bool
  | inline blanks => blanks.isEmpty
  | broken _ _ => false

/-- Whether a line ends in the blank space. -/
def isBroken : Gap → Bool
  | inline _ => false
  | broken _ _ => true

/-- The space with one more blank.  Blanks at the beginning of a line do not count. -/
def addBlank (c : Char) : Gap → Gap
  | inline blanks => inline (blanks ++ [c])
  | gap => gap

/-- The space with one more end of a line, which makes earlier blanks void. -/
def addBreak (c : Char) : Gap → Gap
  | inline _ => broken (some c) []
  | broken first more => broken first (more ++ [c])

/-- What the blank space stands for. -/
def text : Gap → List Char
  | inline blanks => blanks
  | broken (some '\n') [] => [' ']
  | broken (some '\n') more => more
  | broken first more => first.toList ++ more

end Gap

structure ScalarReading where
  text : List Char
  /-- Whether a line ended in the blank space behind it, which belongs to it. -/
  isBroken : Bool
  rest : List Cell

def ScalarReading.prepend (front : List Char) (reading : ScalarReading) : ScalarReading :=
  { reading with text := front ++ reading.text }

/-- Whether the character delimits the items of collections in brackets and braces. -/
def isFlowMark (c : Char) : Bool :=
  c = ',' || c = '[' || c = ']' || c = '\x7b' || c = '\x7d'

def endsPlain (inFlow : Bool) (cell : Cell) (rest : List Cell) : Bool :=
  (cell.char = ':' && isBlankEnd rest) || (inFlow && isFlowMark cell.char)

/-- Reads a plain scalar.  In block context it ends before a line that is indented less than
`indent`. -/
def plain (inFlow : Bool) (indent : Nat) (gap : Gap) : List Cell → Option ScalarReading
  | [] => some ⟨[], gap.isBroken, []⟩
  | cell :: rest =>
    let isOutside := decide (cell.mark.column < indent)
    if isBreak cell.char then plain inFlow indent (gap.addBreak cell.char) rest
    else if isGap cell.char then
      if cell.char = '\t' && gap.isBroken && isOutside then none
      else plain inFlow indent (gap.addBlank cell.char) rest
    else if !gap.isNone &&
        (!inFlow && isOutside || isBoundary (cell :: rest) || cell.char = '#') then
      some ⟨[], gap.isBroken, cell :: rest⟩
    else if inFlow && cell.char = ':' && startsIn (fun c => isFlowMark c || c = '?') rest then none
    else if endsPlain inFlow cell rest then some ⟨[], gap.isBroken, cell :: rest⟩
    else (plain inFlow indent .none rest).map (·.prepend (gap.text ++ [cell.char]))

/-- What a reader of a quoted scalar has just passed. -/
inductive QuotedState where
  | ordinary
  | apostrophe
  | backslash
  /-- Some digits of an escaped code point: how many are left, and the value so far. -/
  | digits (left value : Nat)
deriving DecidableEq, Repr

/-- The character that a letter behind a backslash stands for. -/
def escaped? (c : Char) : Option Char :=
  [('0', '\x00'), ('a', '\x07'), ('b', '\x08'), ('t', '\t'), ('\t', '\t'), ('n', '\n'),
   ('v', '\x0b'), ('f', '\x0c'), ('r', '\r'), ('e', '\x1b'), (' ', ' '), ('\x22', '\x22'),
   ('/', '/'), ('\\', '\\'), ('N', '\u0085'), ('_', '\u00a0'), ('L', '\u2028'),
   ('P', '\u2029')].lookup c

/-- The number of digits that a letter behind a backslash announces. -/
def escapeDigits? (c : Char) : Option Nat :=
  [('x', 2), ('u', 4), ('U', 8)].lookup c

/-- Reads the rest of a quoted scalar and its closing mark. -/
def quoted (isSingle : Bool) : QuotedState → Gap → List Cell → Option ScalarReading
  | .apostrophe, gap, [] => some ⟨gap.text, false, []⟩
  | _, _, [] => none
  | .apostrophe, gap, cell :: rest =>
    if cell.char = '\x27' then
      (quoted isSingle .ordinary .none rest).map (·.prepend (gap.text ++ ['\x27']))
    else some ⟨gap.text, false, cell :: rest⟩
  | .backslash, gap, cell :: rest =>
    if isBreak cell.char then
      (quoted isSingle .ordinary (.broken none []) rest).map (·.prepend gap.text)
    else
      match escaped? cell.char, escapeDigits? cell.char with
      | some c, _ => (quoted isSingle .ordinary .none rest).map (·.prepend (gap.text ++ [c]))
      | none, some left => (quoted isSingle (.digits left 0) .none rest).map (·.prepend gap.text)
      | none, none => none
  | .digits left value, gap, cell :: rest =>
    match Text.hexValue? cell.char with
    | none => none
    | some digit =>
      let value := value * 16 + digit
      if 1 < left then quoted isSingle (.digits (left - 1) value) gap rest
      else if value.isValidChar then
        (quoted isSingle .ordinary .none rest).map (·.prepend [Char.ofNat value])
      else none
  | .ordinary, gap, cell :: rest =>
    if isBoundary (cell :: rest) then none
    else if isBreak cell.char then quoted isSingle .ordinary (gap.addBreak cell.char) rest
    else if isGap cell.char then quoted isSingle .ordinary (gap.addBlank cell.char) rest
    else if isSingle then
      if cell.char = '\x27' then quoted isSingle .apostrophe gap rest
      else (quoted isSingle .ordinary .none rest).map (·.prepend (gap.text ++ [cell.char]))
    else if cell.char = '\x22' then some ⟨gap.text, false, rest⟩
    else if cell.char = '\\' then quoted isSingle .backslash gap rest
    else (quoted isSingle .ordinary .none rest).map (·.prepend (gap.text ++ [cell.char]))

/-- What becomes of the ends of lines behind a block. -/
inductive Chomping where
  /-- All of them are left out. -/
  | strip
  /-- The first one is kept. -/
  | clip
  /-- All of them are kept. -/
  | keep
deriving DecidableEq, Repr

structure BlockStyle where
  /-- Whether the ends of lines are kept as they are. -/
  isLiteral : Bool
  /-- What becomes of the ends of lines behind it. -/
  chomping : Chomping
  /-- The column at which its lines begin. -/
  indent : Nat

/-- The lines of a block that have been passed but not written yet. -/
structure BlockGap where
  /-- The end of the last line with text. -/
  first : List Char := []
  /-- The ends of empty lines behind it. -/
  more : List Char := []
  /-- Whether that last line began with a blank. -/
  isIndented : Bool := false

/-- What the ends of lines before a line with text stand for. -/
def BlockGap.text (gap : BlockGap) (style : BlockStyle) (beginsBlank : Bool) : List Char :=
  if !style.isLiteral && gap.first = ['\n'] && !gap.isIndented && !beginsBlank then
    if gap.more.isEmpty then [' '] else gap.more
  else gap.first ++ gap.more

/-- What the ends of lines behind a block stand for. -/
def BlockGap.tail (gap : BlockGap) : Chomping → List Char
  | .strip => []
  | .clip => gap.first
  | .keep => gap.first ++ gap.more

/-- Reads the lines of a block, within a line or before one. -/
def blockLines (style : BlockStyle) (inLine : Bool) (gap : BlockGap) :
    List Cell → Option ScalarReading
  | [] => some ⟨gap.tail style.chomping, false, []⟩
  | cell :: rest =>
    let c := cell.char
    if inLine then
      if isBreak c then
        blockLines style false { gap with first := [c], more := [] } rest
      else
        (blockLines style true gap rest).map (·.prepend [c])
    else if cell.mark.column < style.indent && c = ' ' then
      blockLines style false gap rest
    else if cell.mark.column < style.indent && c = '\t' then none
    else if isBreak c then
      blockLines style false { gap with more := gap.more ++ [c] } rest
    else if cell.mark.column = style.indent then
      let line : BlockGap := { isIndented := isGap c }
      (blockLines style true line rest).map (·.prepend (gap.text style (isGap c) ++ [c]))
    else some ⟨gap.tail style.chomping, false, cell :: rest⟩

/-- Passes the empty lines at the beginning of a block and the blanks before its first line with
text.  Finds their ends and the greatest indentation. -/
def leadingLines (deepest : Nat) (ends : List Char) :
    List Cell → Option (Nat × List Char × List Cell)
  | [] => some (deepest, ends, [])
  | cell :: rest =>
    if cell.char = ' ' then leadingLines (max deepest (cell.mark.column + 1)) ends rest
    else if cell.char = '\t' then none
    else if isBreak cell.char then leadingLines deepest (ends ++ [cell.char]) rest
    else some (deepest, ends, cell :: rest)

/-- Reads the mark for the ends of lines behind a block, if there is one. -/
def chomping? : List Cell → Option (Chomping × List Cell)
  | [] => none
  | cell :: rest =>
    if cell.char = '+' then some (.keep, rest)
    else if cell.char = '-' then some (.strip, rest)
    else none

/-- Reads the number of columns by which a block is indented, where it is given. -/
def increment? : List Cell → Option (Option Nat × List Cell)
  | [] => some (none, [])
  | cell :: rest =>
    if cell.char = '0' then none
    else if '1' ≤ cell.char && cell.char ≤ '9' then
      some (some (cell.char.toNat - '0'.toNat), rest)
    else some (none, cell :: rest)

/-- Reads the two marks behind the indicator of a block, which may come in any order. -/
def blockMarks? (cells : List Cell) : Option (Chomping × Option Nat × List Cell) :=
  match chomping? cells with
  | some (chomping, rest) => (increment? rest).map fun (increment, rest) =>
    (chomping, increment, rest)
  | none => (increment? cells).map fun (increment, rest) =>
    match increment, chomping? rest with
    | some _, some (chomping, rest) => (chomping, increment, rest)
    | _, _ => (.clip, increment, rest)

/-- Reads a block behind its indicator.  `outer` is the column of the collection that it stands
in, if there is one. -/
def block (isLiteral : Bool) (outer : Option Nat) (cells : List Cell) :
    Option ScalarReading := do
  let (chomping, increment, rest) ← blockMarks? cells
  let rest := (← skipComment? rest).drop 1
  match increment with
  | some increment =>
    blockLines ⟨isLiteral, chomping, outer.getD 0 + increment⟩ false {} rest
  | none =>
    let (deepest, more, rest) ← leadingLines 0 [] rest
    let least := (outer.map (· + 1)).getD 0
    blockLines ⟨isLiteral, chomping, max 1 (max deepest least)⟩ false { more } rest

end Untested.Yaml
