/-
# Source texts of YAML

Indentation is part of YAML's grammar, so a reader has to know the column of every character.  A
source is therefore a list of cells: characters with their places.  All common ends of lines have
become line feeds in it; the separators of lines and of paragraphs stay what they are.
-/

namespace Untested.Yaml

/-- A place in a text.  All counts begin at zero. -/
structure Mark where
  /-- The number of characters before it. -/
  index : Nat := 0
  /-- The number of lines before it. -/
  line : Nat := 0
  /-- The number of characters before it on its line. -/
  column : Nat := 0
deriving DecidableEq, Repr

/-- A character with its place. -/
structure Cell where
  char : Char
  mark : Mark
deriving DecidableEq, Repr

/-- Whether the character ends a line in a source. -/
def isBreak (c : Char) : Bool :=
  c = '\n' || c = '\u2028' || c = '\u2029'

/-- Whether the character is blank space within a line. -/
def isGap (c : Char) : Bool :=
  c = ' ' || c = '\t'

/-- Whether a source is at blank space, at the end of a line or at its own end. -/
def isBlankEnd : List Cell → Bool
  | [] => true
  | cell :: _ => isGap cell.char || isBreak cell.char

/-- Whether a source is at the end of a line or at its own end. -/
def isLineEnd : List Cell → Bool
  | [] => true
  | cell :: _ => isBreak cell.char

def startsWith (c : Char) (cells : List Cell) : Bool :=
  cells.head?.any (·.char = c)

/-- Whether a source begins with a character that a test accepts. -/
def startsIn (test : Char → Bool) (cells : List Cell) : Bool :=
  cells.head?.any (test ·.char)

/-- Whether a text may contain the character at all. -/
def isAllowed (c : Char) : Bool :=
  let n := c.toNat
  n = 0x09 || n = 0x0A || n = 0x0D || (0x20 ≤ n && n ≤ 0x7E) || n = 0x85 ||
    (0xA0 ≤ n && n ≤ 0xFFFD) || 0x10000 ≤ n

def Mark.next (mark : Mark) (c : Char) : Mark :=
  if isBreak c then { index := mark.index + 1, line := mark.line + 1 }
  else { mark with index := mark.index + 1, column := mark.column + 1 }

/-- The cells of a text that begins at a place. -/
def cellsFrom (mark : Mark) : List Char → List Cell
  | [] => []
  | '\r' :: '\n' :: rest =>
    let afterReturn := { mark with index := mark.index + 1 }
    ⟨'\n', mark⟩ :: cellsFrom (afterReturn.next '\n') rest
  | c :: rest =>
    let c := if c = '\r' || c = '\u0085' then '\n' else c
    ⟨c, mark⟩ :: cellsFrom (mark.next c) rest

/-- The place at the end of a source. -/
def finalMark (cells : List Cell) : Mark :=
  match cells.getLast? with
  | some cell => cell.mark.next cell.char
  | none => {}

/-- Whether a mark of three equal characters stands at the beginning of the line. -/
def isThreefold (c : Char) : List Cell → Bool
  | a :: b :: d :: rest =>
    a.mark.column = 0 && a.char = c && b.char = c && d.char = c && isBlankEnd rest
  | _ => false

/-- Whether a mark between documents stands at the beginning of the line. -/
def isBoundary (cells : List Cell) : Bool :=
  isThreefold '-' cells || isThreefold '.' cells

/-- The source behind blank space within the line. -/
def skipGap (cells : List Cell) : List Cell :=
  cells.dropWhile (isGap ·.char)

/-- The source from the end of the line on. -/
def skipLine (cells : List Cell) : List Cell :=
  cells.dropWhile (!isBreak ·.char)

/-- The source from the end of the line on, if there is no more than a comment before it. -/
def skipComment? (cells : List Cell) : Option (List Cell) :=
  let rest := skipGap cells
  let rest := if startsWith '#' rest then skipLine rest else rest
  if isLineEnd rest then some rest else none

def isNaming (c : Char) : Bool :=
  ('0' ≤ c && c ≤ '9') || ('A' ≤ c && c ≤ 'Z') || ('a' ≤ c && c ≤ 'z') || c = '_' || c = '-'

/-- The leading name of a source, which may be empty, and what follows it. -/
def splitName (cells : List Cell) : List Char × List Cell :=
  ((cells.takeWhile (isNaming ·.char)).map (·.char), cells.dropWhile (isNaming ·.char))

end Untested.Yaml
