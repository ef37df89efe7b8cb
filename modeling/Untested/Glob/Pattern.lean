/-
# Glob patterns

A glob pattern denotes a set of paths or names.  A star stands for any characters of one path
component, a question mark for one of them, and brackets for one out of a class.  Two stars that
make up a whole component stand for any number of directories.  Every other character stands for
itself, backslashes and leading points included.

A pattern with three stars in a row, with two stars that are only a part of a component, or with
an unfinished class is malformed.
-/

namespace Untested.Glob

/-- A member of a character class. -/
inductive ClassItem where
  | single (c : Char)
  | range (first last : Char)
deriving DecidableEq, Repr

def ClassItem.contains (c : Char) : ClassItem → Bool
  | single d => c = d
  | range first last => first ≤ c && c ≤ last

/-- A piece of a pattern. -/
inductive Piece where
  | literal (c : Char)
  /-- Any character but a slash. -/
  | anyChar
  /-- Any character of a class but a slash. -/
  | oneOf (items : List ClassItem)
  /-- Any character outside a class but a slash. -/
  | noneOf (items : List ClassItem)
  /-- Any characters but slashes. -/
  | star
  /-- Any number of directories, each with the slash behind it.  At the end of a pattern it stands
  for any characters at all. -/
  | directories
deriving DecidableEq, Repr

/-- The items of a character class, given the characters between its brackets.  A dash between two
characters makes a range, and anywhere else it is an ordinary member. -/
def classItems : List Char → List ClassItem
  | first :: '-' :: last :: rest => .range first last :: classItems rest
  | c :: rest => .single c :: classItems rest
  | [] => []

/-- The piece for a finished class. -/
def classPiece (isNegated : Bool) (members : List Char) : Piece :=
  if isNegated then .noneOf (classItems members) else .oneOf (classItems members)

/-- Where in a pattern a reader stands. -/
inductive Mode where
  /-- Outside all classes, and whether at the beginning of a component. -/
  | outside (startsComponent : Bool)
  /-- In a class: whether it is negated, and its characters so far in reverse. -/
  | inside (isNegated : Bool) (members : List Char)

/-- The pieces of the rest of a pattern.  The character behind the bracket that opens a class, or
behind the mark that negates it, belongs to the class whatever it is. -/
def piecesFrom : Mode → List Char → Option (List Piece)
  | .inside _ _, [] => none
  | .inside isNegated members, c :: rest =>
    if c = ']' then
      (piecesFrom (.outside false) rest).map (classPiece isNegated members.reverse :: ·)
    else piecesFrom (.inside isNegated (c :: members)) rest
  | .outside _, [] => some []
  | .outside startsComponent, '*' :: '*' :: '/' :: rest =>
    if startsComponent then (piecesFrom (.outside true) rest).map (.directories :: ·) else none
  | .outside startsComponent, ['*', '*'] => if startsComponent then some [.directories] else none
  | .outside _, '*' :: '*' :: _ => none
  | .outside _, '*' :: rest => (piecesFrom (.outside false) rest).map (.star :: ·)
  | .outside _, '?' :: rest => (piecesFrom (.outside false) rest).map (.anyChar :: ·)
  | .outside _, '[' :: '!' :: c :: rest => piecesFrom (.inside true [c]) rest
  | .outside _, ['[', '!'] => none
  | .outside _, '[' :: c :: rest => piecesFrom (.inside false [c]) rest
  | .outside _, ['['] => none
  | .outside _, c :: rest => (piecesFrom (.outside (c = '/')) rest).map (.literal c :: ·)

/-- The pieces of a pattern, unless it is malformed. -/
def pieces? (pattern : List Char) : Option (List Piece) :=
  piecesFrom (.outside true) pattern

end Untested.Glob
