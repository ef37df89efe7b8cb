/-
# Matching

A text is matched piece by piece, trying shorter stretches for a star before longer ones.  Once a
piece finds no character left to match, no longer stretch for an earlier star can help, so the
search gives up as a whole.

A malformed pattern matches its own text only.
-/

import Untested.Glob.Pattern

namespace Untested.Glob

/-- What a search finds out about a text. -/
inductive Outcome where
  | matched
  | mismatched
  /-- The text is too short, and so is whatever it ends with. -/
  | exhausted
deriving DecidableEq, Repr

/-- Whether a piece for a single character admits the given one. -/
def Piece.admits (c : Char) : Piece → Bool
  | literal d => c = d
  | anyChar => c ≠ '/'
  | oneOf items => c ≠ '/' && items.any (·.contains c)
  | noneOf items => c ≠ '/' && !items.any (·.contains c)
  | star | directories => false

/-- Tries what follows a star at every place that the star can reach. -/
def searchStar (next : List Char → Outcome) : List Char → Outcome
  | [] => next []
  | c :: rest =>
    match next (c :: rest) with
    | .mismatched => if c = '/' then .mismatched else searchStar next rest
    | outcome => outcome

/-- Tries what follows directories behind every slash, and at last at the end of the text. -/
def searchBehindSlashes (next : List Char → Outcome) : List Char → Outcome
  | [] => next []
  | c :: rest =>
    if c = '/' then
      match next rest with
      | .mismatched => searchBehindSlashes next rest
      | outcome => outcome
    else searchBehindSlashes next rest

/-- Matches a text against the pieces of a pattern. -/
def search : List Piece → List Char → Outcome
  | [], text => if text = [] then .matched else .mismatched
  | .star :: pieces, text => searchStar (search pieces) text
  | .directories :: pieces, text =>
    match search pieces text with
    | .mismatched => searchBehindSlashes (search pieces) text
    | outcome => outcome
  | _ :: _, [] => .exhausted
  | piece :: pieces, c :: rest =>
    if piece.admits c then search pieces rest else .mismatched

def isMatch (pattern text : List Char) : Bool :=
  match pieces? pattern with
  | some pieces => search pieces text = .matched
  | none => pattern = text

end Untested.Glob
