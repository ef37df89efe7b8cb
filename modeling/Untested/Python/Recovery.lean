/-
# Malformed places

A parser fails at some token, but what is wrong may lie before it.  The malformed place of a text
is therefore that of the cheapest repair: either a stretch around the failure is left out, or a word
or bracket is put in front of it.  A repair is good if the statement in which the parser failed is
well formed with it.

The stretch begins at the failure or at one of the tokens before it.  It ends at the failure or at
a token behind it.  Only at the beginning of a statement outside all blocks may the rest of the
text be left out, since nothing else is complete at the end of a text.
-/

import Untested.Python.Grammar.Text

namespace Untested.Python

/-- What can be done about a malformed place: a text is put where a stretch was. -/
structure Repair where
  cost : Nat
  start : Input
  stop : Input
  text : List Char := []

namespace Repair

/-- The price of a stretch that is left out, apart from its contents. -/
def stretchPrice : Nat := 500

/-- The price of a token in a stretch that is left out, apart from its characters. -/
def tokenPrice : Nat := 100

/-- The price of the end of a line in a stretch that is left out. -/
def linePrice : Nat := 30

/-- The price of a token that is put in. -/
def insertionPrice : Nat := 610

/-- How many tokens before the failure a stretch may take in. -/
def tokensBefore : Nat := 15

/-- How many tokens behind the failure a stretch may take in. -/
def tokensAfter : Nat := 8

/-- What the character before a place belongs to. -/
inductive Run where
  | word
  | number
  | other
deriving DecidableEq, Repr

/-- What a character belongs to, given what the one before it belongs to. -/
def Run.next (run : Run) (c : Char) : Run :=
  if run = .word && Text.isIdentifierPart c then .word
  else if Text.isDigit c || (run = .number && c = '_') then .number
  else if Text.isIdentifierPart c then .word
  else .other

/-- The places at which tokens begin.  A word is one token, the digits of a number are one, and so
is any other character that is not blank. -/
def tokenStarts (run : Run) (position : Position) : List Char → List Input
  | [] => []
  | c :: rest =>
    let next := run.next c
    let later := tokenStarts next (position.after c) rest
    if isTokenGap c || (next = run && run ≠ .other) then later
    else ⟨c :: rest, position⟩ :: later

/-- The parser at the last statement outside all blocks at which it can still stand. -/
def lastStatement (rules : Rules) : Nat → ParserState → ParserState
  | 0, state => state
  | bound + 1, state =>
    match (topLevelStatement rules).run state with
    | .ok (_, next) => lastStatement rules bound next
    | .error _ => state

/-- Whether statements follow each other up to a place behind the given one, or up to the end of
the text. -/
def reaches (rules : Rules) (goal : Nat) : Nat → ParserState → Bool
  | 0, _ => false
  | bound + 1, state =>
    match state.next with
    | .endOfText => true
    | _ =>
      match (topLevelStatement rules).run state with
      | .ok (_, next) => decide (goal < next.input.position.offset) || reaches rules goal bound next
      | .error _ => false

/-- What is known of a failure. -/
structure Failure where
  rules : Rules
  /-- More than the number of statements. -/
  bound : Nat
  start : ParserState
  /-- The tokens of the statement before the failure. -/
  before : List Input
  place : Input
  /-- The tokens from the failure on. -/
  after : List Input

namespace Failure

/-- The characters of the statement before a place. -/
def front (failure : Failure) (stop : Input) : List Char :=
  failure.start.input.rest.take (stop.position.offset - failure.start.input.position.offset)

/-- Whether the statement in which the parser failed is well formed with a repair. -/
def accepts (failure : Failure) (repair : Repair) : Bool :=
  let rest := failure.front repair.start ++ repair.text ++ repair.stop.rest
  let state := readToken .topLevel failure.start.layout failure.start.limit failure.start.limit []
    { failure.start.input with rest }
  reaches failure.rules repair.start.position.offset failure.bound state

/-- The price of leaving out a stretch. -/
def price (failure : Failure) (start stop : Input) : Nat :=
  let first := start.position.offset
  let last := stop.position.offset
  let isInside (token : Input) : Bool :=
    first ≤ token.position.offset && token.position.offset < last
  let tokens := ((failure.before ++ failure.after).filter isInside).length
  let bytes := (start.rest.take (last - first)).foldl (fun bytes c => bytes + c.utf8Size) 0
  stretchPrice + bytes + linePrice * (stop.position.row - start.position.row) + tokenPrice * tokens

/-- The repair that leaves out a stretch, if the stretch may begin and end like that. -/
def leaveOut? (failure : Failure) (start stop : Input) : Option Repair :=
  let isWhole := start.position = failure.start.input.position
  if start.position = stop.position || (stop.rest.isEmpty && !isWhole) then none
  else some { cost := failure.price start stop, start, stop }

/-- The place behind the last token before the failure. -/
def gapStart (failure : Failure) : Input :=
  let gap := ((failure.front failure.place).reverse.takeWhile isTokenGap).length
  let length := failure.place.position.offset - failure.start.input.position.offset - gap
  failure.start.input.drop length

/-- What is put in where an expression or a closing bracket is missing. -/
def insertions : List (List Char) :=
  [[' ', 'x', ' '], [')'], [']'], ['\x7d']]

/-- The repairs that put in something.  There are none at the end of a text. -/
def putIns (failure : Failure) : List Repair :=
  if failure.place.rest.isEmpty then []
  else
    let place := failure.gapStart
    insertions.map fun text => { cost := insertionPrice, start := place, stop := place, text }

/-- All repairs that may be tried. -/
def repairs (failure : Failure) : List Repair :=
  let starts :=
    failure.start.input :: (failure.before.reverse.take tokensBefore).reverse ++ [failure.place]
  let stop := failure.place.drop failure.place.rest.length
  let stops := failure.place :: failure.after.take tokensAfter ++ [stop]
  starts.flatMap (fun start => stops.filterMap (failure.leaveOut? start)) ++ failure.putIns

/-- The cheapest good repair, and the first of equally cheap ones. -/
def cheapest? (failure : Failure) : Option Repair :=
  (failure.repairs.mergeSort fun first second => first.cost ≤ second.cost).find? failure.accepts

end Failure

/-- The failure of a parser at a place of a text. -/
def failureAt (source : List Char) (place : Position) : Failure :=
  let bound := nestingBound source
  let rules := rulesWithin bound
  let start := lastStatement rules bound (.start source)
  let length := place.offset - start.input.position.offset
  let input := start.input.drop length
  { rules, bound, start
    before := (tokenStarts .other start.input.position start.input.rest).takeWhile fun token =>
      token.position.offset < place.offset
    place := input
    after := tokenStarts .other input.position input.rest }

/-- The node that marks the place of a repair. -/
def node (repair : Repair) : Node :=
  let isMissing := !repair.text.isEmpty
  .mk
    { kind := if isMissing then .other else .error
      isMissing
      start := repair.start.position
      stop := repair.stop.position } []

end Repair

/-- The node that marks the malformed place of a text in which a parser fails at the given place.
Where no repair is good, all is left out from the beginning of the statement on. -/
def malformedNode (source : List Char) (place : Position) : Node :=
  let failure := Repair.failureAt source place
  match failure.cheapest? with
  | some repair => repair.node
  | none =>
    .mk { kind := .error, start := failure.start.input.position, stop := place } []

end Untested.Python
