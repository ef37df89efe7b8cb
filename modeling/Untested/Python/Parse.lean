/-
# Parsing steps

A parser goes through a source text with one token of lookahead.  Which tokens may come next
decides how the text is divided, so every step that consumes a token says what it expects behind
it, and the next token is read at once under that expectation.  Whether a word is a keyword is
decided by whoever looks at it: a word is a keyword only where that keyword may stand.

A step yields the nodes it has read, in source order and with trivia in between.
-/

import Untested.Python.Layout
import Untested.Text.Identifier

namespace Untested.Python

open Text

/-- The next token, as far as it can be told without knowing the grammar. -/
inductive Lookahead where
  | newline
  | indent
  | dedent
  /-- The beginning of a string literal, and the input behind it. -/
  | stringStart (stop : Input)
  /-- A keyword or an identifier. -/
  | word (letters : List Char)
  /-- Anything else. -/
  | symbol
  | endOfText
deriving Inhabited

structure ParserState where
  input : Input
  layout : Layout
  next : Lookahead
  /-- Comments and joined lines in front of the next token, the last first. -/
  trivia : List Node
  /-- More than the number of characters of the whole text. -/
  limit : Nat
deriving Inhabited

/-- Whether a character is blank space between tokens. -/
def isTokenGap (c : Char) : Bool :=
  c = ' ' || ('\t' ≤ c && c ≤ '\r') || c = '\ufeff' || c = '\u2060' || c = '\u200b'

/-- The input behind the characters at its beginning that satisfy a condition. -/
def Input.dropWhile (condition : Char → Bool) (input : Input) : Input :=
  go input.position input.rest
where
  /-- The same, from the given place on. -/
  go (position : Position) : List Char → Input
    | [] => { rest := [], position }
    | c :: rest =>
      if condition c then go (position.after c) rest else { rest := c :: rest, position }

/-- A node without children between two places. -/
def Node.leaf (kind : Kind) (isNamed : Bool) (start stop : Input) : Node :=
  .mk { kind, isNamed, start := start.position, stop := stop.position } []

/-- The length of a backslash that joins two lines, with the line feed. -/
def continuationLength? : List Char → Option Nat
  | '\\' :: '\n' :: _ => some 2
  | '\\' :: '\r' :: '\n' :: _ => some 3
  | '\\' :: '\x00' :: _ => some 2
  | _ => none

/-- Reads the next token, given the trivia met so far.  At most `bound` further trivia are read in
front of it. -/
def readToken (expected : Expected) (layout : Layout) (limit : Nat) :
    Nat → List Node → Input → ParserState
  | 0, trivia, input => { input, layout, next := .symbol, trivia, limit }
  | bound + 1, trivia, input =>
    match layout.scan expected input with
    | some (token, start, stop, layout) =>
      let next : Lookahead :=
        match token with
        | .newline => .newline
        | .indent => .indent
        | .dedent => .dedent
        | .stringStart => .stringStart stop
      { input := start, layout, next, trivia, limit }
    | none =>
      let input := input.dropWhile isTokenGap
      match input.rest with
      | [] => { input, layout, next := .endOfText, trivia, limit }
      | c :: rest =>
        if c = '#' then
          let stop := input.dropWhile fun c => c ≠ '\n' && c ≠ '\x00'
          readToken expected layout limit bound (.leaf .comment true input stop :: trivia) stop
        else
          match continuationLength? (c :: rest) with
          | some length =>
            let stop := input.drop length
            readToken expected layout limit bound
              (.leaf .lineContinuation true input stop :: trivia) stop
          | none =>
            if isIdentifierStart c then
              let letters := c :: rest.takeWhile isIdentifierPart
              { input, layout, next := .word letters, trivia, limit }
            else { input, layout, next := .symbol, trivia, limit }

/-- A step of a parser.  It fails with the place where the text stops being well formed. -/
abbrev Parse := StateT ParserState (Except Position)

/-- Fails at the next token. -/
def reject {α : Type} : Parse α := do
  throw (← get).input.position

/-- Runs the first step, and the second from the same place if the first fails. -/
def orElse {α : Type} (first second : Parse α) : Parse α := fun state =>
  match first state with
  | .ok result => .ok result
  | .error _ => second state

/-- Runs a step and comes back to where it began.  It answers `false` where the step fails. -/
def lookingAt (condition : Parse Bool) : Parse Bool := fun state =>
  match condition state with
  | .ok (answer, _) => .ok (answer, state)
  | .error _ => .ok (false, state)

/-- Repeats a step until it has nothing to add, at most `bound` times. -/
def repeated (step : Parse (Option (List Node))) : Nat → Parse (List Node)
  | 0 => reject
  | bound + 1 => do
    match ← step with
    | none => return []
    | some nodes => return nodes ++ (← repeated step bound)

def atWord (word : String) : Parse Bool := do
  match (← get).next with
  | .word letters => return letters = word.toList
  | _ => return false

/-- Whether the next token is one of the given words. -/
def atAnyWord (words : List String) : Parse Bool :=
  words.anyM atWord

def atSymbol (symbol : String) : Parse Bool := do
  let state ← get
  match state.next with
  | .symbol => return symbol.toList.isPrefixOf state.input.rest
  | _ => return false

/-- Whether a symbol comes next that an equality sign does not turn into another. -/
def atBareSymbol (symbol : String) : Parse Bool := do
  let state ← get
  match state.next with
  | .symbol =>
    return symbol.toList.isPrefixOf state.input.rest &&
      (state.input.rest.drop symbol.length).head? ≠ some '='
  | _ => return false

/-- Whether a statement ends here. -/
def atNewline : Parse Bool := do
  match (← get).next with
  | .newline => return true
  | _ => return false

def atIndent : Parse Bool := do
  match (← get).next with
  | .indent => return true
  | _ => return false

/-- Whether a block ends here. -/
def atDedent : Parse Bool := do
  match (← get).next with
  | .dedent => return true
  | _ => return false

def atString : Parse Bool := do
  match (← get).next with
  | .stringStart _ => return true
  | _ => return false

def atEnd : Parse Bool := do
  match (← get).next with
  | .endOfText => return true
  | _ => return false

/-- Goes on behind a token that ends at `stop`, and yields the token after the trivia in front of
it. -/
def consumeTo (kind : Kind) (isNamed : Bool) (stop : Input) (expected : Expected) :
    Parse (List Node) := fun state =>
  let token := Node.leaf kind isNamed state.input stop
  .ok (state.trivia.reverse ++ [token],
    readToken expected state.layout state.limit state.limit [] stop)

/-- Goes on behind the next `length` characters. -/
def consume (kind : Kind) (isNamed : Bool) (length : Nat) (expected : Expected) :
    Parse (List Node) := do
  consumeTo kind isNamed ((← get).input.drop length) expected

/-- Goes on behind a layout token, which leaves no node. -/
def consumeLayout (expected : Expected) : Parse (List Node) := fun state =>
  .ok ([], readToken expected state.layout state.limit state.limit state.trivia state.input)

def consumeWord (kind : Kind) (isNamed : Bool) (expected : Expected) : Parse (List Node) := do
  match (← get).next with
  | .word letters => consume kind isNamed letters.length expected
  | _ => reject

def keyword (word : String) (expected : Expected) : Parse (List Node) := do
  if ← atWord word then consumeWord .other false expected else reject

def symbol (text : String) (expected : Expected) : Parse (List Node) := do
  if ← atSymbol text then consume .other false text.length expected else reject

/-- Demands an identifier, which may be any word. -/
def identifier (expected : Expected) : Parse (List Node) :=
  consumeWord .identifier true expected

/-- Demands the end of a statement. -/
def newline (expected : Expected) : Parse (List Node) := do
  if ← atNewline then consumeLayout expected else reject

/-- Makes one node of a stretch of nodes.  Trivia in front of it stay outside. -/
def wrap (kind : Kind) (nodes : List Node) (field : Option Field := none) : List Node :=
  let trivia := nodes.takeWhile Node.isTrivia
  let inner := nodes.dropWhile Node.isTrivia
  match inner, (inner.reverse.dropWhile Node.isTrivia) with
  | first :: _, last :: _ =>
    trivia ++ [.mk { kind, field, start := first.label.start, stop := last.label.stop } inner]
  | _, _ => nodes

/-- Gives a role to the last node of a stretch of nodes. -/
def withField (field : Field) (nodes : List Node) : List Node :=
  match nodes.reverse with
  | .mk label children :: earlier => earlier.reverse ++ [.mk { label with field } children]
  | [] => []

end Untested.Python
