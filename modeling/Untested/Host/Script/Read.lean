/-
# Scripts

A model computer has to start programs, and its programs are scripts of a small shell language:
simple commands with redirected output, `if`, `for`, and the connectives between commands.
-/

import Untested.Text.Identifier
import Untested.Text.Decimal

namespace Untested

namespace Script

/-- A part of a word. -/
inductive Segment where
  | text (letters : List Char)
  /-- The value of a parameter, and whether blanks in it separate words. -/
  | parameter (name : List Char) (isQuoted : Bool)
deriving DecidableEq, Repr

/-- A word of a command, before its parameters are replaced. -/
abbrev Word := List Segment

/-- Where the output of a command goes. -/
inductive Redirection where
  /-- To the end of a file. -/
  | append (target : Word)
  /-- To a file, in place of what it contained. -/
  | overwrite (target : Word)
  | complain
deriving DecidableEq, Repr

end Script

inductive Script where
  | command (words : List Script.Word) (redirections : List Script.Redirection)
  /-- The second part runs if the first succeeds. -/
  | both (first second : Script)
  /-- The second part runs if the first fails. -/
  | either (first second : Script)
  /-- One part runs after the other. -/
  | sequence (first second : Script)
  /-- One of two parts runs, depending on whether the condition succeeds. -/
  | conditional (condition consequence alternative : Script)
  /-- A part runs once for each word, which is the value of the named parameter. -/
  | loop (name : List Char) (words : List Script.Word) (body : Script)
  | skip
deriving Inhabited

namespace Script

open Text

inductive Token where
  | word (word : Word)
  /-- The end of a command. -/
  | separator
  /-- The mark `&&`. -/
  | andAlso
  /-- The mark `||`. -/
  | orElse
  /-- The mark `>>`. -/
  | append
  /-- The mark `>`. -/
  | overwrite
  /-- The mark `>&2`. -/
  | complain
deriving DecidableEq, Repr

/-- Whether the character may occur in the name of a parameter. -/
def isNameChar (c : Char) : Bool :=
  isDigit c || c = '_' || ('a' ≤ c && c ≤ 'z') || ('A' ≤ c && c ≤ 'Z')

/-- The parameter at the beginning of a text behind its dollar sign, and what follows it. -/
def readParameter (isQuoted : Bool) (text : List Char) : Segment × List Char :=
  match text with
  | '\x7b' :: rest =>
    (.parameter (rest.takeWhile (· ≠ '\x7d')) isQuoted, (rest.dropWhile (· ≠ '\x7d')).drop 1)
  | c :: rest =>
    if isDigit c || ['@', '*', '#', '?'].contains c then (.parameter [c] isQuoted, rest)
    else if isNameChar c then
      (.parameter (text.takeWhile isNameChar) isQuoted, text.dropWhile isNameChar)
    else (.text ['$'], text)
  | [] => (.text ['$'], [])

/-- The segments of a text in double quotation marks, and what follows the closing mark. -/
def readQuoted : Nat → List Char → Option (List Segment × List Char)
  | 0, _ => none
  | bound + 1, text =>
    match text with
    | [] => none
    | '\x22' :: rest => some ([.text []], rest)
    | '\\' :: c :: rest => do
      let letters := if ['$', '\x60', '\x22', '\\'].contains c then [c] else ['\\', c]
      let (segments, rest) ← readQuoted bound rest
      return (.text letters :: segments, rest)
    | '$' :: rest => do
      let (segment, rest) := readParameter true rest
      let (segments, rest) ← readQuoted bound rest
      return (segment :: segments, rest)
    | c :: rest => do
      let (segments, rest) ← readQuoted bound rest
      return (.text [c] :: segments, rest)

/-- The word read so far, in reverse, if one is open, in front of further tokens. -/
def closeWord (word : List Segment) (tokens : List Token) : List Token :=
  if word.isEmpty then tokens else .word word.reverse :: tokens

/-- The tokens of a script, given the segments of the open word in reverse. -/
def tokens : Nat → List Segment → List Char → Option (List Token)
  | 0, _, _ => none
  | bound + 1, word, text =>
    let close (token : Option Token) (rest : List Char) : Option (List Token) :=
      (tokens bound [] rest).map fun following => closeWord word (token.toList ++ following)
    match text with
    | [] => some (closeWord word [])
    | ' ' :: rest | '\t' :: rest => close none rest
    | '\n' :: rest | ';' :: rest => close (some .separator) rest
    | '&' :: '&' :: rest => close (some .andAlso) rest
    | '|' :: '|' :: rest => close (some .orElse) rest
    | '>' :: '&' :: '2' :: rest => close (some .complain) rest
    | '>' :: '>' :: rest => close (some .append) rest
    | '>' :: rest => close (some .overwrite) rest
    | '\x27' :: rest =>
      let letters := rest.takeWhile (· ≠ '\x27')
      tokens bound (.text letters :: word) (rest.drop (letters.length + 1))
    | '\x22' :: rest => do
      let (segments, rest) ← readQuoted bound rest
      tokens bound (segments.reverse ++ word) rest
    | '\\' :: '\n' :: rest => tokens bound word rest
    | '\\' :: c :: rest => tokens bound (.text [c] :: word) rest
    | '$' :: rest =>
      let (segment, rest) := readParameter false rest
      tokens bound (segment :: word) rest
    | '#' :: rest =>
      if word.isEmpty then tokens bound [] (rest.dropWhile (· ≠ '\n'))
      else tokens bound (.text ['#'] :: word) rest
    | c :: rest => tokens bound (.text [c] :: word) rest

/-- The letters of a word that needs no replacement. -/
def literal? (word : Word) : Option (List Char) :=
  (word.mapM fun (segment : Segment) =>
    match segment with
    | .text letters => some letters
    | .parameter _ _ => none).map List.flatten

def Token.isWord (letters : String) : Token → Bool
  | .word segments => literal? segments = some letters.toList
  | _ => false

/-- The tokens without the separators at their beginning. -/
def skipSeparators (input : List Token) : List Token :=
  input.dropWhile (· = .separator)

def expectWord (letters : String) (input : List Token) : Option (List Token) :=
  match skipSeparators input with
  | token :: rest => if token.isWord letters then some rest else none
  | [] => none

/-- The words and redirections of a command, and what follows it. -/
def readCommand (words : List Word) (redirections : List Redirection) :
    List Token → Script × List Token
  | .word word :: rest => readCommand (words ++ [word]) redirections rest
  | .append :: .word target :: rest => readCommand words (redirections ++ [.append target]) rest
  | .overwrite :: .word target :: rest =>
    readCommand words (redirections ++ [.overwrite target]) rest
  | .complain :: rest => readCommand words (redirections ++ [.complain]) rest
  | rest => (.command words redirections, rest)

/-- The words that end a list of commands. -/
def closers : List String :=
  ["then", "elif", "else", "fi", "do", "done"]

mutual

/-- Commands up to a word that ends them, and what follows. -/
def readList : Nat → List Token → Option (Script × List Token)
  | 0, _ => none
  | bound + 1, input =>
    match skipSeparators input with
    | [] => some (.skip, [])
    | token :: rest =>
      if closers.any (token.isWord ·) then some (.skip, token :: rest)
      else do
        let (first, rest) ← readChain bound (token :: rest)
        let (second, rest) ← readList bound rest
        return (.sequence first second, rest)

/-- Commands joined by connectives, and what follows. -/
def readChain : Nat → List Token → Option (Script × List Token)
  | 0, _ => none
  | bound + 1, input => do
    let (first, rest) ← readItem bound input
    readConnected bound first rest

/-- The rest of commands joined by connectives, given those in front. -/
def readConnected : Nat → Script → List Token → Option (Script × List Token)
  | 0, _, _ => none
  | bound + 1, first, input =>
    match input with
    | .andAlso :: rest => do
      let (second, rest) ← readItem bound (skipSeparators rest)
      readConnected bound (.both first second) rest
    | .orElse :: rest => do
      let (second, rest) ← readItem bound (skipSeparators rest)
      readConnected bound (.either first second) rest
    | .separator :: rest => some (first, rest)
    | [] => some (first, [])
    | token :: rest =>
      if closers.any (token.isWord ·) then some (first, token :: rest) else none

/-- One command, and what follows. -/
def readItem : Nat → List Token → Option (Script × List Token)
  | 0, _ => none
  | bound + 1, input =>
    match input with
    | token :: rest =>
      if token.isWord "if" then readConditional bound rest
      else if token.isWord "for" then
        match rest with
        | .word name :: rest => do
          let rest ← expectWord "in" rest
          let (heading, rest) := readCommand [] [] rest
          let rest ← expectWord "do" rest
          let (body, rest) ← readList bound rest
          let rest ← expectWord "done" rest
          match heading with
          | .command words _ => return (.loop (← literal? name) words body, rest)
          | _ => failure
        | _ => none
      else
        match readCommand [] [] input with
        | (.command [] [], _) => none
        | result => some result
    | [] => none

/-- A condition with what depends on it, and what follows. -/
def readConditional : Nat → List Token → Option (Script × List Token)
  | 0, _ => none
  | bound + 1, input => do
    let (condition, rest) ← readList bound input
    let rest ← expectWord "then" rest
    let (consequence, rest) ← readList bound rest
    match rest with
    | token :: rest =>
      if token.isWord "fi" then return (.conditional condition consequence .skip, rest)
      else if token.isWord "elif" then
        let (alternative, rest) ← readConditional bound rest
        return (.conditional condition consequence alternative, rest)
      else if token.isWord "else" then
        let (alternative, rest) ← readList bound rest
        let rest ← expectWord "fi" rest
        return (.conditional condition consequence alternative, rest)
      else failure
    | [] => failure

end

/-- The script that a text denotes, if it is well formed. -/
def parse? (text : List Char) : Option Script := do
  let limit := 4 * text.length + 8
  let (script, rest) ← readList limit (← tokens limit [] text)
  if rest.isEmpty then return script else failure

end Script

end Untested
