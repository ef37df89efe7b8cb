/-
# Strings in TOML

There are four ways to write a string: between quotation marks, where backslashes begin escapes,
or between apostrophes, where they do not, and each of them on one line or, with three marks, on
several.
-/

import Untested.Text.Hexadecimal

namespace Untested.TomlText

open Text (charOfHex?)

/-- Whether a control character may not occur as such. -/
def isForbidden (c : Char) : Bool :=
  (c.toNat < 0x20 && c ≠ '\t') || c = '\x7f'

/-- Whether the character is blank space within a line. -/
def isGap (c : Char) : Bool :=
  c = ' ' || c = '\t'

/-- The character that a letter behind a backslash stands for. -/
def escaped? (c : Char) : Option Char :=
  if c = '\x22' || c = '\\' then some c
  else if c = 'b' then some '\x08'
  else if c = 't' then some '\t'
  else if c = 'n' then some '\n'
  else if c = 'f' then some '\x0c'
  else if c = 'r' then some '\r'
  else none

/-- The text of a string and what follows it. -/
abbrev Reading := Option (List Char × List Char)

def Reading.cons (c : Char) (reading : Reading) : Reading :=
  reading.map fun (text, rest) => (c :: text, rest)

/-- Reads the rest of a string between quotation marks on one line. -/
def basic : List Char → Reading
  | [] => none
  | '\x22' :: rest => some ([], rest)
  | '\\' :: 'u' :: a :: b :: c :: d :: rest => do
    Reading.cons (← charOfHex? [a, b, c, d]) (basic rest)
  | '\\' :: 'U' :: a :: b :: c :: d :: e :: f :: g :: h :: rest => do
    Reading.cons (← charOfHex? [a, b, c, d, e, f, g, h]) (basic rest)
  | '\\' :: letter :: rest => do Reading.cons (← escaped? letter) (basic rest)
  | c :: rest => if isForbidden c || c = '\\' then none else Reading.cons c (basic rest)

/-- Reads the rest of a string between apostrophes on one line. -/
def literal : List Char → Reading
  | [] => none
  | c :: rest =>
    if c = '\x27' then some ([], rest)
    else if isForbidden c then none
    else Reading.cons c (literal rest)

/-- What a reader of a string on several lines has just passed. -/
inductive Passed where
  | plain
  /-- A backslash and then only blanks, so that the line has to end. -/
  | backslash
  /-- A joint of lines, behind which blank space is left out. -/
  | joint
deriving DecidableEq, Repr

/-- Reads the rest of a string between three quotation marks.  Up to two further marks in front of
the closing ones belong to the string. -/
def multilineBasic : Passed → List Char → Reading
  | _, [] => none
  | .backslash, '\r' :: '\n' :: rest => multilineBasic .joint rest
  | .backslash, c :: rest =>
    if isGap c then multilineBasic .backslash rest
    else if c = '\n' then multilineBasic .joint rest
    else none
  | .joint, '\r' :: '\n' :: rest => multilineBasic .joint rest
  | .joint, '\n' :: rest => multilineBasic .joint rest
  | .joint, ' ' :: rest => multilineBasic .joint rest
  | .joint, '\t' :: rest => multilineBasic .joint rest
  | _, '\x22' :: '\x22' :: '\x22' :: '\x22' :: '\x22' :: rest => some (['\x22', '\x22'], rest)
  | _, '\x22' :: '\x22' :: '\x22' :: '\x22' :: rest => some (['\x22'], rest)
  | _, '\x22' :: '\x22' :: '\x22' :: rest => some ([], rest)
  | _, '\\' :: 'u' :: a :: b :: c :: d :: rest => do
    Reading.cons (← charOfHex? [a, b, c, d]) (multilineBasic .plain rest)
  | _, '\\' :: 'U' :: a :: b :: c :: d :: e :: f :: g :: h :: rest => do
    Reading.cons (← charOfHex? [a, b, c, d, e, f, g, h]) (multilineBasic .plain rest)
  | _, '\\' :: '\r' :: '\n' :: rest => multilineBasic .joint rest
  | _, '\\' :: letter :: rest =>
    if letter = '\n' then multilineBasic .joint rest
    else if isGap letter then multilineBasic .backslash rest
    else do Reading.cons (← escaped? letter) (multilineBasic .plain rest)
  | _, '\r' :: '\n' :: rest => Reading.cons '\n' (multilineBasic .plain rest)
  | _, c :: rest =>
    if c = '\\' || isForbidden c && c ≠ '\n' then none
    else Reading.cons c (multilineBasic .plain rest)

/-- Reads the rest of a string between three apostrophes. -/
def multilineLiteral : List Char → Reading
  | [] => none
  | '\r' :: '\n' :: rest => Reading.cons '\n' (multilineLiteral rest)
  | '\x27' :: '\x27' :: '\x27' :: '\x27' :: '\x27' :: rest => some (['\x27', '\x27'], rest)
  | '\x27' :: '\x27' :: '\x27' :: '\x27' :: rest => some (['\x27'], rest)
  | '\x27' :: '\x27' :: '\x27' :: rest => some ([], rest)
  | c :: rest =>
    if isForbidden c && c ≠ '\n' then none else Reading.cons c (multilineLiteral rest)

/-- The text without a line feed at its beginning. -/
def skipFirstBreak : List Char → List Char
  | '\n' :: rest => rest
  | '\r' :: '\n' :: rest => rest
  | text => text

def string? : List Char → Reading
  | '\x22' :: '\x22' :: '\x22' :: rest => multilineBasic .plain (skipFirstBreak rest)
  | '\x22' :: rest => basic rest
  | '\x27' :: '\x27' :: '\x27' :: rest => multilineLiteral (skipFirstBreak rest)
  | '\x27' :: rest => literal rest
  | _ => none

end Untested.TomlText
