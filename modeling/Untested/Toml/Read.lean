/-
# Reading TOML

A document is a sequence of lines: a heading that opens a table, a key with its value, or nothing;
each may end in a comment.  `Toml.ofText?` reads a document as one table, and has no value for a
text that breaks the grammar or gives a key twice.
-/

import Untested.Toml.Scalar

namespace Untested

namespace TomlText

/-- The text behind spaces and tabs. -/
def skipGap (text : List Char) : List Char :=
  text.dropWhile isGap

/-- Whether a character may stand in a key without quotation marks. -/
def isBare (c : Char) : Bool :=
  ('A' ≤ c && c ≤ 'Z') || ('a' ≤ c && c ≤ 'z') || ('0' ≤ c && c ≤ '9') || c = '_' || c = '-'

def name? : List Char → Reading
  | '\x22' :: rest => basic rest
  | '\x27' :: rest => literal rest
  | text =>
    let name := text.takeWhile isBare
    if name.isEmpty then none else some (name, text.dropWhile isBare)

/-- How many names a key may have, and how deep arrays and tables in braces may be nested, at
most: one less. -/
def depthLimit : Nat :=
  80

def names? : Nat → List Char → Option (Toml.Key × List Char)
  | 0, _ => none
  | room + 1, text => do
    let (name, rest) ← name? (skipGap text)
    match skipGap rest with
    | '.' :: rest => do
      let (names, rest) ← names? room rest
      return (name :: names, rest)
    | rest => return ([name], rest)

/-- Reads a key of admissible length. -/
def key? (text : List Char) : Option (Toml.Key × List Char) :=
  names? (depthLimit - 1) text

/-- The text behind a comment, if it begins with one. -/
def skipComment : List Char → List Char
  | '#' :: rest => rest.dropWhile fun c => !isForbidden c
  | text => text

/-- What follows the end of a line.  A text may end without one. -/
def lineEnd? : List Char → Option (List Char)
  | [] => some []
  | '\n' :: rest => some rest
  | '\r' :: '\n' :: rest => some rest
  | _ => none

/-- What follows the rest of a line that has no more than a comment. -/
def lineRest? (text : List Char) : Option (List Char) :=
  lineEnd? (skipComment (skipGap text))

/-- The text behind blank space, comments and ends of lines, as between the items of an array. -/
def skipLines (isComment : Bool) : List Char → List Char
  | [] => []
  | '\r' :: '\n' :: rest => skipLines false rest
  | c :: rest =>
    if c = '\n' then skipLines false rest
    else if isComment then
      if isForbidden c then c :: rest else skipLines true rest
    else if c = '#' then skipLines true rest
    else if isGap c then skipLines false rest
    else c :: rest

mutual

/-- Reads a value, with arrays and tables nested up to `room` deep. -/
def value? (fuel room : Nat) (text : List Char) : ValueReading :=
  match fuel, text with
  | 0, _ => none
  | fuel + 1, '[' :: rest =>
    match room with
    | 0 => none
    | room + 1 =>
      match skipLines false rest with
      | ']' :: rest => some (.array [], rest)
      | rest => (items? fuel room rest).map fun (items, rest) => (.array items, rest)
  | fuel + 1, '\x7b' :: rest =>
    match room with
    | 0 => none
    | room + 1 =>
      match skipGap rest with
      | '\x7d' :: rest => some (.table .inline [], rest)
      | rest => pairs? fuel room (.table .inline []) rest
  | _ + 1, '\x22' :: rest =>
    (string? ('\x22' :: rest)).map fun (text, rest) => (.string text, rest)
  | _ + 1, '\x27' :: rest =>
    (string? ('\x27' :: rest)).map fun (text, rest) => (.string text, rest)
  | _ + 1, text => plain? text

/-- Reads the items of an array, at least one, and the closing bracket. -/
def items? (fuel room : Nat) (text : List Char) : Option (List Toml × List Char) :=
  match fuel with
  | 0 => none
  | fuel + 1 =>
    (value? fuel room text).bind fun (item, rest) =>
      match skipLines false rest with
      | ']' :: rest => some ([item], rest)
      | ',' :: rest =>
        match skipLines false rest with
        | ']' :: rest => some ([item], rest)
        | rest => (items? fuel room rest).map fun (items, rest) => (item :: items, rest)
      | _ => none

/-- Reads keys with their values into a table, at least one, and the closing brace. -/
def pairs? (fuel room : Nat) (table : Toml) (text : List Char) : ValueReading :=
  match fuel with
  | 0 => none
  | fuel + 1 =>
    (key? text).bind fun (key, rest) =>
      (mark? '=' rest).bind fun rest =>
        (value? fuel room (skipGap rest)).bind fun (value, rest) =>
          (Toml.insertValue key value table).bind fun table =>
            match skipGap rest with
            | ',' :: rest => pairs? fuel room table rest
            | '\x7d' :: rest => some (table, rest)
            | _ => none

end

/-- A document while it is read: the key of the current heading and the table so far. -/
structure Draft where
  heading : Toml.Key
  root : Toml

def line? (draft : Draft) : List Char → Option (Draft × List Char)
  | '[' :: '[' :: rest => do
    let (key, rest) ← key? rest
    let rest ← mark? ']' (← mark? ']' rest)
    return (⟨key, ← Toml.openArrayHeading key draft.root⟩, ← lineRest? rest)
  | '[' :: rest => do
    let (key, rest) ← key? rest
    let rest ← mark? ']' rest
    return (⟨key, ← Toml.openHeading key draft.root⟩, ← lineRest? rest)
  | text => do
    let (key, rest) ← key? text
    let rest ← mark? '=' rest
    let (value, rest) ← value? (2 * rest.length + 2) (depthLimit - 1) (skipGap rest)
    return ({ draft with root := ← Toml.insertUnder draft.heading key value draft.root },
      ← lineRest? rest)

/-- Reads the lines of a document, at most as many as `fuel`. -/
def lines? : Nat → Draft → List Char → Option Toml
  | 0, _, _ => none
  | fuel + 1, draft, text =>
    match skipComment (skipGap text) with
    | [] => some draft.root
    | '\n' :: rest => lines? fuel draft rest
    | '\r' :: '\n' :: rest => lines? fuel draft rest
    | text =>
      match line? draft text with
      | some (draft, rest) => lines? fuel draft rest
      | none => none

end TomlText

/-- The table that a document describes, if it is one. -/
def Toml.ofText? (text : List Char) : Option Toml :=
  let text := if text.head? = some '\ufeff' then text.tail else text
  TomlText.lines? (text.length + 1) ⟨[], .table .implied []⟩ text

end Untested
