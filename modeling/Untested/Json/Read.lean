/-
# Reading JSON

Reading follows the standard without extensions: no comments, no commas at the end, no leading
zeros.  Values may nest to any depth.
-/

import Untested.Json.Text
import Untested.Json.Value
import Untested.Text.Decimal
import Untested.Text.Utf8

namespace Untested.JsonValue

open JsonText

/-- Whether a reading is blank space between tokens. -/
def isGap (reading : Option Char) : Bool :=
  reading.any fun c => c = ' ' || c = '\n' || c = '\t' || c = '\r'

/-- The source without the blank space at its beginning. -/
def skipGap (source : Source) : Source :=
  source.dropWhile isGap

/-- The digits at the beginning of a source, and what follows them. -/
def digits : Source → List Char × Source
  | some c :: rest =>
    if '0' ≤ c && c ≤ '9' then
      let (run, rest) := digits rest
      (c :: run, rest)
    else ([], some c :: rest)
  | source => ([], source)

/-- The digits behind one of the given marks, with an optional sign in between.  There is nothing
to read where no mark stands, and no result where a mark has no digits behind it. -/
def markedDigits (marks signs : List Char) (source : Source) : Option (List Char × Source) :=
  match source with
  | some mark :: rest =>
    if marks.contains mark then
      let (sign, rest) : List Char × Source :=
        match rest with
        | some c :: rest' => if signs.contains c then ([c], rest') else ([], rest)
        | _ => ([], rest)
      match digits rest with
      | ([], _) => none
      | (run, rest) => some (mark :: sign ++ run, rest)
    else some ([], source)
  | _ => some ([], source)

def readNumber (source : Source) : Option (List Char × Source) := do
  let (sign, source) : List Char × Source :=
    match source with
    | some '-' :: rest => (['-'], rest)
    | _ => ([], source)
  let (whole, source) := digits source
  if whole.isEmpty || (whole.head? = some '0' && whole.length ≠ 1) then failure
  let (places, source) ← markedDigits ['.'] [] source
  let (exponent, source) ← markedDigits ['e', 'E'] ['+', '-'] source
  return (sign ++ whole ++ places ++ exponent, source)

/-- What follows a word at the beginning of a source. -/
def afterWord (word : String) (source : Source) : Option Source :=
  let letters := word.toList.map some
  if letters.isPrefixOf source then some (source.drop letters.length) else none

mutual

/-- A value at the beginning of a source, and what follows it.  The bound limits the number of
steps. -/
def readValue : Nat → Source → Option (JsonValue × Source)
  | 0, _ => none
  | bound + 1, source =>
    match skipGap source with
    | some '\x22' :: rest => do
      let (items, rest) ← readItems rest
      return (.string (assemble items), rest)
    | some '[' :: rest =>
      match skipGap rest with
      | some ']' :: rest => some (.array [], rest)
      | _ => do
        let (items, rest) ← readArray bound rest
        return (.array items, rest)
    | some '\x7b' :: rest =>
      match skipGap rest with
      | some '\x7d' :: rest => some (.object [], rest)
      | _ => do
        let (members, rest) ← readObject bound rest
        return (.object members, rest)
    | some 't' :: rest => (afterWord "rue" rest).map fun rest => (.bool true, rest)
    | some 'f' :: rest => (afterWord "alse" rest).map fun rest => (.bool false, rest)
    | some 'n' :: rest => (afterWord "ull" rest).map fun rest => (.null, rest)
    | source => do
      let (literal, rest) ← readNumber source
      return (.number literal, rest)

/-- The items of an array up to its closing bracket. -/
def readArray : Nat → Source → Option (List JsonValue × Source)
  | 0, _ => none
  | bound + 1, source => do
    let (item, rest) ← readValue bound source
    match skipGap rest with
    | some ',' :: rest =>
      let (items, rest) ← readArray bound rest
      return (item :: items, rest)
    | some ']' :: rest => return ([item], rest)
    | _ => failure

/-- The members of an object up to its closing brace. -/
def readObject : Nat → Source → Option (List (Option (List Char) × JsonValue) × Source)
  | 0, _ => none
  | bound + 1, source => do
    match skipGap source with
    | some '\x22' :: rest =>
      let (items, rest) ← readItems rest
      match skipGap rest with
      | some ':' :: rest =>
        let (value, rest) ← readValue bound rest
        let member := (assemble items, value)
        match skipGap rest with
        | some ',' :: rest =>
          let (members, rest) ← readObject bound rest
          return (member :: members, rest)
        | some '\x7d' :: rest => return ([member], rest)
        | _ => failure
      | _ => failure
    | _ => failure

end

/-- The value of a source that holds nothing else. -/
def ofSource? (source : Source) : Option JsonValue := do
  let (value, rest) ← readValue (2 * source.length + 2) source
  if (skipGap rest).isEmpty then return value else failure

/-- The value that a sequence of bytes holds. -/
def ofBytes? (bytes : List UInt8) : Option JsonValue :=
  ofSource? (Text.readings bytes)

/-- The members of a record with the given names, which an object names in any order among others
and an array lists in order.  No name may come twice, and each must come once. -/
def record? (names : List String) : JsonValue → Option (List JsonValue)
  | array items => if items.length = names.length then some items else none
  | object members =>
    -- a name that encodes no text could be any name
    if members.any (·.1.isNone) then none
    else
      names.mapM fun name =>
        match members.filter fun member => member.1 = some name.toList with
        | [member] => some member.2
        | _ => none
  | _ => none

def text? : JsonValue → Option String
  | string (some text) => some (String.ofList text)
  | _ => none

def items? : JsonValue → Option (List JsonValue)
  | array items => some items
  | _ => none

/-- A natural number that is written without sign, point and exponent and does not exceed the
greatest allowed one. -/
def nat? (greatest : Nat) : JsonValue → Option Nat
  | number literal =>
    if literal.all Text.isDigit && Text.decimalValue literal ≤ greatest then
      some (Text.decimalValue literal)
    else none
  | _ => none

end Untested.JsonValue
