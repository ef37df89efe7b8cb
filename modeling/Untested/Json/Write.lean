/-
# Writing JSON

A value is written over several lines.  Every item of an array and every member of an object
stands on a line of its own, two blanks further in than what contains it.
-/

import Untested.Json.Text
import Untested.Json.Value
import Untested.Text.Decimal

namespace Untested.JsonValue

open JsonText

def ofText (text : String) : JsonValue :=
  .string (some text.toList)

/-- The value of a natural number. -/
def ofNat (n : Nat) : JsonValue :=
  .number (Text.decimalDigits n)

def ofMembers (members : List (String × JsonValue)) : JsonValue :=
  .object (members.map fun member => (some member.1.toList, member.2))

/-- The end of a line and the blanks at the beginning of the next. -/
def lineBreak (depth : Nat) : List Char :=
  '\n' :: List.replicate (2 * depth) ' '

mutual

/-- The text of a value that stands at the given depth. -/
def write (depth : Nat) : JsonValue → List Char
  | null => "null".toList
  | bool true => "true".toList
  | bool false => "false".toList
  | number literal => literal
  | string text => quote (text.getD [])
  | array [] => ['[', ']']
  | array (item :: items) =>
    '[' :: lineBreak (depth + 1) ++ write (depth + 1) item ++ writeItems (depth + 1) items ++
      lineBreak depth ++ [']']
  | object [] => ['\x7b', '\x7d']
  | object ((name, value) :: members) =>
    '\x7b' :: lineBreak (depth + 1) ++ quote (name.getD []) ++ ':' :: ' ' ::
      write (depth + 1) value ++ writeMembers (depth + 1) members ++ lineBreak depth ++ ['\x7d']

/-- The text of the items behind the first of an array. -/
def writeItems (depth : Nat) : List JsonValue → List Char
  | [] => []
  | item :: items => ',' :: lineBreak depth ++ write depth item ++ writeItems depth items

/-- The text of the members behind the first of an object. -/
def writeMembers (depth : Nat) : List (Option (List Char) × JsonValue) → List Char
  | [] => []
  | (name, value) :: members =>
    ',' :: lineBreak depth ++ quote (name.getD []) ++ ':' :: ' ' :: write depth value ++
      writeMembers depth members

end

/-! ## Pieces

The text is handed on piece by piece, as it comes up.  A mark is a piece, each step of an
indentation is one, and in a string every escape is one and so is every run of other characters.
-/

/-- The pieces of a string with its quotation marks. -/
def quotePieces (text : List Char) : List (List Char) :=
  ['\x22'] :: (text.splitBy fun a b => escape a = [a] && escape b = [b]).map (·.flatMap escape) ++
    [['\x22']]

/-- The pieces of a line break behind some mark. -/
def lineBreakPieces (mark : List Char) (depth : Nat) : List (List Char) :=
  (mark ++ ['\n']) :: List.replicate depth [' ', ' ']

mutual

/-- The pieces of a value that stands at the given depth. -/
def pieces (depth : Nat) : JsonValue → List (List Char)
  | null => ["null".toList]
  | bool true => ["true".toList]
  | bool false => ["false".toList]
  | number literal => [literal]
  | string text => quotePieces (text.getD [])
  | array [] => [['['], [']']]
  | array (item :: items) =>
    ['['] :: lineBreakPieces [] (depth + 1) ++ pieces (depth + 1) item ++
      itemPieces (depth + 1) items ++ lineBreakPieces [] depth ++ [[']']]
  | object [] => [['\x7b'], ['\x7d']]
  | object ((name, value) :: members) =>
    ['\x7b'] :: lineBreakPieces [] (depth + 1) ++ quotePieces (name.getD []) ++ [':', ' '] ::
      pieces (depth + 1) value ++ memberPieces (depth + 1) members ++ lineBreakPieces [] depth ++
        [['\x7d']]

/-- The pieces of the items behind the first of an array. -/
def itemPieces (depth : Nat) : List JsonValue → List (List Char)
  | [] => []
  | item :: items => lineBreakPieces [','] depth ++ pieces depth item ++ itemPieces depth items

/-- The pieces of the members behind the first of an object. -/
def memberPieces (depth : Nat) : List (Option (List Char) × JsonValue) → List (List Char)
  | [] => []
  | (name, value) :: members =>
    lineBreakPieces [','] depth ++ quotePieces (name.getD []) ++ [':', ' '] ::
      pieces depth value ++ memberPieces depth members

end

instance : ToString JsonValue where
  toString value := String.ofList (value.write 0)

end Untested.JsonValue
