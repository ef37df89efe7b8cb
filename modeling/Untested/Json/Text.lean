/-
# Strings in JSON

A string is written between quotation marks, with escapes for quotation marks, backslashes and
control characters.  Reading takes two passes: the first finds the end of the string and knows
escapes by their shape alone, the second puts the characters together.  Who skips a string needs
only the first.
-/

import Untested.Text.Hexadecimal

namespace Untested.JsonText

/-- The digit with a value below sixteen. -/
def hexDigit (value : Nat) : Char :=
  if value < 10 then Char.ofNat ('0'.toNat + value) else Char.ofNat ('a'.toNat + (value - 10))

/-- What is written for a character inside a string. -/
def escape (c : Char) : List Char :=
  if c = '\x22' then ['\\', '\x22']
  else if c = '\\' then ['\\', '\\']
  else if c = '\x08' then ['\\', 'b']
  else if c = '\x0c' then ['\\', 'f']
  else if c = '\n' then ['\\', 'n']
  else if c = '\r' then ['\\', 'r']
  else if c = '\t' then ['\\', 't']
  else if c.toNat < 0x20 then
    ['\\', 'u', '0', '0', hexDigit (c.toNat / 16), hexDigit (c.toNat % 16)]
  else [c]

/-- The characters of a string with its quotation marks. -/
def quote (text : List Char) : List Char :=
  '\x22' :: text.flatMap escape ++ ['\x22']

/-- A text to be read: characters, and marks for bytes that encode none. -/
abbrev Source := List (Option Char)

inductive Item where
  /-- A character, or a mark for bytes that encode none. -/
  | plain (reading : Option Char)
  /-- A unit of sixteen bits, written with four digits. -/
  | unit (value : Nat)
deriving DecidableEq, Repr

/-- The value of a hexadecimal digit. -/
def hexValue? (reading : Option Char) : Option Nat :=
  reading.bind Text.hexValue?

/-- The value of four hexadecimal digits. -/
def unitValue? (a b c d : Option Char) : Option Nat := do
  return (((← hexValue? a) * 16 + (← hexValue? b)) * 16 + (← hexValue? c)) * 16 + (← hexValue? d)

/-- The character that a letter behind a backslash stands for. -/
def escaped? (c : Char) : Option Char :=
  if c = '\x22' || c = '\\' || c = '/' then some c
  else if c = 'b' then some '\x08'
  else if c = 'f' then some '\x0c'
  else if c = 'n' then some '\n'
  else if c = 'r' then some '\r'
  else if c = 't' then some '\t'
  else none

/-- Whether a reading is a control character, which a string may not contain. -/
def isControl (reading : Option Char) : Bool :=
  reading.any fun c => c.toNat < 0x20

/-- The items of a string up to its closing mark, and what follows it. -/
def readItems : Source → Option (List Item × Source)
  | [] => none
  | some '\x22' :: rest => some ([], rest)
  | some '\\' :: some 'u' :: a :: b :: c :: d :: rest => do
    let value ← unitValue? a b c d
    let (items, rest) ← readItems rest
    return (.unit value :: items, rest)
  | some '\\' :: some letter :: rest => do
    let c ← escaped? letter
    let (items, rest) ← readItems rest
    return (.plain (some c) :: items, rest)
  | some '\\' :: _ => none
  | reading :: rest => do
    if isControl reading then failure
    let (items, rest) ← readItems rest
    return (.plain reading :: items, rest)

/-- Whether a unit is the first of two that make up a character. -/
def isLeading (unit : Nat) : Bool :=
  0xD800 ≤ unit && unit ≤ 0xDBFF

/-- Whether a unit is the second of two that make up a character. -/
def isTrailing (unit : Nat) : Bool :=
  0xDC00 ≤ unit && unit ≤ 0xDFFF

/-- The characters that the items of a string encode. -/
def assemble : List Item → Option (List Char)
  | [] => some []
  | .plain reading :: rest => do
    let c ← reading
    return c :: (← assemble rest)
  | .unit value :: rest =>
    if isLeading value then
      match rest with
      | .unit low :: rest =>
        if isTrailing low then
          (assemble rest).map
            (Char.ofNat ((value - 0xD800) * 0x400 + (low - 0xDC00) + 0x10000) :: ·)
        else none
      | _ => none
    else if isTrailing value then none
    else (assemble rest).map (Char.ofNat value :: ·)

end Untested.JsonText
