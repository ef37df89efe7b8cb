/-
# Numbers and dates in TOML

Whole numbers have 64 bits and may be written to the bases ten, sixteen, eight and two; an
underscore may stand between two digits.  Other numbers have a fraction or an exponent.  Dates and
times are those of RFC 3339, and their parts are held to the calendar.
-/

import Untested.Text.Decimal
import Untested.Toml.Text
import Untested.Toml.Value

namespace Untested.TomlText

open Text (isDigit decimalValue decimalDigits hexNumber?)

abbrev ValueReading := Option (Toml × List Char)

/-- Reads digits, at least one when `isNeeded`.  An underscore has to stand between two digits and
is left out. -/
def digits? (isAllowed : Char → Bool) (isNeeded : Bool) : List Char → Reading
  | [] => if isNeeded then none else some ([], [])
  | c :: rest =>
    if isAllowed c then Reading.cons c (digits? isAllowed false rest)
    else if isNeeded then none
    else if c = '_' then digits? isAllowed true rest
    else some ([], c :: rest)

/-- Reads the whole part of a decimal number, which has no leading zeros. -/
def whole? : List Char → Reading
  | '0' :: rest => some (['0'], rest)
  | text => digits? isDigit true text

/-- Takes away a sign, and says whether it is a minus. -/
def splitSign : List Char → Bool × List Char
  | '+' :: rest => (false, rest)
  | '-' :: rest => (true, rest)
  | text => (false, text)

def fraction? : List Char → Reading
  | '.' :: rest => digits? isDigit true rest
  | text => some ([], text)

def exponent? : List Char → Option (Option Int × List Char)
  | c :: rest =>
    if c = 'e' || c = 'E' then do
      let (isNegative, rest) := splitSign rest
      let (digits, rest) ← digits? isDigit true rest
      let size : Int := decimalValue digits
      return (some (if isNegative then -size else size), rest)
    else
      some (none, c :: rest)
  | [] => some (none, [])

/-- Whether a number is too large for 64 bits with a binary exponent: from half a unit above the
greatest such number. -/
def isHuge (digits : Nat) (exponent : Int) : Bool :=
  let magnitude := (decimalDigits digits).length + exponent
  if digits = 0 || magnitude < 308 then false
  else if 310 < magnitude then true
  else
    decide ((Nat.pow 2 1024 - Nat.pow 2 970) * Nat.pow 10 (-exponent).toNat ≤
      digits * Nat.pow 10 exponent.toNat)

/-- The least number of 64 bits. -/
def leastInteger : Int :=
  -9223372036854775808

/-- The greatest number of 64 bits. -/
def greatestInteger : Int :=
  9223372036854775807

/-- A whole number, if it has 64 bits. -/
def integer? (value : Int) : Option Toml :=
  if leastInteger ≤ value && value ≤ greatestInteger then some (.integer value) else none

/-- Reads a decimal number behind its sign. -/
def decimal? (isNegative : Bool) (text : List Char) : ValueReading := do
  let (whole, afterWhole) ← whole? text
  let (fraction, afterFraction) ← fraction? afterWhole
  let (exponent, rest) ← exponent? afterFraction
  let digits := decimalValue (whole ++ fraction)
  if fraction.isEmpty && exponent.isNone then
    return (← integer? (if isNegative then -digits else digits), rest)
  else if !isNegative && isHuge digits (exponent.getD 0 - fraction.length) then
    failure
  else
    return (.float (text.take (text.length - rest.length)), rest)

/-- Reads a number in a base other than ten behind the letter for the base. -/
def based? (base : Nat) (text : List Char) : ValueReading := do
  let isAllowed := fun c => (Text.hexValue? c).any (· < base)
  let (digits, rest) ← digits? isAllowed true text
  let value := digits.foldl (fun value c => value * base + (Text.hexValue? c).getD 0) 0
  return (← integer? value, rest)

/-- Reads a number that begins with a sign or a digit, or is infinite or none. -/
def number? : List Char → ValueReading
  | '0' :: 'x' :: rest => based? 16 rest
  | '0' :: 'o' :: rest => based? 8 rest
  | '0' :: 'b' :: rest => based? 2 rest
  | text =>
    match splitSign text with
    | (_, 'i' :: 'n' :: 'f' :: rest) => some (.float ['i', 'n', 'f'], rest)
    | (_, 'n' :: 'a' :: 'n' :: rest) => some (.float ['n', 'a', 'n'], rest)
    | (isNegative, rest) => decimal? isNegative rest

/-- Reads a number of exactly so many digits within bounds. -/
def part? (count least greatest : Nat) (text : List Char) : Option (Nat × List Char) :=
  let digits := text.take count
  let value := decimalValue digits
  if digits.length = count && digits.all isDigit && least ≤ value && value ≤ greatest then
    some (value, text.drop count)
  else
    none

def mark? (c : Char) : List Char → Option (List Char)
  | [] => none
  | d :: rest => if d = c then some rest else none

def daysOfMonth (year month : Nat) : Nat :=
  if month = 2 then
    if year % 4 = 0 && (year % 100 ≠ 0 || year % 400 = 0) then 29 else 28
  else if month = 4 || month = 6 || month = 9 || month = 11 then 30
  else 31

def afterDate? (text : List Char) : Option (List Char) := do
  let (year, rest) ← part? 4 0 9999 text
  let (month, rest) ← part? 2 1 12 (← mark? '-' rest)
  let (_, rest) ← part? 2 1 (daysOfMonth year month) (← mark? '-' rest)
  return rest

/-- What follows the fraction of a second, if there is one. -/
def afterFraction : List Char → List Char
  | '.' :: c :: rest => if isDigit c then rest.dropWhile isDigit else '.' :: c :: rest
  | text => text

/-- What follows a time of the day, if one is here. -/
def afterTime? (text : List Char) : Option (List Char) := do
  let (_, rest) ← part? 2 0 23 text
  let (_, rest) ← part? 2 0 59 (← mark? ':' rest)
  let (_, rest) ← part? 2 0 60 (← mark? ':' rest)
  return afterFraction rest

/-- What follows the distance from universal time, if one is here. -/
def afterOffset? : List Char → Option (List Char)
  | [] => none
  | c :: rest =>
    if c = 'Z' || c = 'z' then some rest
    else if c = '+' || c = '-' then do
      let (_, rest) ← part? 2 0 23 rest
      let (_, rest) ← part? 2 0 59 (← mark? ':' rest)
      return rest
    else none

/-- What follows a time behind a date, or the same text if there is no time. -/
def afterDateTime : List Char → List Char
  | [] => []
  | c :: rest =>
    if c = 'T' || c = 't' || c = ' ' then
      match afterTime? rest with
      | some rest => (afterOffset? rest).getD rest
      | none => c :: rest
    else c :: rest

/-- Reads a date, a time or both. -/
def moment? (text : List Char) : ValueReading := do
  let rest ← ((afterDate? text).map afterDateTime).or (afterTime? text)
  return (.dateTime (text.take (text.length - rest.length)), rest)

/-- Reads a value that is no string, array or table. -/
def plain? : List Char → ValueReading
  | 't' :: 'r' :: 'u' :: 'e' :: rest => some (.boolean true, rest)
  | 'f' :: 'a' :: 'l' :: 's' :: 'e' :: rest => some (.boolean false, rest)
  | text => (moment? text).or (number? text)

end Untested.TomlText
