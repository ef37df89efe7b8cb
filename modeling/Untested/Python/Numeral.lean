/-
# Numerals and escapes

The lengths of numerals and of the escapes in string literals.  A numeral is as long as possible,
and what follows it does not matter: `1if` is the numeral `1` before a word.
-/

import Untested.Text.Decimal

namespace Untested.Python

open Text

/-- The length of the decimal digits at the beginning of a text, with single underscores behind
any of them. -/
def decimalRun (text : List Char) : Nat :=
  go false text
where
  /-- The length of the rest of such a run, given whether a digit stands in front of it. -/
  go (afterDigit : Bool) : List Char → Nat
    | [] => 0
    | c :: rest =>
      if isDigit c then go true rest + 1
      else if c = '_' && afterDigit then go false rest + 1
      else 0

/-- The length of the given digits at the beginning of a text, with single underscores before any
of them. -/
def groupRun (isDigit : Char → Bool) : List Char → Nat
  | [] => 0
  | '_' :: c :: rest => if isDigit c then groupRun isDigit rest + 2 else 0
  | c :: rest => if isDigit c then groupRun isDigit rest + 1 else 0

def isHexDigit (c : Char) : Bool :=
  isDigit c || ('a' ≤ c && c ≤ 'f') || ('A' ≤ c && c ≤ 'F')

/-- The length, at most one, of a letter at the beginning of a text. -/
def letterLength (letters : List Char) (text : List Char) : Nat :=
  if text.head?.any letters.contains then 1 else 0

/-- The digits that the letter behind a leading zero announces. -/
def radixDigits? (letter : Char) : Option (Char → Bool) :=
  if letter = 'x' || letter = 'X' then some isHexDigit
  else if letter = 'o' || letter = 'O' then some fun c => '0' ≤ c && c ≤ '7'
  else if letter = 'b' || letter = 'B' then some fun c => c = '0' || c = '1'
  else none

/-- The length of a numeral whose radix is announced by a letter. -/
def radixLength : List Char → Nat
  | '0' :: letter :: rest =>
    match radixDigits? letter with
    | none => 0
    | some isDigit =>
      let run := groupRun isDigit rest
      if run = 0 then 0 else run + 2 + letterLength ['l', 'L'] (rest.drop run)
  | _ => 0

/-- The length of the exponent at the beginning of a text. -/
def exponentLength : List Char → Nat
  | mark :: rest =>
    if mark = 'e' || mark = 'E' then
      let sign := letterLength ['+', '-'] rest
      let run := decimalRun (rest.drop sign)
      if run = 0 then 0 else run + sign + 1
    else 0
  | [] => 0

/-- The length of a numeral with a point or an exponent. -/
def fractionLength (text : List Char) : Nat :=
  let whole := decimalRun text
  let rest := text.drop whole
  let length :=
    if rest.head? = some '.' then
      let places := decimalRun (rest.drop 1)
      if whole = 0 && places = 0 then 0
      else whole + 1 + places + exponentLength (rest.drop (places + 1))
    else if whole = 0 || exponentLength rest = 0 then 0
    else whole + exponentLength rest
  if length = 0 then 0 else length + letterLength ['j', 'J'] (text.drop length)

/-- The length of a numeral without point and exponent. -/
def wholeLength (text : List Char) : Nat :=
  let whole := decimalRun text
  if whole = 0 then 0 else whole + letterLength ['l', 'L', 'j', 'J'] (text.drop whole)

/-- The length of the numeral at the beginning of a text, zero when there is none. -/
def numeralLength (text : List Char) : Nat :=
  max (radixLength text) (max (fractionLength text) (wholeLength text))

/-- The length of the escape that follows a backslash, or zero when the backslash stands for
itself. -/
def escapeTail : List Char → Nat
  | [] => 0
  | '\r' :: '\n' :: _ => 2
  | c :: rest =>
    let hexadecimal (count : Nat) :=
      if (rest.take count).length = count && (rest.take count).all isHexDigit then count + 1 else 0
    if c = 'u' then hexadecimal 4
    else if c = 'U' then hexadecimal 8
    else if c = 'x' then hexadecimal 2
    else if isDigit c then ((rest.take 2).takeWhile isDigit).length + 1
    else if c = 'N' then
      match rest with
      | '\x7b' :: name =>
        let run := (name.takeWhile (· ≠ '\x7d')).length
        if run = 0 || run = name.length then 0 else run + 3
      | _ => 0
    else if ['\n', '\x27', '\x22', 'a', 'b', 'f', 'r', 'n', 't', 'v', '\\'].contains c then 1
    else 0

end Untested.Python
