/-
# Decimal numerals

Line numbers are written with ASCII digits, without sign, and read with any number of leading
zeros.
-/

namespace Untested.Text

/-- Whether the character is one of the ten ASCII digits. -/
def isDigit (c : Char) : Bool :=
  '0' ≤ c && c ≤ '9'

def digitValue (c : Char) : Nat :=
  c.toNat - '0'.toNat

/-- The value of a string of digits, the most significant first. -/
def decimalValue (digits : List Char) : Nat :=
  digits.foldl (fun value c => 10 * value + digitValue c) 0

/-- The digit with the given value below ten. -/
def digitChar (value : Nat) : Char :=
  Char.ofNat ('0'.toNat + value)

/-- The digits of a number, the most significant first and without leading zeros. -/
def decimalDigits (value : Nat) : List Char :=
  if value < 10 then [digitChar value]
  else decimalDigits (value / 10) ++ [digitChar (value % 10)]

/-- The decimal numeral of a number. -/
def decimal (value : Nat) : String :=
  String.ofList (decimalDigits value)

end Untested.Text
