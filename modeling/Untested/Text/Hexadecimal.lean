/-
# Hexadecimal digits

Escapes in quoted texts name characters by their code points, written with hexadecimal digits in
either case.
-/

namespace Untested.Text

/-- The value of a hexadecimal digit. -/
def hexValue? (c : Char) : Option Nat :=
  if '0' ≤ c && c ≤ '9' then some (c.toNat - '0'.toNat)
  else if 'a' ≤ c && c ≤ 'f' then some (c.toNat - 'a'.toNat + 10)
  else if 'A' ≤ c && c ≤ 'F' then some (c.toNat - 'A'.toNat + 10)
  else none

/-- The value of some hexadecimal digits, the most significant first. -/
def hexNumber? (digits : List Char) : Option Nat :=
  digits.foldlM (fun value c => (hexValue? c).map (value * 16 + ·)) 0

/-- The character with the code point that some hexadecimal digits denote. -/
def charOfHex? (digits : List Char) : Option Char := do
  let value ← hexNumber? digits
  if value.isValidChar then return Char.ofNat value else failure

end Untested.Text
