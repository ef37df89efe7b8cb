/-
# UTF-8

Bytes are decoded into a list of readings: a reading is a character, or nothing for a maximal
sequence of bytes that begins no well-formed character.  Strict decoding accepts the bytes whose
readings are all characters, lenient decoding puts U+FFFD for each of the others.
-/

namespace Untested.Text

def isContinuation (byte : UInt8) : Bool :=
  0x80 ≤ byte && byte ≤ 0xBF

/-- Whether a byte may be the second of a character of three bytes that begins with `lead`.  The
bounds exclude overlong forms and surrogates. -/
def isSecondOfThree (lead byte : UInt8) : Bool :=
  if lead = 0xE0 then 0xA0 ≤ byte && byte ≤ 0xBF
  else if lead = 0xED then 0x80 ≤ byte && byte ≤ 0x9F
  else isContinuation byte

/-- Whether a byte may be the second of a character of four bytes that begins with `lead`.  The
bounds exclude overlong forms and code points beyond U+10FFFF. -/
def isSecondOfFour (lead byte : UInt8) : Bool :=
  if lead = 0xF0 then 0x90 ≤ byte && byte ≤ 0xBF
  else if lead = 0xF4 then 0x80 ≤ byte && byte ≤ 0x8F
  else isContinuation byte

/-- The character that a lead byte, already reduced to its payload, and continuation bytes
encode. -/
def assemble (payload : Nat) (continuations : List UInt8) : Char :=
  Char.ofNat (continuations.foldl (fun value byte => value * 64 + (byte.toNat - 0x80)) payload)

/-- The readings of a sequence of bytes, `none` for each maximal sequence that begins no
well-formed character. -/
def readings : List UInt8 → List (Option Char)
  | [] => []
  | a :: rest =>
    if a < 0x80 then some (Char.ofNat a.toNat) :: readings rest
    else if a < 0xC2 || 0xF4 < a then none :: readings rest
    else
      match rest with
      | [] => [none]
      | b :: rest' =>
        if a < 0xE0 then
          if isContinuation b then some (assemble (a.toNat - 0xC0) [b]) :: readings rest'
          else none :: readings (b :: rest')
        else if a < 0xF0 then
          if isSecondOfThree a b then
            match rest' with
            | [] => [none]
            | c :: rest'' =>
              if isContinuation c then
                some (assemble (a.toNat - 0xE0) [b, c]) :: readings rest''
              else none :: readings (c :: rest'')
          else none :: readings (b :: rest')
        else if isSecondOfFour a b then
          match rest' with
          | [] => [none]
          | c :: rest'' =>
            if isContinuation c then
              match rest'' with
              | [] => [none]
              | d :: rest''' =>
                if isContinuation d then
                  some (assemble (a.toNat - 0xF0) [b, c, d]) :: readings rest'''
                else none :: readings (d :: rest''')
            else none :: readings (c :: rest'')
        else none :: readings (b :: rest')
termination_by bytes => bytes.length

/-- The characters of a well-formed sequence of bytes. -/
def decode? (bytes : List UInt8) : Option (List Char) :=
  (readings bytes).mapM id

/-- The mark that stands for bytes that encode no character. -/
def replacement : Char :=
  Char.ofNat 0xFFFD

/-- The characters of a sequence of bytes, with `replacement` for what encodes none. -/
def decodeLenient (bytes : List UInt8) : List Char :=
  (readings bytes).map fun reading => reading.getD replacement

def encode (text : String) : List UInt8 :=
  text.toList.flatMap String.utf8EncodeChar

/-- The text of a well-formed sequence of bytes. -/
def text? (bytes : List UInt8) : Option String :=
  (decode? bytes).map String.ofList

end Untested.Text
