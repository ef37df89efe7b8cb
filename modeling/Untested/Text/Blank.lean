/-
# Blank characters and fields

A coverage table is laid out with blank space, and its line lists may carry blank space around
every number.  Blank means the Unicode property White_Space throughout.  Texts are lists of
characters here, so that every function is a plain recursion on its argument.
-/

namespace Untested.Text

/-- Closed ranges of the code points with the property White_Space, ascending and apart. -/
def blankRanges : List (Nat × Nat) :=
  [(0x09, 0x0D), (0x20, 0x20), (0x85, 0x85), (0xA0, 0xA0), (0x1680, 0x1680), (0x2000, 0x200A),
   (0x2028, 0x2029), (0x202F, 0x202F), (0x205F, 0x205F), (0x3000, 0x3000)]

def isBlank (c : Char) : Bool :=
  blankRanges.any fun range => range.1 ≤ c.toNat && c.toNat ≤ range.2

/-- The text without the blanks at its start. -/
def trimStart (text : List Char) : List Char :=
  text.dropWhile isBlank

/-- The text without the blanks at its end. -/
def trimEnd (text : List Char) : List Char :=
  (text.reverse.dropWhile isBlank).reverse

/-- The text without the blanks at its two ends. -/
def trim (text : List Char) : List Char :=
  trimEnd (trimStart text)

/-- The leading word of a text: the characters before its first blank. -/
def leadingWord (text : List Char) : List Char :=
  text.takeWhile fun c => !isBlank c

/-- The text behind its leading word, without the blanks in between. -/
def afterLeadingWord (text : List Char) : List Char :=
  trimStart (text.dropWhile fun c => !isBlank c)

/-- At most `limit + 1` fields of a text: up to `limit` words, and then whatever is left as one
last field, inner blanks included. -/
def fields : Nat → List Char → List (List Char)
  | limit, text =>
    match trimStart text with
    | [] => []
    | rest@(_ :: _) =>
      match limit with
      | 0 => [rest]
      | limit + 1 => leadingWord rest :: fields limit (afterLeadingWord rest)

/-- The words of a text: its maximal stretches without a blank. -/
def words (text : List Char) : List (List Char) :=
  go [] text
where
  /-- The words of the rest of a text, given the letters of the open word in reverse. -/
  go (letters : List Char) : List Char → List (List Char)
    | [] => if letters.isEmpty then [] else [letters.reverse]
    | c :: rest =>
      if isBlank c then
        if letters.isEmpty then go [] rest else letters.reverse :: go [] rest
      else
        go (c :: letters) rest

def isBlankText (text : List Char) : Bool :=
  text.all isBlank

/-- The pieces of a text between the occurrences of a separator.  There is always at least one
piece. -/
def splitAt (separator : Char) : List Char → List (List Char)
  | [] => [[]]
  | c :: rest =>
    if c = separator then
      [] :: splitAt separator rest
    else
      match splitAt separator rest with
      | [] => [[c]]
      | piece :: pieces => (c :: piece) :: pieces

/-- The two sides of the first occurrence of a separator, when there is one. -/
def splitOnce? (separator : Char) : List Char → Option (List Char × List Char)
  | [] => none
  | c :: rest =>
    if c = separator then
      some ([], rest)
    else
      (splitOnce? separator rest).map fun sides => (c :: sides.1, sides.2)

end Untested.Text
