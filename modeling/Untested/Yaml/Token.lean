/-
# Tokens of YAML

A source is cut into tokens.  Some of them stand for no characters: collections in block style
begin and end where the indentation changes.  Whether a scalar is a key is known only at the colon
behind it, so the candidate for a key is kept with its place among the tokens, and the token that
marks it as a key is put in there afterwards.
-/

import Untested.Yaml.Scalar

namespace Untested.Yaml

inductive Token where
  | version (major minor : Nat)
  /-- The declaration of a shorthand for tags. -/
  | shorthand (handle start : List Char)
  | documentStart
  | documentEnd
  | blockSequence
  | blockMapping
  | blockEnd
  /-- An opening bracket. -/
  | sequenceStart
  /-- A closing bracket. -/
  | sequenceEnd
  /-- An opening brace. -/
  | mappingStart
  /-- A closing brace. -/
  | mappingEnd
  | item
  | comma
  | key
  | value
  | reference (name : List Char)
  | anchor (name : List Char)
  | tag (handle suffix : List Char)
  | scalar (isPlain : Bool) (text : List Char)
deriving DecidableEq, Repr

/-- A token that is a key if a colon follows. -/
structure Candidate where
  /-- Whether a colon has to follow. -/
  isRequired : Bool
  /-- The number of tokens before it. -/
  position : Nat
  mark : Mark

/-- What is known at a point of the source. -/
structure Scan where
  rest : List Cell
  /-- The place at the end of the source. -/
  stop : Mark
  tokens : List Token := []
  /-- The column of the innermost collection in block style. -/
  indent : Option Nat := none
  /-- The columns of those around it, the inner ones first. -/
  outer : List (Option Nat) := []
  isKeyAllowed : Bool := true
  candidate : Option Candidate := none
  /-- The candidates around the open collections in brackets and braces, the inner ones first. -/
  suspended : List (Option Candidate) := []

namespace Scan

def mark (scan : Scan) : Mark :=
  (scan.rest.head?.map (·.mark)).getD scan.stop

/-- Whether a collection in brackets or braces is open. -/
def inFlow (scan : Scan) : Bool :=
  !scan.suspended.isEmpty

/-- Whether the column lies further to the right than a collection. -/
def isDeeper (column : Nat) (indent : Option Nat) : Bool :=
  indent.all (· < column)

def push (scan : Scan) (token : Token) : Scan :=
  { scan with tokens := token :: scan.tokens }

def insert (scan : Scan) (position : Nat) (token : Token) : Scan :=
  let later := scan.tokens.length - position
  { scan with tokens := scan.tokens.take later ++ token :: scan.tokens.drop later }

/-- The scan behind a number of characters. -/
def skip (scan : Scan) (count : Nat) : Scan :=
  { scan with rest := scan.rest.drop count }

/-- Closes the collections in block style that lie to the right of a column, or all of them. -/
def closeTo (column : Option Nat) (scan : Scan) : Scan :=
  if scan.inFlow then scan else go scan.outer scan
where
  /-- Closes collections as long as there are any around. -/
  go : List (Option Nat) → Scan → Scan
    | [], scan => scan
    | around :: outer, scan =>
      match column, scan.indent with
      | some column, some indent =>
        if column < indent then go outer { scan.push .blockEnd with indent := around, outer }
        else scan
      | none, some _ => go outer { scan.push .blockEnd with indent := around, outer }
      | _, none => scan

/-- Opens a collection in block style at a column, unless one is open there.  Its token goes
behind the given number of tokens. -/
def openAt (column position : Nat) (token : Token) (scan : Scan) : Scan :=
  if !scan.inFlow && isDeeper column scan.indent then
    { scan.insert position token with indent := some column, outer := scan.indent :: scan.outer }
  else scan

/-- Gives up the candidate.  It is an error to give up a required one. -/
def dropCandidate (scan : Scan) : Option Scan :=
  if scan.candidate.any (·.isRequired) then none else some { scan with candidate := none }

/-- Makes the next token the candidate, if a key may begin here. -/
def markCandidate (scan : Scan) : Option Scan :=
  if scan.isKeyAllowed then do
    let scan ← scan.dropCandidate
    let isRequired := !scan.inFlow && scan.indent = some scan.mark.column
    return { scan with candidate := some ⟨isRequired, scan.tokens.length, scan.mark⟩ }
  else some scan

/-- Whether the candidate lies too far behind: on an earlier line or more than 1024 characters. -/
def isStale (now : Mark) (candidate : Candidate) : Bool :=
  candidate.mark.line < now.line || candidate.mark.index + 1024 < now.index

/-- A candidate as long as it can become a key.  It is an error if a required one cannot. -/
def refresh (now : Mark) : Option Candidate → Option (Option Candidate)
  | none => some none
  | some candidate =>
    if isStale now candidate then if candidate.isRequired then none else some none
    else some (some candidate)

/-- Gives up all candidates that lie too far behind. -/
def refreshAll (scan : Scan) : Option Scan := do
  let candidate ← refresh scan.mark scan.candidate
  let suspended ← scan.suspended.mapM (refresh scan.mark)
  return { scan with candidate, suspended }

/-- The source at the next token, and whether a key may begin there. -/
def nextToken (inFlow isKeyAllowed isComment : Bool) : List Cell → List Cell × Bool
  | [] => ([], isKeyAllowed)
  | cell :: rest =>
    if isBreak cell.char then nextToken inFlow (isKeyAllowed || !inFlow) false rest
    else if isComment then nextToken inFlow isKeyAllowed true rest
    else if cell.char = ' ' || (cell.char = '\t' && (inFlow || !isKeyAllowed)) then
      nextToken inFlow isKeyAllowed false rest
    else if cell.char = '\ufeff' && cell.mark.index = 0 then
      nextToken inFlow isKeyAllowed false rest
    else if cell.char = '#' then nextToken inFlow isKeyAllowed true rest
    else (cell :: rest, isKeyAllowed)

/-- Goes to the next token, gives up old candidates and closes what the indentation closes. -/
def advance (scan : Scan) : Option Scan := do
  let (rest, isKeyAllowed) := nextToken scan.inFlow scan.isKeyAllowed false scan.rest
  let scan ← { scan with rest, isKeyAllowed }.refreshAll
  return scan.closeTo (some scan.mark.column)

/-- Ends all collections in block style, as before and behind a document. -/
def endBlocks (scan : Scan) : Option Scan := do
  return { ← (scan.closeTo none).dropCandidate with isKeyAllowed := false }

/-- Reads a version number of up to nine digits. -/
def versionNumber? (cells : List Cell) : Option (Nat × List Cell) :=
  let isDigit := fun cell : Cell => '0' ≤ cell.char && cell.char ≤ '9'
  let digits := (cells.takeWhile isDigit).map (·.char)
  if digits.isEmpty || 9 < digits.length then none
  else
    some (digits.foldl (fun value c => 10 * value + (c.toNat - '0'.toNat)) 0,
      cells.dropWhile isDigit)

/-- Reads an octet that a percent sign announces. -/
def octet? : List Cell → Option (Nat × List Cell)
  | a :: b :: c :: rest => do
    if a.char ≠ '%' then failure
    let high ← Text.hexValue? b.char
    let low ← Text.hexValue? c.char
    return (high * 16 + low, rest)
  | _ => none

/-- The number of octets that a leading octet announces, and its share of the value. -/
def leadingOctet? (octet : Nat) : Option (Nat × Nat) :=
  if octet < 0x80 then some (0, octet)
  else if octet < 0xC0 then none
  else if octet < 0xE0 then some (1, octet - 0xC0)
  else if octet < 0xF0 then some (2, octet - 0xE0)
  else if octet < 0xF8 then some (3, octet - 0xF0)
  else none

/-- Reads further octets of an escaped character. -/
def moreOctets? : Nat → Nat → List Cell → Option (Nat × List Cell)
  | 0, value, cells => some (value, cells)
  | count + 1, value, cells => do
    let (octet, rest) ← octet? cells
    if octet < 0x80 || 0xC0 ≤ octet then failure
    moreOctets? count (value * 64 + (octet - 0x80)) rest

/-- Whether the character may stand in a tag.  A few more may in one between angle brackets. -/
def isTagChar (isVerbatim : Bool) (c : Char) : Bool :=
  isNaming c || ";/?:@&=+$.!~*'()%".toList.contains c ||
    (isVerbatim && (c = ',' || c = '[' || c = ']'))

/-- Reads the characters of a tag.  Others are written as octets behind percent signs. -/
def tagText? (isVerbatim : Bool) : Nat → List Cell → Option (List Char × List Cell)
  | 0, _ => none
  | _ + 1, [] => some ([], [])
  | fuel + 1, cell :: rest =>
    if !isTagChar isVerbatim cell.char then some ([], cell :: rest)
    else if cell.char = '%' then do
      let (octet, rest) ← octet? (cell :: rest)
      let (count, value) ← leadingOctet? octet
      let (value, rest) ← moreOctets? count value rest
      let (text, rest) ← tagText? isVerbatim fuel rest
      return (Char.ofNat value :: text, rest)
    else do
      let (text, rest) ← tagText? isVerbatim fuel rest
      return (cell.char :: text, rest)

/-- Reads what may be the handle of a tag: an exclamation mark, a name, and another mark. -/
def handle? : List Cell → Option (List Char × List Cell)
  | [] => none
  | cell :: rest =>
    if cell.char ≠ '!' then none
    else
      let (name, rest) := splitName rest
      if startsWith '!' rest then some ('!' :: name ++ ['!'], rest.drop 1)
      else some ('!' :: name, rest)

/-- Reads the declaration of a version behind its name. -/
def version? (cells : List Cell) : Option (Token × List Cell) := do
  let (major, rest) ← versionNumber? (skipGap cells)
  if !startsWith '.' rest then failure
  let (minor, rest) ← versionNumber? (rest.drop 1)
  return (.version major minor, rest)

/-- Reads the declaration of a shorthand for tags behind its name. -/
def shorthand? (cells : List Cell) : Option (Token × List Cell) := do
  let (handle, rest) ← handle? (skipGap cells)
  if handle.getLast? ≠ some '!' then failure
  if !startsIn isGap rest then failure
  let (start, rest) ← tagText? true (rest.length + 1) (skipGap rest)
  if start.isEmpty || !isBlankEnd rest then failure
  return (.shorthand handle start, rest)

/-- Reads a declaration behind its percent sign. -/
def declaration? (cells : List Cell) : Option (Token × List Cell) := do
  let (name, rest) := splitName cells
  if !isBlankEnd rest then failure
  let (token, rest) ←
    if name = ['Y', 'A', 'M', 'L'] then version? rest
    else if name = ['T', 'A', 'G'] then shorthand? rest
    else failure
  return (token, (← skipComment? rest).drop 1)

/-- Reads a tag between angle brackets, behind the opening one. -/
def verbatimTag? (cells : List Cell) : Option (Token × List Cell) := do
  let (suffix, rest) ← tagText? true (cells.length + 1) cells
  if suffix.isEmpty || !startsWith '>' rest then failure
  return (.tag [] suffix, rest.drop 1)

def shortTag? (cells : List Cell) : Option (Token × List Cell) := do
  let (handle, rest) ← handle? cells
  let (suffix, rest) ← tagText? false (rest.length + 1) rest
  if 1 < handle.length && handle.getLast? = some '!' then
    if suffix.isEmpty then failure
    return (.tag handle suffix, rest)
  else
    let suffix := handle.drop 1 ++ suffix
    return (if suffix.isEmpty then .tag [] ['!'] else .tag ['!'] suffix, rest)

def tag? (inFlow : Bool) (cells : List Cell) : Option (Token × List Cell) := do
  let (token, rest) ←
    if startsWith '<' (cells.drop 1) then verbatimTag? (cells.drop 2) else shortTag? cells
  if isBlankEnd rest || (inFlow && startsWith ',' rest) then return (token, rest) else failure

def anchorName? (cells : List Cell) : Option (List Char × List Cell) :=
  let (name, rest) := splitName cells
  if !name.isEmpty && (isBlankEnd rest || startsIn (fun c => "?:,]\x7d%@`".toList.contains c) rest)
  then some (name, rest)
  else none

/-- Takes in a token that may be a key itself, as scalars, aliases and tags may. -/
def takeNode (read : List Cell → Option (Token × List Cell)) (scan : Scan) : Option Scan := do
  let scan ← scan.markCandidate
  let (token, rest) ← read scan.rest
  return { scan.push token with rest, isKeyAllowed := false }

def takePlain (scan : Scan) : Option Scan := do
  let scan ← scan.markCandidate
  let least := (scan.indent.map (· + 1)).getD 0
  let reading ← plain scan.inFlow least .none scan.rest
  return { scan.push (.scalar true reading.text) with
    rest := reading.rest
    isKeyAllowed := reading.isBroken }

/-- Takes in a scalar between quotation marks. -/
def takeQuoted (isSingle : Bool) : Scan → Option Scan :=
  takeNode fun cells =>
    (quoted isSingle .ordinary .none (cells.drop 1)).map fun reading =>
      (.scalar false reading.text, reading.rest)

def takeBlock (isLiteral : Bool) (scan : Scan) : Option Scan := do
  let scan ← scan.dropCandidate
  let reading ← block isLiteral scan.indent (scan.rest.drop 1)
  return { scan.push (.scalar false reading.text) with
    rest := reading.rest
    isKeyAllowed := true }

/-- Opens a collection in brackets or braces. -/
def openFlow (token : Token) (scan : Scan) : Option Scan := do
  let scan ← scan.markCandidate
  return { (scan.push token).skip 1 with
    suspended := scan.candidate :: scan.suspended
    candidate := none
    isKeyAllowed := true }

/-- Closes a collection in brackets or braces. -/
def closeFlow (token : Token) (scan : Scan) : Option Scan := do
  let scan ← scan.dropCandidate
  return { (scan.push token).skip 1 with
    candidate := scan.suspended.head?.join
    suspended := scan.suspended.tail
    isKeyAllowed := false }

/-- Takes in an indicator that begins an item or a key in a collection in block style. -/
def takeIndicator (collection token : Token) (isKeyAllowedAfter : Bool) (scan : Scan) :
    Option Scan := do
  if !scan.inFlow && !scan.isKeyAllowed then failure
  let scan := scan.openAt scan.mark.column scan.tokens.length collection
  let scan ← scan.dropCandidate
  return { (scan.push token).skip 1 with isKeyAllowed := isKeyAllowedAfter }

/-- Takes in a colon.  The candidate, if there is one, becomes a key. -/
def takeValue (scan : Scan) : Option Scan :=
  match scan.candidate with
  | some candidate =>
    let scan := scan.insert candidate.position .key
    let scan := scan.openAt candidate.mark.column candidate.position .blockMapping
    some { (scan.push .value).skip 1 with candidate := none, isKeyAllowed := false }
  | none => do
    if !scan.inFlow && !scan.isKeyAllowed then failure
    let scan := scan.openAt scan.mark.column scan.tokens.length .blockMapping
    return { (scan.push .value).skip 1 with isKeyAllowed := !scan.inFlow }

def startsPlain (inFlow : Bool) (c : Char) (rest : List Cell) : Bool :=
  !"-?:,[]\x7b\x7d#&*!|>'\"%@`".toList.contains c && !isGap c && !isBreak c ||
    c = '-' && !startsIn isGap rest ||
    !inFlow && (c = '?' || c = ':') && !isBlankEnd rest

def takeToken (scan : Scan) (cell : Cell) (rest : List Cell) : Option Scan :=
  let c := cell.char
  if cell.mark.column = 0 && c = '%' then do
    let scan ← scan.endBlocks
    let (token, rest) ← declaration? rest
    return { scan.push token with rest }
  else if isThreefold '-' scan.rest then do
    return ((← scan.endBlocks).push .documentStart).skip 3
  else if isThreefold '.' scan.rest then do
    return ((← scan.endBlocks).push .documentEnd).skip 3
  else if c = '[' then scan.openFlow .sequenceStart
  else if c = '\x7b' then scan.openFlow .mappingStart
  else if c = ']' then scan.closeFlow .sequenceEnd
  else if c = '\x7d' then scan.closeFlow .mappingEnd
  else if c = ',' then do
    return { ((← scan.dropCandidate).push .comma).skip 1 with isKeyAllowed := true }
  else if c = '-' && isBlankEnd rest then scan.takeIndicator .blockSequence .item true
  else if c = '?' && (scan.inFlow || isBlankEnd rest) then
    scan.takeIndicator .blockMapping .key (!scan.inFlow)
  else if c = ':' && (scan.inFlow || isBlankEnd rest) then scan.takeValue
  else if c = '*' then
    scan.takeNode fun cells => (anchorName? (cells.drop 1)).map fun (name, rest) =>
      (.reference name, rest)
  else if c = '&' then
    scan.takeNode fun cells => (anchorName? (cells.drop 1)).map fun (name, rest) =>
      (.anchor name, rest)
  else if c = '!' then scan.takeNode (tag? scan.inFlow)
  else if c = '|' && !scan.inFlow then scan.takeBlock true
  else if c = '>' && !scan.inFlow then scan.takeBlock false
  else if c = '\x27' then scan.takeQuoted true
  else if c = '\x22' then scan.takeQuoted false
  else if startsPlain scan.inFlow c rest then scan.takePlain
  else none

/-- The tokens of the rest of a source.  Each takes at least one character, so the length of the
source is fuel enough. -/
def run : Nat → Scan → Option (List Token)
  | 0, _ => none
  | fuel + 1, scan => do
    let scan ← scan.advance
    match scan.rest with
    | [] => return (← scan.endBlocks).tokens.reverse
    | cell :: rest => run fuel (← scan.takeToken cell rest)

end Scan

/-- The tokens of a text, if it consists of tokens. -/
def tokens? (text : List Char) : Option (List Token) :=
  if text.all isAllowed then
    let cells := cellsFrom {} text
    Scan.run (cells.length + 1) { rest := cells, stop := finalMark cells }
  else none

end Untested.Yaml
