/-
# Documents in YAML

A document is a tree of scalars, sequences and mappings.  A node may carry an anchor, to which
aliases refer; anchors are numbered.  `Yaml.document?` reads the one document of a text.
-/

import Untested.Yaml.Token

namespace Untested.Yaml

inductive Node where
  | scalar (anchor : Option Nat) (tag : Option (List Char)) (isPlain : Bool) (text : List Char)
  | sequence (anchor : Option Nat) (items : List Node)
  | mapping (anchor : Option Nat) (entries : List (Node × Node))
  /-- The last node with the anchor of a number. -/
  | reference (number : Nat)
deriving Inhabited

namespace Node

def empty : Node :=
  .scalar none none true []

mutual

/-- The last node in a tree with the anchor of a number. -/
def anchored? (number : Nat) : Node → Option Node
  | scalar anchor tag isPlain text =>
    if anchor = some number then some (scalar anchor tag isPlain text) else none
  | sequence anchor items =>
    (anchoredAmong? number items).or
      (if anchor = some number then some (sequence anchor items) else none)
  | mapping anchor entries =>
    (anchoredIn? number entries).or
      (if anchor = some number then some (mapping anchor entries) else none)
  | reference _ => none

/-- The last node in some trees with the anchor of a number. -/
def anchoredAmong? (number : Nat) : List Node → Option Node
  | [] => none
  | item :: items => (anchoredAmong? number items).or (anchored? number item)

/-- The last node in some pairs of trees with the anchor of a number. -/
def anchoredIn? (number : Nat) : List (Node × Node) → Option Node
  | [] => none
  | (key, value) :: entries =>
    ((anchoredIn? number entries).or (anchored? number value)).or (anchored? number key)

end

/-- The node that a node of a document stands for. -/
def resolve (root : Node) : Node → Node
  | reference number => (root.anchored? number).getD empty
  | node => node

end Node

/-- What a reader of documents knows. -/
structure Reading where
  tokens : List Token
  /-- The anchors with their numbers. -/
  anchors : List (List Char × Nat) := []
  /-- The handles of tags with what they are short for. -/
  shorthands : List (List Char × List Char) := []

abbrev Reader := StateT Reading Option

namespace Reader

def peek : Reader (Option Token) :=
  return (← get).tokens.head?

def skip : Reader Unit :=
  modify fun reading => { reading with tokens := reading.tokens.tail }

/-- Numbers an anchor by the count of the names that came before.  A name that comes again gets a
new number. -/
def register (name : List Char) : Reader Nat := do
  let anchors := (← get).anchors
  let number := anchors.length
  modify fun reading =>
    { reading with anchors := (name, number) :: anchors.filter (·.1 ≠ name) }
  return number

def numberOf (name : List Char) : Reader Nat := do
  (← get).anchors.lookup name

/-- The tag that a handle and a suffix make up. -/
def fullTag (handle suffix : List Char) : Reader (List Char) := do
  if handle.isEmpty then return suffix
  return (← (← get).shorthands.lookup handle) ++ suffix

def tag : Reader (Option (List Char × List Char)) := do
  match ← peek with
  | some (.tag handle suffix) => skip; return some (handle, suffix)
  | _ => return none

def anchor : Reader (Option (List Char)) := do
  match ← peek with
  | some (.anchor name) => skip; return some name
  | _ => return none

/-- Reads the anchor and the tag of a node, which may come in any order. -/
def properties : Reader (Option Nat × Option (List Char)) := do
  let first ← anchor
  let tagged ← tag
  let name ← if first.isNone && tagged.isSome then anchor else pure first
  let tag ← tagged.mapM fun (handle, suffix) => fullTag handle suffix
  return (← name.mapM register, tag)

/-- Whether a token ends an item without dash marks, or a key or value in block style. -/
def endsBlockPart : Option Token → Bool
  | some .key | some .value | some .blockEnd => true
  | _ => false

/-- Whether a token ends a part of a pair in brackets or braces. -/
def endsFlowPart (close : Token) (token : Option Token) : Bool :=
  token = some .comma || token = some close

mutual

/-- Reads a node.  Only in block context may collections in block style begin, and only as the
part of a pair a sequence that is not indented. -/
def node (isBlock isPart : Bool) : Nat → Reader Node
  | 0 => failure
  | fuel + 1 => do
    match ← peek with
    | some (.reference name) => skip; return .reference (← numberOf name)
    | _ =>
      let (anchor, tag) ← properties
      match ← peek with
      | some (.scalar isPlain text) =>
        skip
        return .scalar anchor (if tag = some ['!'] then none else tag) isPlain text
      | some .sequenceStart => skip; return .sequence anchor (← flowItems true fuel)
      | some .mappingStart => skip; return .mapping anchor (← flowEntries true fuel)
      | token =>
        if isPart && token = some .item then
          return .sequence anchor (← looseItems fuel)
        else if isBlock && token = some .blockSequence then do
          skip; return .sequence anchor (← blockItems fuel)
        else if isBlock && token = some .blockMapping then do
          skip; return .mapping anchor (← blockEntries fuel)
        else if anchor.isSome || tag.isSome then return .scalar anchor tag true []
        else failure

/-- Reads the items of an indented sequence in block style. -/
def blockItems : Nat → Reader (List Node)
  | 0 => failure
  | fuel + 1 => do
    match ← peek with
    | some .blockEnd => skip; return []
    | some .item =>
      skip
      let next ← peek
      let item ←
        if next = some .item || next = some .blockEnd then pure .empty else node true false fuel
      return item :: (← blockItems fuel)
    | _ => failure

/-- Reads the items of a sequence in block style that is not indented. -/
def looseItems : Nat → Reader (List Node)
  | 0 => failure
  | fuel + 1 => do
    match ← peek with
    | some .item =>
      skip
      let next ← peek
      let item ←
        if next = some .item || endsBlockPart next then pure .empty else node true false fuel
      return item :: (← looseItems fuel)
    | _ => return []

/-- Reads the key or the value of a pair in block style, which may be absent. -/
def blockPart (mark : Token) : Nat → Reader Node
  | 0 => failure
  | fuel + 1 => do
    if (← peek) = some mark then
      skip
      if endsBlockPart (← peek) then return .empty else node true true fuel
    else return .empty

/-- Reads the pairs of a mapping in block style. -/
def blockEntries : Nat → Reader (List (Node × Node))
  | 0 => failure
  | fuel + 1 => do
    match ← peek with
    | some .blockEnd => skip; return []
    | some .key =>
      let key ← blockPart .key fuel
      let value ← blockPart .value fuel
      return (key, value) :: (← blockEntries fuel)
    | _ => failure

/-- Reads the value of a pair in brackets or braces, which may be absent. -/
def flowValue (close : Token) : Nat → Reader Node
  | 0 => failure
  | fuel + 1 => do
    if (← peek) = some .value then
      skip
      if endsFlowPart close (← peek) then return .empty else node false false fuel
    else return .empty

/-- Reads the items of a sequence in brackets.  An item may be a single pair.  When that pair has
no key, the token behind the mark for its key is passed over. -/
def flowItems (isFirst : Bool) : Nat → Reader (List Node)
  | 0 => failure
  | fuel + 1 => do
    if (← peek) = some .sequenceEnd then skip; return []
    if !isFirst then
      if (← peek) ≠ some .comma then failure
      skip
    match ← peek with
    | some .sequenceEnd => skip; return []
    | some .key =>
      skip
      let next ← peek
      let key ←
        if next = some .value || endsFlowPart .sequenceEnd next then do skip; pure .empty
        else node false false fuel
      let value ← flowValue .sequenceEnd fuel
      return .mapping none [(key, value)] :: (← flowItems false fuel)
    | _ =>
      let item ← node false false fuel
      return item :: (← flowItems false fuel)

/-- Reads the pairs of a mapping in braces. -/
def flowEntries (isFirst : Bool) : Nat → Reader (List (Node × Node))
  | 0 => failure
  | fuel + 1 => do
    if (← peek) = some .mappingEnd then skip; return []
    if !isFirst then
      if (← peek) ≠ some .comma then failure
      skip
    match ← peek with
    | some .mappingEnd => skip; return []
    | some .key =>
      skip
      let next ← peek
      let key ←
        if next = some .value || endsFlowPart .mappingEnd next then pure .empty
        else node false false fuel
      let value ← flowValue .mappingEnd fuel
      return (key, value) :: (← flowEntries false fuel)
    | _ =>
      let key ← node false false fuel
      return (key, .empty) :: (← flowEntries false fuel)

end

/-- Reads the declarations before a document.  A version is declared once at most and has to be
1.1 or 1.2; a handle is declared once at most. -/
def declarations (hasVersion : Bool) : Nat → Reader Unit
  | 0 => failure
  | fuel + 1 => do
    match ← peek with
    | some (.version major minor) =>
      if hasVersion || major ≠ 1 || (minor ≠ 1 && minor ≠ 2) then failure
      skip
      declarations true fuel
    | some (.shorthand handle start) =>
      if ((← get).shorthands.lookup handle).isSome then failure
      modify fun reading =>
        { reading with shorthands := (handle, start) :: reading.shorthands }
      skip
      declarations hasVersion fuel
    | _ => return

/-- The handles that need no declaration. -/
def commonShorthands : List (List Char × List Char) :=
  [(['!'], ['!']), (['!', '!'], "tag:yaml.org,2002:".toList)]

/-- Adds the handles that need no declaration behind those declared. -/
def addCommonShorthands : Reader Unit :=
  modify fun reading => { reading with shorthands := reading.shorthands ++ commonShorthands }

/-- Whether a token cannot belong to the content of a document. -/
def isBetweenDocuments : Option Token → Bool
  | none | some .documentStart | some .documentEnd | some (.version _ _)
  | some (.shorthand _ _) => true
  | _ => false

/-- Reads the document of a text, if there is one. -/
def document (fuel : Nat) : Reader (Option Node) := do
  match ← peek with
  | none => return none
  | some .documentStart | some (.version _ _) | some (.shorthand _ _) =>
    declarations false fuel
    addCommonShorthands
    if (← peek) ≠ some .documentStart then failure
    skip
    if isBetweenDocuments (← peek) then return some .empty else return some (← node true false fuel)
  | _ =>
    addCommonShorthands
    return some (← node true false fuel)

end Reader

/-- The document of a text, or no document for a text without any.  There is no result for a text
that is malformed or holds several documents. -/
def document? (text : List Char) : Option (Option Node) := do
  let tokens ← tokens? text
  let (document, reading) ← (Reader.document (2 * tokens.length + 4)).run { tokens }
  if reading.tokens.all (· = .documentEnd) then return document else failure

end Untested.Yaml
