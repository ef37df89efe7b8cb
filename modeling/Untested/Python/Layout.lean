/-
# Layout and string literals

Indentation and the inside of string literals cannot be read token by token, because what a
character means depends on what is open around it.  `Layout` holds what has to be remembered: the
open levels of indentation and the open string literals.  `scan` looks for the layout tokens that
may come next, and `scanString` reads on inside a literal.

Both are told by the caller what may come next.  A line feed, say, ends a statement only where the
statement may end, and is blank space everywhere else.
-/

import Untested.Python.Node

namespace Untested.Python

/-- The place behind a character. -/
def Position.after (position : Position) (c : Char) : Position where
  offset := position.offset + 1
  row := if c = '\n' then position.row + 1 else position.row
  column := if c = '\n' then 0 else position.column + c.utf8Size

/-- The rest of a source text and the place where it begins. -/
structure Input where
  /-- The characters still to be read. -/
  rest : List Char
  /-- The place of the first of them. -/
  position : Position := {}
deriving Inhabited

namespace Input

/-- The input behind its first character. -/
def tail (input : Input) : Input :=
  match input.rest with
  | [] => input
  | c :: rest => { rest, position := input.position.after c }

/-- The input behind its first `count` characters. -/
def drop (input : Input) : Nat → Input
  | 0 => input
  | count + 1 => input.tail.drop count

end Input

/-- The layout tokens that may come next. -/
structure Expected where
  /-- The end of a statement. -/
  newline : Bool := false
  /-- The beginning of a block. -/
  indent : Bool := false
  /-- The end of a block. -/
  dedent : Bool := false
  /-- The beginning of a string literal. -/
  string : Bool := false
  /-- A bracket that closes an open one. -/
  closing : Bool := false
  /-- A clause that handles exceptions. -/
  handler : Bool := false
deriving DecidableEq, Repr, Inhabited

/-- How a string literal was opened. -/
structure Delimiter where
  /-- The quotation mark that closes it. -/
  quote : Char
  /-- Whether it takes three marks to close it. -/
  isTriple : Bool := false
  /-- Whether backslashes stand for themselves. -/
  isRaw : Bool := false
  /-- Whether it may contain expressions. -/
  isFormatted : Bool := false
  /-- Whether it denotes bytes. -/
  isBytes : Bool := false
deriving DecidableEq, Repr

/-- What is open at some place of a source text. -/
structure Layout where
  /-- The indentation of the open blocks, the innermost first.  The outermost level, which stands
  at column zero, is not listed. -/
  indents : List Nat := []
  /-- The open string literals, the innermost first. -/
  delimiters : List Delimiter := []
  /-- Whether the literal opened last may contain expressions and is not closed yet. -/
  insideFormatted : Bool := false
deriving Inhabited

/-- The tokens that depend on layout. -/
inductive LayoutToken where
  /-- The end of a statement. -/
  | newline
  /-- The beginning of a block. -/
  | indent
  /-- The end of a block. -/
  | dedent
  /-- The beginning of a string literal. -/
  | stringStart
deriving DecidableEq, Repr

/-- What stands in front of a token. -/
structure Gap where
  endsLine : Bool
  indent : Nat
  /-- The indentation of the first comment in it. -/
  firstComment : Option Nat
  stop : Input

/-- Reads blank space, joined lines and, where they may be skipped, comments on lines of their own.
A comment behind a token on the same line stops the reading without a result, and so does a
backslash that joins no lines.  Spaces count one column and tabs eight; a carriage return or a
form feed starts the count again. -/
def readGap (skipsComments inComment endsLine : Bool) (indent : Nat) (firstComment : Option Nat)
    (position : Position) : List Char → Option Gap
  | [] => some { endsLine := true, indent := 0, firstComment, stop := { rest := [], position } }
  | '\\' :: '\r' :: '\n' :: rest =>
    if inComment then
      readGap skipsComments false endsLine 0 firstComment
        (((position.after '\\').after '\r').after '\n') rest
    else
      readGap skipsComments false endsLine indent firstComment
        (((position.after '\\').after '\r').after '\n') rest
  | '\\' :: '\n' :: rest =>
    readGap skipsComments false endsLine (if inComment then 0 else indent) firstComment
      ((position.after '\\').after '\n') rest
  | c :: rest =>
    let next := position.after c
    if inComment then
      if c = '\n' || c = '\x00' then
        readGap skipsComments false endsLine 0 firstComment next rest
      else
        readGap skipsComments true endsLine indent firstComment next rest
    else if c = '\n' then readGap skipsComments false true 0 firstComment next rest
    else if c = ' ' then readGap skipsComments false endsLine (indent + 1) firstComment next rest
    else if c = '\r' || c = '\x0c' then
      readGap skipsComments false endsLine 0 firstComment next rest
    else if c = '\t' then
      readGap skipsComments false endsLine (indent + 8) firstComment next rest
    else if c = '#' && skipsComments then
      if endsLine then
        readGap skipsComments true endsLine indent (firstComment <|> some indent) next rest
      else none
    else if c = '\\' then
      -- a backslash before the end of the text joins nothing but is passed over
      if rest = [] || rest = ['\r'] then
        some
          { endsLine := true, indent := 0, firstComment, stop := { rest := [], position := next } }
      else none
    else some { endsLine, indent, firstComment, stop := { rest := c :: rest, position } }

/-- Reads the letters and the quotation marks that open a string literal. -/
def readStringStart (delimiter : Delimiter) (input : Input) : Option (Delimiter × Input) :=
  go delimiter input.position input.rest
where
  /-- The same, from the given place on. -/
  go (delimiter : Delimiter) (position : Position) : List Char → Option (Delimiter × Input)
    | [] => none
    | c :: rest =>
      let next := position.after c
      if c = 'f' || c = 'F' then go { delimiter with isFormatted := true } next rest
      else if c = 'r' || c = 'R' then go { delimiter with isRaw := true } next rest
      else if c = 'b' || c = 'B' then go { delimiter with isBytes := true } next rest
      else if c = 'u' || c = 'U' then go delimiter next rest
      else if c = '\x60' then some ({ delimiter with quote := c }, { rest, position := next })
      else if c = '\x27' || c = '\x22' then
        match rest with
        | d :: e :: rest' =>
          if d = c && e = c then
            some ({ delimiter with quote := c, isTriple := true },
              { rest := rest', position := (next.after d).after e })
          else some ({ delimiter with quote := c }, { rest, position := next })
        | _ => some ({ delimiter with quote := c }, { rest, position := next })
      else none

namespace Layout

/-- The indentation of the innermost open block. -/
def currentIndent (layout : Layout) : Nat :=
  layout.indents.headD 0

/-- The layout with a further block open.  Only the last eight bits of an indentation are
remembered. -/
def pushIndent (layout : Layout) (indent : Nat) : Layout :=
  { layout with indents := indent % 256 :: layout.indents }

/-- The layout with the innermost block closed. -/
def popIndent (layout : Layout) : Layout :=
  { layout with indents := layout.indents.tail }

/-- The layout with a further string literal open. -/
def openString (layout : Layout) (delimiter : Delimiter) : Layout :=
  { layout with
    delimiters := delimiter :: layout.delimiters
    insideFormatted := delimiter.isFormatted }

/-- The layout with the innermost string literal closed. -/
def closeString (layout : Layout) : Layout :=
  { layout with delimiters := layout.delimiters.tail, insideFormatted := false }

/-- Whether a character is a quotation mark that opens a string literal. -/
def opensString (c : Char) : Bool :=
  c = '\x22' || c = '\x27' || c = '\x60'

/-- The layout token that comes next, if any: the token, where it starts and stops, and the layout
behind it.  All but the beginning of a string are empty and stand in front of the gap, so the gap
is read again for the token after them.

A block ends where the indentation falls below its own, even where no block may end, unless a
bracket may close, a statement may end, or a string begins.  The end waits until the comments
that are indented like the block are behind. -/
def scan (expected : Expected) (layout : Layout) (input : Input) :
    Option (LayoutToken × Input × Input × Layout) := do
  let skipsComments :=
    expected.indent || expected.dedent || expected.newline || expected.handler
  let gap ← readGap skipsComments false false 0 none input.position input.rest
  let startsString := expected.string && gap.stop.rest.head?.any opensString
  let mayDedent :=
    expected.dedent || (!expected.newline && !startsString && !expected.closing)
  if gap.endsLine && expected.indent && layout.currentIndent < gap.indent then
    return (.indent, input, input, layout.pushIndent gap.indent)
  else if gap.endsLine && mayDedent && gap.indent < layout.currentIndent &&
      !layout.insideFormatted && gap.firstComment.all (· < layout.currentIndent) then
    return (.dedent, input, input, layout.popIndent)
  else if gap.endsLine && expected.newline then
    return (.newline, input, input, layout)
  else if expected.string && gap.firstComment.isNone then
    let (delimiter, stop) ← readStringStart { quote := '\x22' } gap.stop
    return (.stringStart, gap.stop, stop, layout.openString delimiter)
  else
    failure

end Layout

/-- The pieces of a string literal. -/
inductive StringToken where
  | content
  /-- A doubled brace that stands for one brace. -/
  | escapedBrace
  | close
deriving DecidableEq, Repr

/-- What has just been passed while reading a literal. -/
inductive Passed where
  /-- Nothing of importance. -/
  | plain
  /-- A backslash of a raw literal. -/
  | backslash
  /-- A backslash of a raw literal and the mark it protects. -/
  | protectedMark
  /-- A carriage return behind a backslash of a raw literal. -/
  | carriageReturn
  /-- A backslash of a literal of bytes, before a letter that begins no escape there. -/
  | inertBackslash
  /-- Such a backslash with its letter. -/
  | inertEscape
deriving DecidableEq, Repr

/-- Reads plain characters up to the end of the literal or to something that needs a closer look.
The result says whether the closing marks were read, and where the piece ends.  There is no result
where the literal is not closed as it should, or where no plain character stands at all. -/
def readContent (delimiter : Delimiter) (passed : Passed) (hasContent : Bool)
    (position : Position) : List Char → Option (StringToken × Input)
  | [] => none
  | c :: rest =>
    let next := position.after c
    let piece : Option (StringToken × Input) :=
      if hasContent then some (.content, { rest := c :: rest, position }) else none
    if passed = .inertBackslash then
      readContent delimiter .inertEscape hasContent next rest
    else if passed = .inertEscape then
      readContent delimiter .plain true next rest
    else if passed = .backslash && (c = delimiter.quote || c = '\\') then
      readContent delimiter .protectedMark hasContent next rest
    else if (passed = .backslash || passed = .protectedMark) && c = '\r' then
      readContent delimiter .carriageReturn hasContent next rest
    else if passed ≠ .plain && c = '\n' then
      readContent delimiter .plain hasContent next rest
    else if c = '\x00' then none
    else if delimiter.isFormatted && (c = '\x7b' || c = '\x7d') then piece
    else if c = '\\' then
      if delimiter.isRaw then readContent delimiter .backslash hasContent next rest
      else if delimiter.isBytes &&
          rest.head?.any (fun d => d = 'N' || d = 'u' || d = 'U') then
        readContent delimiter .inertBackslash hasContent next rest
      else piece
    else if c = delimiter.quote then
      if delimiter.isTriple then
        match rest with
        | d :: rest' =>
          if d = c then
            match rest' with
            | e :: rest'' =>
              if e = c then
                if hasContent then piece
                else some (.close, { rest := rest'', position := (next.after d).after e })
              else some (.content, { rest := e :: rest'', position := next.after d })
            | [] => some (.content, { rest := [], position := next.after d })
          else some (.content, { rest := d :: rest', position := next })
        | [] => some (.content, { rest := [], position := next })
      else if hasContent then piece
      else some (.close, { rest, position := next })
    else if c = '\n' && hasContent && !delimiter.isTriple then none
    else readContent delimiter .plain true next rest

namespace Layout

/-- The next piece of the innermost open literal and the input and layout behind it.  There is no
result at a single brace of a literal with expressions, at a backslash that may begin an escape,
and where the literal is malformed. -/
def scanString (layout : Layout) (input : Input) : Option (StringToken × Input × Layout) :=
  match layout.delimiters with
  | [] => none
  | delimiter :: _ =>
    match input.rest with
    | [] => none
    | c :: rest =>
      if delimiter.isFormatted && (c = '\x7b' || c = '\x7d') then
        if rest.head? = some c then some (.escapedBrace, input.drop 2, layout) else none
      else
        match readContent delimiter .plain false input.position input.rest with
        | some (.close, stop) => some (.close, stop, layout.closeString)
        | some (token, stop) => some (token, stop, layout)
        | none => none

end Layout

end Untested.Python
