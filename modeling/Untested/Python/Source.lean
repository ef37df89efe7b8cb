/-
# Python sources

`parse` reads a source text into its statement tree.  A text that is not well formed has a syntax
tree too, of which the part that fits no construct is a single node.
-/

import Untested.Fault
import Untested.Python.Cursor
import Untested.Python.Outline
import Untested.Python.Recovery

namespace Untested.Python

/-- The place behind the last character of a text. -/
def endPosition (source : List Char) : Position :=
  source.foldl Position.after {}

/-- The syntax tree of a source text. -/
def syntaxTree (source : List Char) : Node :=
  let bound := nestingBound source
  let root (children : List Node) : Node :=
    .mk { kind := .module, start := {}, stop := endPosition source } children
  match (topLevelStatements (rulesWithin bound) bound).run (.start source) with
  | .ok (children, _) => root children
  | .error place => root [malformedNode source place]

/-- The statements of a source text.  A malformed text has none, and the fault says where its
first malformed place is. -/
def parse (path : String) (source : List Char) : Except Fault (List Statement) :=
  let root := syntaxTree source
  if root.hasFault then
    match root.firstFault? with
    | some node =>
      .error (.malformedSource path (node.label.start.row + 1) (node.label.start.column + 1))
    | none => .error (.malformedSource path 1 1)
  else .ok (root.outline source)

end Untested.Python
