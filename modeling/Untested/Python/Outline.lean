/-
# From syntax trees to statement trees

The outline of a syntax tree is its statement tree.  Decorators vanish, clauses become lists of
statements wherever they stand in a compound statement, and trivia count nowhere.
-/

import Untested.Python.Node
import Untested.Python.Statement

namespace Untested.Python

/-- The lines between the first and the last token of a node. -/
def Node.span (node : Node) : LineSpan :=
  .between node.firstLine node.lastLine

/-- The letters before the first quotation mark of a literal, and none when it has no such mark. -/
def literalLetters (literal : List Char) : List Char :=
  if literal.any isQuote then literal.takeWhile fun c => !isQuote c else []
where
  isQuote (c : Char) : Bool := c = '\x22' || c = '\x27'

/-- The value of a string literal, told by the letters in front of it. -/
def Value.ofLiteral (literal : List Char) : Value :=
  let letters := (literalLetters literal).map Char.toLower
  if letters.contains 'f' then .formatted
  else if letters.contains 'b' then .bytes
  else .text

/-- The value of adjacent literals. -/
def Value.ofParts (parts : List Value) : Value :=
  if parts.contains .formatted then .formatted
  else if !parts.isEmpty && parts.all (· = .bytes) then .bytes
  else if parts.all (· = .text) then .text
  else .other

/-- The value of several expressions that stand side by side: only one that stands alone counts. -/
def Value.ofSole : List Value → Value
  | [value] => value
  | _ => .other

mutual

def Node.value (source : List Char) : Node → Value
  | node@(.mk label children) =>
    match label.kind with
    | .parenthesized => .ofSole (valuesAmong source children)
    | .string => .ofLiteral (node.text source)
    | .concatenatedString => .ofParts (valuesAmong source children)
    | _ => .other

/-- The values of the constructs in a list of nodes. -/
def valuesAmong (source : List Char) : List Node → List Value
  | [] => []
  | node :: rest =>
    if node.isSignificant then node.value source :: valuesAmong source rest
    else valuesAmong source rest

end

def Node.definedName (source : List Char) (node : Node) : String :=
  match node.childByField? .name with
  | some name => String.ofList (name.text source)
  | none => "<anonymous>"

/-- Whether one of the nodes is the keyword of a coroutine. -/
def hasAsyncKeyword (nodes : List Node) : Bool :=
  nodes.any fun node => node.kind = .asyncKeyword

mutual

def Node.statement (source : List Char) : Node → Statement
  | node@(.mk label children) =>
    match label.kind with
    | .functionDefinition =>
      .function (hasAsyncKeyword children) (node.definedName source) node.span
        (bodyStatements source children)
    | .classDefinition =>
      .classDef (node.definedName source) node.span (bodyStatements source children)
    | .decoratedDefinition =>
      (definitionStatement? source children).getD (.simple node.span)
    | .expressionStatement =>
      .expression node.span (.ofSole (valuesAmong source children))
    | _ =>
      match blocksAmong source children with
      | [] => .simple node.span
      | blocks => .compound node.span blocks

/-- The statements that the constructs in a list of nodes stand for. -/
def statementsAmong (source : List Char) : List Node → List Statement
  | [] => []
  | node :: rest =>
    if node.isSignificant then node.statement source :: statementsAmong source rest
    else statementsAmong source rest

/-- The statements of the first node that is the body of a definition. -/
def bodyStatements (source : List Char) : List Node → List Statement
  | [] => []
  | node@(.mk _ children) :: rest =>
    if node.hasRole .body then statementsAmong source children
    else bodyStatements source rest

/-- The statement of the first node that stands behind decorators. -/
def definitionStatement? (source : List Char) : List Node → Option Statement
  | [] => none
  | node :: rest =>
    if node.hasRole .definition then some (node.statement source)
    else definitionStatement? source rest

/-- The statements of each block at or below the nodes, in source order.  A block is not searched
for further blocks, since those belong to its own statements. -/
def blocksAmong (source : List Char) : List Node → List (List Statement)
  | [] => []
  | node@(.mk label children) :: rest =>
    if !node.isSignificant then blocksAmong source rest
    else if label.kind = .block then
      statementsAmong source children :: blocksAmong source rest
    else blocksAmong source children ++ blocksAmong source rest

end

/-- The statements of a source file, given its syntax tree. -/
def Node.outline (source : List Char) (root : Node) : List Statement :=
  statementsAmong source root.children

end Untested.Python
