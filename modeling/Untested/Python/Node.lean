/-
# Concrete syntax trees

A source file is first read into a concrete syntax tree, which keeps every token, comments
included.  Only a few kinds of node matter to the analysis; all the others are told apart by
`other` alone.

A node is *named* when it stands for a construct of the language, and anonymous when it is a mere
token such as a comma.  Comments and explicit line continuations are *trivia*: they may stand
between any two tokens and mean nothing.
-/

namespace Untested.Python

/-- A place in a source text. -/
structure Position where
  /-- The number of characters before it. -/
  offset : Nat := 0
  /-- The number of line feeds before it. -/
  row : Nat := 0
  /-- The number of bytes between it and the last line feed before it. -/
  column : Nat := 0
deriving DecidableEq, Repr, Inhabited

/-- The kinds of node that the analysis tells apart. -/
inductive Kind where
  | module
  /-- The statements of a clause. -/
  | block
  | functionDefinition
  | classDefinition
  /-- A function or class with the decorators in front of it. -/
  | decoratedDefinition
  /-- An expression or an assignment that stands as a statement. -/
  | expressionStatement
  | parenthesized
  | string
  | concatenatedString
  | identifier
  | attribute
  | subscript
  | call
  | splat
  | tuple
  | list
  | asyncKeyword
  | comment
  /-- A backslash that joins two lines. -/
  | lineContinuation
  /-- A stretch of text that fits no construct. -/
  | error
  | other
deriving DecidableEq, Repr, Inhabited

/-- The roles of children that the analysis looks up. -/
inductive Field where
  | name
  /-- The block of a definition. -/
  | body
  | definition
deriving DecidableEq, Repr

/-- What a node is, apart from its children. -/
structure Label where
  kind : Kind
  /-- The role among the siblings. -/
  field : Option Field := none
  /-- Whether the node stands for a construct rather than a mere token. -/
  isNamed : Bool := true
  /-- Whether the node was supplied where the source lacks it. -/
  isMissing : Bool := false
  start : Position
  stop : Position
deriving DecidableEq, Repr, Inhabited

/-- A concrete syntax tree. -/
inductive Node where
  /-- A node with its children in source order. -/
  | mk (label : Label) (children : List Node)
deriving Inhabited

namespace Node

def label : Node → Label
  | mk label _ => label

/-- The children in source order. -/
def children : Node → List Node
  | mk _ children => children

def kind (node : Node) : Kind :=
  node.label.kind

/-- Whether the node is a comment or an explicit line continuation. -/
def isTrivia (node : Node) : Bool :=
  node.kind = .comment || node.kind = .lineContinuation

/-- Whether the node is a construct of the language and not trivia. -/
def isSignificant (node : Node) : Bool :=
  node.label.isNamed && !node.isTrivia

/-- The children that are constructs of the language. -/
def significantChildren (node : Node) : List Node :=
  node.children.filter isSignificant

/-- Whether the node has the given role among its siblings.  Trivia have none, wherever they
stand. -/
def hasRole (field : Field) (node : Node) : Bool :=
  node.label.field = some field && !node.isTrivia

def childByField? (node : Node) (field : Field) : Option Node :=
  node.children.find? (hasRole field)

/-- Whether the node marks a place where the source is malformed. -/
def isFault (node : Node) : Bool :=
  node.kind = .error || node.label.isMissing

def text (source : List Char) (node : Node) : List Char :=
  (source.drop node.label.start.offset).take
    (node.label.stop.offset - node.label.start.offset)

mutual

/-- The last token of a node: the node itself when it has no child but trivia. -/
def lastToken : Node → Node
  | node@(mk _ children) => (lastTokenAmong children).getD node

/-- The last token of the last node of a list that is not trivia. -/
def lastTokenAmong : List Node → Option Node
  | [] => none
  | node :: rest =>
    match lastTokenAmong rest with
    | some token => some token
    | none => if node.isTrivia then none else some (lastToken node)

end

/-- The line on which the node starts, counted from one. -/
def firstLine (node : Node) : Nat :=
  node.label.start.row + 1

/-- The line on which a token ends, counted from one.  A token that ends at the very beginning of
a later row ends on the line before. -/
def endLine (token : Node) : Nat :=
  let start := token.label.start
  let stop := token.label.stop
  if stop.column = 0 && start.row < stop.row then stop.row else stop.row + 1

/-- The line on which the last token of the node ends.  Comments at the end of a block belong to
its node but not to the statement, so the node's own end does not matter. -/
def lastLine (node : Node) : Nat :=
  node.lastToken.endLine

mutual

/-- The number of nodes of a tree. -/
def size : Node → Nat
  | mk _ children => sizeAll children + 1

/-- The number of nodes of a list of trees. -/
def sizeAll : List Node → Nat
  | [] => 0
  | node :: rest => size node + sizeAll rest

end

end Node

end Untested.Python
