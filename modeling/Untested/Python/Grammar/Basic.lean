/-
# The grammar of Python sources

The grammar is written as one step per production.  Productions refer to each other in circles;
`Rule` lists those through which every circle passes, and a production is given the steps of the
rules as an argument.  `Untested.Python.Source` ties the knot.

The grammar is a liberal one.  It covers the second and the third version of the language at once,
and it takes any word for an identifier where the keyword it may also be cannot stand.
-/

import Untested.Python.Numeral
import Untested.Python.Parse

namespace Untested.Python

/-- What surrounds an expression. -/
structure Context where
  /-- The layout tokens that may come behind it. -/
  follow : Expected := {}
  /-- Whether `if` behind it makes it the first branch of a conditional. -/
  conditional : Bool := true
deriving Inhabited

/-- The productions through which every circle of the grammar passes. -/
inductive Rule where
  | expression (context : Context)
  | operand (context : Context)
  /-- Something that can be assigned to, without operators. -/
  | target (context : Context)
  /-- A type, and whether it may be constrained by a further one. -/
  | type (context : Context) (constrained : Bool)
  /-- The keyword `yield` with its values. -/
  | yield (context : Context)
  /-- The right side of an assignment. -/
  | value (context : Context)
  /-- The format of an expression inside a string literal. -/
  | format
  | pattern (context : Context)
  /-- The statements of a clause, and what may come behind them. -/
  | suite (follow : Expected)
  /-- A statement of a block, and what may come behind it. -/
  | statement (follow : Expected)

abbrev Rules := Rule → Parse (List Node)

namespace Expected

def operand : Expected := { string := true }

/-- What may come at the beginning of an operand or behind an opening or separating mark inside
brackets. -/
def bracketed : Expected := { string := true, closing := true }

/-- What may come inside brackets behind an element. -/
def inside : Expected := { closing := true }

def or (first second : Expected) : Expected where
  newline := first.newline || second.newline
  indent := first.indent || second.indent
  dedent := first.dedent || second.dedent
  string := first.string || second.string
  closing := first.closing || second.closing
  handler := first.handler || second.handler

end Expected

def Context.inside : Context := { follow := .inside }

/-- Whether the characters may begin an operand that is neither a word nor a string. -/
def beginsOperand : List Char → Bool
  | [] => false
  | '*' :: '*' :: _ => false
  | '.' :: '.' :: '.' :: _ => true
  | c :: rest =>
    if c = '+' || c = '-' || c = '*' then rest.head? ≠ some '='
    else ['(', '[', '\x7b', '~'].contains c || numeralLength (c :: rest) ≠ 0

/-- Whether an operand may begin here.  The given words are keywords here, and so are none of its
beginnings. -/
def atOperand (keywords : List String) : Parse Bool := do
  let state ← get
  match state.next with
  | .stringStart _ => return true
  | .word letters => return !(keywords.map String.toList).contains letters
  | .symbol => return beginsOperand state.input.rest
  | _ => return false

/-- The elements behind the first of a list, each after a comma.  A comma before something that
begins no element ends the list. -/
def moreElements (begins : Parse Bool) (afterComma : Expected) (element : Parse (List Node)) :
    Nat → Parse (List Node)
  | 0 => reject
  | bound + 1 => do
    if ← atSymbol "," then
      let comma ← symbol "," afterComma
      if ← begins then
        let nodes ← element
        return comma ++ nodes ++ (← moreElements begins afterComma element bound)
      else return comma
    else return []

def lastOf (nodes : List Node) : Node :=
  nodes.getLastD default

/-- Whether a value is a name, or looked up in a value or by a key, at any depth of calls. -/
def Node.isLookup : Node → Bool
  | .mk label children =>
    match label.kind with
    | .identifier | .attribute | .subscript => true
    | .call =>
      match children with
      | function :: _ => function.isLookup
      | [] => false
    | _ => false

/-- Whether a value is a name, or looked up in a value or by a key. -/
def Node.isPlainTarget (node : Node) : Bool :=
  [.identifier, .attribute, .subscript].contains node.kind

mutual

/-- Whether an expression can be assigned to. -/
def Node.isTarget : Node → Bool
  | .mk label children =>
    match label.kind with
    | .identifier | .attribute | .subscript | .splat => true
    | .tuple | .list | .parenthesized => areTargets children
    | _ => false

/-- Whether all constructs in a list of nodes can be assigned to. -/
def areTargets : List Node → Bool
  | [] => true
  | node :: rest => (!node.isSignificant || node.isTarget) && areTargets rest

end

end Untested.Python
