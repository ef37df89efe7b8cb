/-
# Functions of a source file

Every function of a statement tree has a record, at whatever depth it is defined.  The record of a
function stands before those of the functions inside it.
-/

import Untested.Python.Statement

namespace Untested.Python

/-- A function and the lines of its body. -/
structure FunctionRecord where
  name : String
  line : Nat
  /-- The lines of the body's statements, but not those of a documentation string at its
  beginning.  A nested definition counts with all of its lines. -/
  body : LineSet
  isAsync : Bool
deriving DecidableEq

/-- The lines of all the given statements together. -/
def statementLines : List Statement → LineSet
  | [] => ∅
  | statement :: rest => statement.span.lines.union (statementLines rest)

/-- The lines of a body: a plain string is left out in first position, and there alone. -/
def bodyLines : List Statement → LineSet
  | [] => ∅
  | first :: rest =>
    if first.isDocumentation then statementLines rest else statementLines (first :: rest)

namespace FunctionRecord

/-- Whether the body never ran: all of its lines are missing.  A function whose body has no lines
always qualifies. -/
def isNeverCalled (record : FunctionRecord) (missing : LineSet) : Bool :=
  missing.containsAll record.body.lines

end FunctionRecord

mutual

/-- The records of the functions at or inside a statement. -/
def Statement.functions : Statement → List FunctionRecord
  | .function isAsync name span body =>
    { name, line := span.start, body := bodyLines body, isAsync } :: functionsOfAll body
  | .classDef _ _ body => functionsOfAll body
  | .compound _ blocks => functionsOfBlocks blocks
  | .expression .. => []
  | .simple _ => []

/-- The records of the functions at or inside the statements of a list. -/
def functionsOfAll : List Statement → List FunctionRecord
  | [] => []
  | statement :: rest => statement.functions ++ functionsOfAll rest

/-- The records of the functions inside clauses. -/
def functionsOfBlocks : List (List Statement) → List FunctionRecord
  | [] => []
  | block :: rest => functionsOfAll block ++ functionsOfBlocks rest

end

end Untested.Python
