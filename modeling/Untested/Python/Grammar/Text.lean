/-
# Whole texts

The productions of the grammar are tied together here: at each depth they refer to the productions
of the depth below, and a text cannot nest more deeply than it is long.
-/

import Untested.Python.Grammar.Statement

namespace Untested.Python

/-- The steps of all rules, for texts that nest at most as deeply as the given bound. -/
def rulesWithin : Nat → Rules
  | 0 => fun _ => reject
  | depth + 1 =>
    let rules := rulesWithin depth
    fun
    | .expression context => expression rules depth context
    | .operand context => operand rules depth context
    | .target context => target rules depth context
    | .type context constrained => typeExpression rules depth context constrained
    | .yield context => yieldExpression rules depth context
    | .value context => valueOrAssignment rules depth context
    | .format => formatSpecifier rules depth
    | .pattern context => casePattern rules depth context
    | .suite follow => suite rules depth follow
    | .statement follow => statement rules depth follow

/-- What may come at the beginning of a statement outside all blocks. -/
def Expected.topLevel : Expected := { string := true }

/-- A statement outside all blocks. -/
def topLevelStatement (rules : Rules) : Parse (List Node) :=
  rules (.statement .topLevel)

/-- The statements of a whole text. -/
def topLevelStatements (rules : Rules) : Nat → Parse (List Node)
  | 0 => reject
  | bound + 1 => do
    if ← atEnd then return (← get).trivia.reverse
    else
      let statement ← topLevelStatement rules
      return statement ++ (← topLevelStatements rules bound)

/-- Where the first token of a text is looked for: behind a byte order mark, if the text begins with
one.  Anywhere else that character is blank space, behind which no string literal is found. -/
def Input.start (source : List Char) : Input :=
  let input : Input := { rest := source }
  if source.head? = some '\ufeff' then input.tail else input

/-- The parser before anything of a text is read. -/
def ParserState.start (source : List Char) : ParserState :=
  let limit := source.length + 1
  readToken .topLevel {} limit limit [] (.start source)

/-- How deeply a text may nest, and how many statements it may have. -/
def nestingBound (source : List Char) : Nat :=
  10 * (source.length + 2)

end Untested.Python
