/-
# Statements

A statement is told by its first word, as far as that word is a keyword where it stands.  Inside
an inline clause, say, no further clause can begin, so the words that begin one are identifiers
there.
-/

import Untested.Python.Grammar.Pattern

namespace Untested.Python

/-- The context of an expression at the end of a statement. -/
def Context.statement : Context := { follow := { newline := true } }

/-- What may come at the beginning of an operand or at the end of a statement. -/
def Expected.orNewline : Expected := { string := true, newline := true }

/-- The signs that assign the result of an operator. -/
def augmentedSigns : List String :=
  ["**=", "//=", ">>=", "<<=", "+=", "-=", "*=", "/=", "@=", "%=", "&=", "^=", "|="]

def symbolAmong? (symbols : List String) : Parse (Option String) :=
  symbols.findM? atSymbol

def valueOrAssignment (rules : Rules) (bound : Nat) (context : Context) : Parse (List Node) := do
  if ← atWord "yield" then return ← rules (.yield context)
  let left ← expressionList rules bound context []
  let assigned ←
    if ← atBareSymbol "=" then
      let sign ← symbol "=" .operand
      pure (sign ++ (← rules (.value context)))
    else if ← atSymbol ":" then
      let colon ← symbol ":" .operand
      let type ← rules (.type context true)
      let value ←
        if ← atBareSymbol "=" then
          let sign ← symbol "=" .operand
          pure (sign ++ (← rules (.value context)))
        else pure []
      pure (colon ++ type ++ value)
    else
      match ← symbolAmong? augmentedSigns with
      | some sign =>
        let sign ← symbol sign .operand
        pure (sign ++ (← rules (.value context)))
      | none => pure []
  if assigned.isEmpty then return left
  else if areTargets left then return wrap .other (left ++ assigned)
  else reject

def expressionStatement (rules : Rules) (bound : Nat) : Parse (List Node) := do
  return wrap .expressionStatement (← valueOrAssignment rules bound .statement)

def atStatementEnd : Parse Bool := do
  return (← atNewline) || (← atSymbol ";")

/-- A statement that must be complete for the step to succeed. -/
def complete (statement : Parse (List Node)) : Parse (List Node) := do
  let nodes ← statement
  if ← atStatementEnd then return nodes else reject

/-- Expressions separated by commas, without a comma at their end. -/
def properList (rules : Rules) (bound : Nat) (context : Context) : Parse (List Node) := do
  let first ← rules (.expression context)
  return first ++
    (← moreElements (return true) .operand (rules (.expression context)) bound)

/-- The words that go on with an expression behind a name. -/
def wordOperators : List String :=
  ["and", "or", "in", "is", "if", "as"]

/-- A word that begins a statement of its own, unless an operator behind it makes it a name. -/
def softKeyword (word : String) (expected : Expected) : Parse (List Node) := do
  let nodes ← keyword word expected
  if ← atAnyWord wordOperators then reject else return nodes

def printStatement (rules : Rules) (bound : Nat) : Parse (List Node) := do
  let word ← softKeyword "print" .orNewline
  if ← atBareSymbol ">>" then
    let mark ← symbol ">>" .operand
    let stream ← rules (.expression .statement)
    let arguments ← moreElements (atOperand []) .orNewline (rules (.expression .statement)) bound
    return wrap .other (word ++ mark ++ stream ++ arguments)
  else
    return wrap .other (word ++ (← expressionList rules bound .statement []))

/-- Whether the word `print` is followed by the mark that gives it a stream to write to. -/
def atPrintTo : Parse Bool :=
  lookingAt do
    let _ ← keyword "print" .orNewline
    atBareSymbol ">>"

def execStatement (rules : Rules) (bound : Nat) : Parse (List Node) := do
  let word ← softKeyword "exec" .orNewline
  if ← atWord "not" then reject
  let code ←
    if ← atString then stringLiteral rules bound { newline := true }
    else identifier { newline := true }
  let scope ←
    if ← atWord "in" then
      let word ← keyword "in" .operand
      pure (word ++ (← properList rules bound .statement))
    else pure []
  return wrap .other (word ++ code ++ scope)

def typeAlias (rules : Rules) : Parse (List Node) := do
  let word ← softKeyword "type" .orNewline
  let name ← rules (.type {} true)
  let sign ← symbol "=" .operand
  return wrap .other (word ++ name ++ sign ++ (← rules (.type .statement true)))

/-- An imported name, possibly under another name. -/
def importedName (bound : Nat) (follow : Expected) : Parse (List Node) := do
  let name ← dottedName bound follow
  if ← atWord "as" then
    let word ← keyword "as" {}
    return wrap .other (name ++ word ++ (← identifier follow))
  else return name

def atAWord : Parse Bool := do
  match (← get).next with
  | .word _ => return true
  | _ => return false

/-- Imported names, possibly with a comma at their end. -/
def importedNames (bound : Nat) (follow : Expected) : Parse (List Node) := do
  let first ← importedName bound follow
  return first ++ (← moreElements atAWord follow (importedName bound follow) bound)

/-- Imported names, which may stand in parentheses. -/
def importedList (bound : Nat) : Parse (List Node) := do
  if ← atSymbol "(" then
    let opening ← symbol "(" {}
    let names ← importedNames bound .inside
    return opening ++ names ++ (← symbol ")" { newline := true })
  else importedNames bound { newline := true }

def importStatement (bound : Nat) : Parse (List Node) := do
  let word ← keyword "import" {}
  return wrap .other (word ++ (← importedNames bound { newline := true }))

/-- The statement `import` with the module in front. -/
def importFromStatement (bound : Nat) : Parse (List Node) := do
  let word ← keyword "from" {}
  if ← atWord "__future__" then
    let module ← consumeWord .other false {}
    let middle ← keyword "import" {}
    return wrap .other (word ++ module ++ middle ++ (← importedList bound))
  let point : Parse (Option (List Node)) := do
    if ← atSymbol "." then return some (← symbol "." {}) else return none
  let points ← repeated point bound
  let isRelative := !points.isEmpty
  let module ←
    if isRelative && (← atWord "import") then pure [] else dottedName bound {}
  let middle ← keyword "import" {}
  let names ←
    if ← atSymbol "*" then symbol "*" { newline := true } else importedList bound
  return wrap .other (word ++ points ++ module ++ middle ++ names)

/-- A statement that is a keyword, possibly with values behind it. -/
def keywordWithValues (rules : Rules) (bound : Nat) (word : String) : Parse (List Node) := do
  let word ← keyword word .orNewline
  if ← atOperand [] then
    return wrap .other (word ++ (← expressionList rules bound .statement []))
  else return wrap .other word

def raiseStatement (rules : Rules) (bound : Nat) : Parse (List Node) := do
  let word ← keyword "raise" .orNewline
  let value ←
    if ← atOperand ["from"] then expressionList rules bound .statement ["from"] else pure []
  let cause ←
    if ← atWord "from" then
      let word ← keyword "from" .operand
      pure (word ++ (← rules (.expression .statement)))
    else pure []
  return wrap .other (word ++ value ++ cause)

/-- A statement that declares names. -/
def declaration (bound : Nat) (word : String) : Parse (List Node) := do
  let word ← keyword word {}
  let first ← identifier { newline := true }
  let rest ← moreElements (return true) {} (identifier { newline := true }) bound
  return wrap .other (word ++ first ++ rest)

/-- A statement without clauses. -/
def simpleStatement (rules : Rules) (bound : Nat) : Parse (List Node) := do
  match (← get).next with
  | .word letters =>
    match String.ofList letters with
    | "import" => importStatement bound
    | "from" => importFromStatement bound
    | "assert" =>
      let word ← keyword "assert" .operand
      return wrap .other (word ++ (← properList rules bound .statement))
    | "return" => keywordWithValues rules bound "return"
    | "del" =>
      let word ← keyword "del" .operand
      return wrap .other (word ++ (← expressionList rules bound .statement []))
    | "raise" => raiseStatement rules bound
    | "pass" => return wrap .other (← keyword "pass" { newline := true })
    | "break" => return wrap .other (← keyword "break" { newline := true })
    | "continue" => return wrap .other (← keyword "continue" { newline := true })
    | "global" => declaration bound "global"
    | "nonlocal" => declaration bound "nonlocal"
    | "print" =>
      if ← atPrintTo then printStatement rules bound
      else
        orElse (complete (expressionStatement rules bound))
          (complete (printStatement rules bound))
    | "exec" => orElse (complete (execStatement rules bound)) (expressionStatement rules bound)
    | "type" => orElse (complete (typeAlias rules)) (expressionStatement rules bound)
    | _ => expressionStatement rules bound
  | _ => expressionStatement rules bound

def moreSimpleStatements (rules : Rules) : Nat → Parse (List Node)
  | 0 => reject
  | bound + 1 => do
    if ← atSymbol ";" then
      let mark ← symbol ";" .orNewline
      if ← atNewline then return mark
      else
        let statement ← simpleStatement rules (bound + 1)
        return mark ++ statement ++ (← moreSimpleStatements rules bound)
    else return []

def simpleStatements (rules : Rules) (bound : Nat) (follow : Expected) : Parse (List Node) := do
  let first ← simpleStatement rules bound
  let rest ← moreSimpleStatements rules bound
  return first ++ rest ++ (← newline follow)

def blockStatements (rules : Rules) : Nat → Parse (List Node)
  | 0 => reject
  | bound + 1 => do
    if ← atDedent then return []
    else
      let statement ← rules (.statement { dedent := true, string := true })
      return statement ++ (← blockStatements rules bound)

/-- An empty node at the place where the parser stands. -/
def emptyNode (kind : Kind) : Parse (List Node) := do
  let state ← get
  return [.leaf kind true state.input state.input]

/-- The statements of a clause: an indented block, simple statements on the same line, or nothing
at all. -/
def suite (rules : Rules) (bound : Nat) (follow : Expected) : Parse (List Node) := do
  if ← atIndent then
    let opening ← consumeLayout { dedent := true, string := true }
    let statements ← blockStatements rules bound
    let closing ← consumeLayout follow
    return opening ++ wrap .block statements ++ closing
  else if ← atNewline then
    let block ← emptyNode .block
    return block ++ (← consumeLayout follow)
  else
    let first ← simpleStatement rules bound
    let rest ← moreSimpleStatements rules bound
    return wrap .block (first ++ rest) ++ (← newline follow)

/-- The colon of a clause and the statements behind it. -/
def colonSuite (rules : Rules) (follow : Expected) : Parse (List Node) := do
  let colon ← symbol ":" { indent := true, newline := true, string := true }
  return colon ++ (← rules (.suite follow))

/-- A clause that is a keyword with its statements, where that keyword stands. -/
def optionalClause (rules : Rules) (word : String) (follow : Expected) : Parse (List Node) := do
  if ← atWord word then
    let word ← keyword word {}
    return wrap .other (word ++ (← colonSuite rules follow))
  else return []

def conditionClause (rules : Rules) (word : String) (follow : Expected) : Parse (List Node) := do
  let word ← keyword word .operand
  let condition ← rules (.expression {})
  return word ++ condition ++ (← colonSuite rules follow)

def ifStatement (rules : Rules) (bound : Nat) (follow : Expected) : Parse (List Node) := do
  let first ← conditionClause rules "if" follow
  let alternative : Parse (Option (List Node)) := do
    if ← atWord "elif" then return some (wrap .other (← conditionClause rules "elif" follow))
    else return none
  let alternatives ← repeated alternative bound
  return wrap .other (first ++ alternatives ++ (← optionalClause rules "else" follow))

def whileStatement (rules : Rules) (follow : Expected) : Parse (List Node) := do
  let first ← conditionClause rules "while" follow
  return wrap .other (first ++ (← optionalClause rules "else" follow))

/-- The statement `for`, behind its `async` if it has one. -/
def forStatement (rules : Rules) (bound : Nat) (follow : Expected) : Parse (List Node) := do
  let word ← keyword "for" .operand
  let left ← targets rules bound
  let middle ← keyword "in" .operand
  let right ← expressionList rules bound {} []
  let body ← colonSuite rules follow
  return word ++ left ++ middle ++ right ++ body ++ (← optionalClause rules "else" follow)

/-- The statement `with`, behind its `async` if it has one. -/
def withStatement (rules : Rules) (bound : Nat) (follow : Expected) : Parse (List Node) := do
  let word ← keyword "with" .operand
  let items ← expressionList rules bound {} []
  return word ++ items ++ (← colonSuite rules follow)

def exceptClause (rules : Rules) (isGroup : Bool) (follow : Expected) : Parse (List Node) := do
  let word ←
    if isGroup then consume .other false 7 .operand else keyword "except" .operand
  let caught ←
    if isGroup || (← atOperand []) then
      let exception ← rules (.expression {})
      let name ←
        if !isGroup && (← atSymbol ",") then
          let comma ← symbol "," .operand
          pure (comma ++ (← rules (.expression {})))
        else pure []
      pure (exception ++ name)
    else pure []
  return wrap .other (word ++ caught ++ (← colonSuite rules follow))

/-- Whether the keyword of an exception clause comes next, and whether a star behind it makes it a
clause for groups. -/
def exceptAhead? : Parse (Option Bool) := do
  let state ← get
  if ← atWord "except" then
    return some ((state.input.rest.drop 6).head? = some '*')
  else return none

def tryStatement (rules : Rules) (bound : Nat) (follow : Expected) : Parse (List Node) := do
  let handled := follow.or { handler := true }
  let word ← keyword "try" {}
  let body ← colonSuite rules { handler := true }
  let clauses ←
    match ← exceptAhead? with
    | some isGroup =>
      let first ← exceptClause rules isGroup handled
      let another : Parse (Option (List Node)) := do
        match ← exceptAhead? with
        | some hasStar =>
          if isGroup && !hasStar then return none
          else return some (← exceptClause rules isGroup handled)
        | none => return none
      let rest ← repeated another bound
      let otherwise ← optionalClause rules "else" follow
      pure (first ++ rest ++ otherwise ++ (← optionalClause rules "finally" follow))
    | none =>
      let last ← optionalClause rules "finally" follow
      if last.isEmpty then reject else pure last
  return wrap .other (word ++ body ++ clauses)

/-- A clause of the statement `match`. -/
def caseClause (rules : Rules) (bound : Nat) : Parse (List Node) := do
  let word ← keyword "case" .operand
  let first ← rules (.pattern {})
  let rest ← moreElements (do return (← atPattern) && !(← atWord "if")) .operand
    (rules (.pattern {})) bound
  let guard ←
    if ← atWord "if" then
      let word ← keyword "if" .operand
      pure (wrap .other (word ++ (← rules (.expression {}))))
    else pure []
  let body ← colonSuite rules { dedent := true }
  return wrap .other (word ++ first ++ rest ++ guard ++ body)

/-- The clauses of the statement `match` up to the end of their block. -/
def caseClauses (rules : Rules) : Nat → Parse (List Node)
  | 0 => reject
  | bound + 1 => do
    if ← atDedent then return []
    else
      let clause ← caseClause rules (bound + 1)
      return clause ++ (← caseClauses rules bound)

def matchStatement (rules : Rules) (bound : Nat) (follow : Expected) : Parse (List Node) := do
  let word ← softKeyword "match" .orNewline
  let subject ← expressionList rules bound {} []
  let colon ← symbol ":" { indent := true, newline := true }
  let body ←
    if ← atIndent then
      let opening ← consumeLayout { dedent := true }
      let clauses ← caseClauses rules bound
      let closing ← consumeLayout follow
      let block ← if clauses.isEmpty then emptyNode .block else pure (wrap .block clauses)
      pure (opening ++ block ++ closing)
    else if ← atNewline then
      let block ← emptyNode .block
      pure (block ++ (← consumeLayout follow))
    else reject
  return wrap .other (word ++ subject ++ colon ++ body)

/-- The name of a definition and its type parameters. -/
def definedName (rules : Rules) (bound : Nat) : Parse (List Node) := do
  let name ← identifier {}
  let parameters ← if ← atSymbol "[" then typeArguments rules bound {} else pure []
  return withField .name name ++ parameters

def definitionBody (rules : Rules) (follow : Expected) : Parse (List Node) := do
  let body ← colonSuite rules follow
  return body.map fun node =>
    match node with
    | .mk label children =>
      if label.kind = .block then .mk { label with field := some .body } children else node

def functionDefinition (rules : Rules) (bound : Nat) (follow : Expected) :
    Parse (List Node) := do
  let word ← keyword "def" {}
  let name ← definedName rules bound
  let opening ← symbol "(" .inside
  let parameters ← parameterList rules bound true .inside
  let closing ← symbol ")" {}
  let result ←
    if ← atSymbol "->" then
      let arrow ← symbol "->" .operand
      pure (arrow ++ (← rules (.type {} false)))
    else pure []
  let body ← definitionBody rules follow
  return word ++ name ++ wrap .other (opening ++ parameters ++ closing) ++ result ++ body

def classDefinition (rules : Rules) (bound : Nat) (follow : Expected) : Parse (List Node) := do
  let word ← keyword "class" {}
  let name ← definedName rules bound
  let bases ← if ← atSymbol "(" then classArguments else pure []
  return wrap .classDefinition (word ++ name ++ bases ++ (← definitionBody rules follow))
where
  /-- The arguments of a class, among which no comprehension may stand. -/
  classArguments : Parse (List Node) := do
    let opening ← symbol "(" .bracketed
    let begins : Parse Bool := do
      return (← atOperand []) || (← atSymbol "**")
    let inner ←
      if ← atSymbol ")" then pure []
      else if ← atSymbol "," then symbol "," .inside
      else
        let first ← argument rules
        pure (first ++ (← moreElements begins .bracketed (argument rules) bound))
    return wrap .other (opening ++ inner ++ (← symbol ")" {}))

def asyncStatement (rules : Rules) (bound : Nat) (follow : Expected) : Parse (List Node) := do
  let word ← consumeWord .asyncKeyword false .orNewline
  if ← atWord "def" then
    return wrap .functionDefinition (word ++ (← functionDefinition rules bound follow))
  else if ← atWord "for" then return wrap .other (word ++ (← forStatement rules bound follow))
  else if ← atWord "with" then return wrap .other (word ++ (← withStatement rules bound follow))
  else reject

/-- Whether the word `async` begins a statement with clauses here. -/
def atAsyncStatement : Parse Bool :=
  lookingAt do
    let _ ← keyword "async" .orNewline
    atAnyWord ["def", "for", "with"]

def decoratedDefinition (rules : Rules) (bound : Nat) (follow : Expected) :
    Parse (List Node) := do
  let decorator : Parse (Option (List Node)) := do
    if ← atSymbol "@" then
      let mark ← symbol "@" .operand
      let value ← rules (.expression .statement)
      return some (wrap .other (mark ++ value) ++ (← newline {}))
    else return none
  let decorators ← repeated decorator bound
  let definition ←
    if ← atWord "class" then classDefinition rules bound follow
    else if ← atWord "def" then
      pure (wrap .functionDefinition (← functionDefinition rules bound follow))
    else if ← atWord "async" then
      let word ← consumeWord .asyncKeyword false {}
      pure (wrap .functionDefinition (word ++ (← functionDefinition rules bound follow)))
    else reject
  return wrap .decoratedDefinition (decorators ++ withField .definition definition)

def statement (rules : Rules) (bound : Nat) (follow : Expected) : Parse (List Node) := do
  let simple := simpleStatements rules bound follow
  match (← get).next with
  | .word letters =>
    match String.ofList letters with
    | "if" => ifStatement rules bound follow
    | "while" => whileStatement rules follow
    | "for" => return wrap .other (← forStatement rules bound follow)
    | "with" => return wrap .other (← withStatement rules bound follow)
    | "try" => tryStatement rules bound follow
    | "def" => return wrap .functionDefinition (← functionDefinition rules bound follow)
    | "class" => classDefinition rules bound follow
    | "match" => orElse (matchStatement rules bound follow) simple
    | "async" => if ← atAsyncStatement then asyncStatement rules bound follow else simple
    | _ => simple
  | _ => if ← atSymbol "@" then decoratedDefinition rules bound follow else simple

end Untested.Python
