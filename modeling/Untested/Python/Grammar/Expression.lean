/-
# Expressions

Operators are read as one flat sequence, since how they group decides neither whether a text is
well formed nor which statement it belongs to.  An operand is an atom with whatever is looked up
in it, applied to it or indexed with it.
-/

import Untested.Python.Grammar.StringLiteral

namespace Untested.Python

/-- The operators between two operands that are written with symbols, longer ones before their own
beginnings. -/
def symbolOperators : List String :=
  ["**", "//", "<<", ">>", "<=", ">=", "==", "!=", "<>", "<", ">", "+", "-", "*", "/", "%", "@",
    "&", "|", "^"]

/-- The comparisons among them.  Behind any other operator an equality sign makes an assignment. -/
def comparisons : List String :=
  ["<=", ">=", "==", "!=", "<>", "<", ">"]

/-- Reads the operator between two operands, if one stands here. -/
def binaryOperator : Parse (Option (List Node)) := do
  for operator in symbolOperators do
    if ← atSymbol operator then
      if comparisons.contains operator || (← atBareSymbol operator) then
        return some (← symbol operator .operand)
      else return none
  if ← atWord "in" then return some (← keyword "in" .operand)
  if ← atWord "not" then
    let word ← keyword "not" {}
    return some (word ++ (← keyword "in" .operand))
  if ← atWord "is" then
    let word ← keyword "is" .operand
    if ← atWord "not" then return some (word ++ (← keyword "not" .operand))
    return some word
  return none

def atComprehension : Parse Bool :=
  atAnyWord ["for", "async"]

def targets (rules : Rules) (bound : Nat) : Parse (List Node) := do
  let first ← rules (.target {})
  let rest ← moreElements (atOperand ["in"]) .operand (rules (.target {})) bound
  return first ++ rest

def comprehensionClause (rules : Rules) (bound : Nat) : Parse (Option (List Node)) := do
  let context : Context := { follow := .inside, conditional := false }
  if ← atWord "if" then
    let word ← keyword "if" .operand
    return some (wrap .other (word ++ (← rules (.expression context))))
  else if ← atComprehension then
    let async ← if ← atWord "async" then keyword "async" {} else pure []
    let opening ← keyword "for" .operand
    let left ← targets rules bound
    let middle ← keyword "in" .operand
    let first ← rules (.expression context)
    let begins := atOperand ["for", "if", "async"]
    let rest ← moreElements begins .bracketed (rules (.expression context)) bound
    return some (wrap .other (async ++ opening ++ left ++ middle ++ first ++ rest))
  else return none

def comprehension (rules : Rules) (bound : Nat) : Parse (List Node) :=
  repeated (comprehensionClause rules bound) bound

/-- A starred value among others. -/
def starredElement (rules : Rules) (star : String) : Parse (List Node) := do
  let mark ← symbol star .operand
  let value ← rules (.expression .inside)
  return wrap (if (lastOf value).isPlainTarget then .splat else .other) (mark ++ value)

def element (rules : Rules) : Parse (List Node) := do
  if ← atWord "yield" then rules (.yield .inside)
  else if ← atSymbol "**" then reject
  else if ← atSymbol "*" then starredElement rules "*"
  else rules (.expression .inside)

def moreCollection (rules : Rules) (bound : Nat) : Parse (List Node) :=
  moreElements (atOperand []) .bracketed (element rules) bound

/-- One expression, several values or a comprehension in parentheses. -/
def parentheses (rules : Rules) (bound : Nat) (follow : Expected) : Parse (List Node) := do
  let opening ← symbol "(" .bracketed
  if ← atSymbol ")" then return wrap .tuple (opening ++ (← symbol ")" follow))
  let isStarred ← atSymbol "*"
  let first ← element rules
  if ← atComprehension then
    let clauses ← comprehension rules bound
    return wrap .other (opening ++ first ++ clauses ++ (← symbol ")" follow))
  let rest ← moreCollection rules bound
  let closing ← symbol ")" follow
  let kind : Kind := if rest.isEmpty && !isStarred then .parenthesized else .tuple
  return wrap kind (opening ++ first ++ rest ++ closing)

/-- Values or a comprehension in brackets. -/
def brackets (rules : Rules) (bound : Nat) (follow : Expected) : Parse (List Node) := do
  let opening ← symbol "[" .bracketed
  if ← atSymbol "]" then return wrap .list (opening ++ (← symbol "]" follow))
  let first ← element rules
  if ← atComprehension then
    let clauses ← comprehension rules bound
    return wrap .other (opening ++ first ++ clauses ++ (← symbol "]" follow))
  let rest ← moreCollection rules bound
  return wrap .list (opening ++ first ++ rest ++ (← symbol "]" follow))

/-- The value of a dictionary entry, behind its key. -/
def entryValue (rules : Rules) : Parse (List Node) := do
  let colon ← symbol ":" .operand
  return colon ++ (← rules (.expression .inside))

/-- An entry of a dictionary: a key with its value, or a dictionary spread out. -/
def entry (rules : Rules) : Parse (List Node) := do
  if ← atSymbol "**" then starredElement rules "**"
  else
    let key ← rules (.expression {})
    return wrap .other (key ++ (← entryValue rules))

def moreEntries (rules : Rules) (bound : Nat) : Parse (List Node) := do
  let begins : Parse Bool := do
    return (← atOperand []) || (← atSymbol "**")
  moreElements begins .bracketed (entry rules) bound

/-- Values, entries or a comprehension in braces. -/
def braces (rules : Rules) (bound : Nat) (follow : Expected) : Parse (List Node) := do
  let opening ← symbol "\x7b" .bracketed
  let inner ←
    if ← atSymbol "\x7d" then pure []
    else if ← atSymbol "," then symbol "," .inside
    else if ← atSymbol "**" then
      let first ← entry rules
      pure (first ++ (← moreEntries rules bound))
    else
      let first ← element rules
      if ← atSymbol ":" then
        let value ← entryValue rules
        let pair := wrap .other (first ++ value)
        if ← atComprehension then pure (pair ++ (← comprehension rules bound))
        else pure (pair ++ (← moreEntries rules bound))
      else if ← atComprehension then pure (first ++ (← comprehension rules bound))
      else pure (first ++ (← moreCollection rules bound))
  return wrap .other (opening ++ inner ++ (← symbol "\x7d" follow))

/-- An argument of a call: a value, a spread value, or a value with a name. -/
def argument (rules : Rules) : Parse (List Node) := do
  if ← atSymbol "**" then starredElement rules "**"
  else if ← atSymbol "*" then starredElement rules "*"
  else
    let value ← rules (.expression .inside)
    if (lastOf value).kind = .identifier && (← atBareSymbol "=") then
      let sign ← symbol "=" .operand
      return wrap .other (value ++ sign ++ (← rules (.expression .inside)))
    else return value

/-- The arguments of a call in their parentheses, or a comprehension in place of them. -/
def arguments (rules : Rules) (bound : Nat) (follow : Expected) : Parse (List Node) := do
  let opening ← symbol "(" .bracketed
  let begins : Parse Bool := do
    return (← atOperand []) || (← atSymbol "**")
  let inner ←
    if ← atSymbol ")" then pure []
    else if ← atSymbol "," then symbol "," .inside
    else
      let isPlain := !(← atSymbol "*")
      let first ← argument rules
      if isPlain && (← atComprehension) then
        pure (first ++ (← comprehension rules bound))
      else
        pure (first ++ (← moreElements begins .bracketed (argument rules) bound))
  return wrap .other (opening ++ inner ++ (← symbol ")" follow))

def sliceBound (rules : Rules) : Parse (List Node) := do
  if ← atOperand [] then rules (.expression .inside) else return []

def slice (rules : Rules) : Parse (List Node) := do
  let start ← sliceBound rules
  if ← atSymbol ":" then
    let colon ← symbol ":" .bracketed
    let stop ← sliceBound rules
    let step ←
      if ← atSymbol ":" then
        let colon ← symbol ":" .bracketed
        pure (colon ++ (← sliceBound rules))
      else pure []
    return wrap .other (start ++ colon ++ stop ++ step)
  else if start.isEmpty then reject
  else return start

/-- The keys of a subscript in their brackets. -/
def subscripts (rules : Rules) (bound : Nat) (follow : Expected) : Parse (List Node) := do
  let opening ← symbol "[" .operand
  let begins : Parse Bool := do
    return (← atOperand []) || (← atSymbol ":")
  let first ← slice rules
  let rest ← moreElements begins .bracketed (slice rules) bound
  return opening ++ first ++ rest ++ (← symbol "]" follow)

/-- What is looked up in a value, applied to it or indexed with it, one after the other. -/
def trailers (rules : Rules) (follow : Expected) (value : List Node) : Nat → Parse (List Node)
  | 0 => reject
  | bound + 1 => do
    if ← atSymbol "." then
      let point ← symbol "." {}
      let name ← identifier follow
      trailers rules follow (wrap .attribute (value ++ point ++ name)) bound
    else if ← atSymbol "(" then
      let inner ← arguments rules bound follow
      trailers rules follow (wrap .call (value ++ inner)) bound
    else if ← atSymbol "[" then
      let inner ← subscripts rules bound follow
      trailers rules follow (wrap .subscript (value ++ inner)) bound
    else return value

/-- A value without operators: a name, a literal, or something in brackets. -/
def atom (rules : Rules) (bound : Nat) (follow : Expected) : Parse (List Node) := do
  let state ← get
  match state.next with
  | .stringStart _ => strings rules bound follow
  | .word letters =>
    if ["True", "False", "None"].contains (String.ofList letters) then
      consumeWord .other true follow
    else identifier follow
  | .symbol =>
    match state.input.rest with
    | '(' :: _ => parentheses rules bound follow
    | '[' :: _ => brackets rules bound follow
    | '\x7b' :: _ => braces rules bound follow
    | '.' :: '.' :: '.' :: _ => consume .other true 3 follow
    | rest =>
      let length := numeralLength rest
      if length = 0 then reject else consume .other true length follow
  | _ => reject

/-- An atom with its trailers. -/
def lookup (rules : Rules) (bound : Nat) (follow : Expected) : Parse (List Node) := do
  trailers rules follow (← atom rules bound follow) bound

/-- A starred value that stands for several.  The value is looked up somewhere. -/
def splat (rules : Rules) (bound : Nat) (follow : Expected) : Parse (List Node) := do
  let star ← symbol "*" .operand
  let value ← lookup rules bound follow
  let last := lastOf value
  if last.isPlainTarget then return wrap .splat (star ++ value)
  else if last.isLookup then return wrap .other (star ++ value)
  else reject

/-- The words that cannot be the operand of `await`, because they go on with an expression in
which `await` is a name. -/
def wordsBehindName : List String :=
  ["and", "or", "in", "is", "not", "if", "as", "else", "for"]

def operand (rules : Rules) (bound : Nat) (context : Context) : Parse (List Node) := do
  let follow := context.follow
  for sign in ["+", "-", "~"] do
    if ← atSymbol sign then
      let mark ← symbol sign .operand
      return wrap .other (mark ++ (← rules (.operand context)))
  if ← atSymbol "*" then splat rules bound follow
  else if ← atWord "await" then
    let name ← identifier (follow.or .operand)
    if ← atOperand wordsBehindName then
      return wrap .other (name ++ (← rules (.operand context)))
    else trailers rules follow name bound
  else lookup rules bound follow

/-- Something that can be assigned to, without operators. -/
def target (rules : Rules) (bound : Nat) (context : Context) : Parse (List Node) := do
  let value ←
    if ← atSymbol "*" then splat rules bound context.follow
    else lookup rules bound context.follow
  if (lastOf value).isTarget then return value else reject

def operands (rules : Rules) (bound : Nat) (context : Context) : Parse (List Node) := do
  let first ← rules (.operand context)
  if (lastOf first).kind = .identifier && (← atSymbol ":=") then
    let sign ← symbol ":=" .operand
    return wrap .other (first ++ sign ++ (← rules (.expression context)))
  let more : Parse (Option (List Node)) := do
    match ← binaryOperator with
    | none => return none
    | some operator => return some (operator ++ (← rules (.operand context)))
  let rest ← repeated more bound
  return if rest.isEmpty then first else wrap .other (first ++ rest)

/-- A list of expressions, possibly with a comma at its end. -/
def expressionList (rules : Rules) (bound : Nat) (context : Context) (keywords : List String) :
    Parse (List Node) := do
  let first ← rules (.expression context)
  let rest ← moreElements (atOperand keywords) (context.follow.or .operand)
    (rules (.expression context)) bound
  return first ++ rest

/-- The keyword `yield` with its values. -/
def yieldExpression (rules : Rules) (bound : Nat) (context : Context) : Parse (List Node) := do
  let word ← keyword "yield" (context.follow.or .operand)
  if ← atWord "from" then
    let source ← keyword "from" .operand
    return wrap .other (word ++ source ++ (← rules (.expression context)))
  else if ← atOperand [] then
    return wrap .other (word ++ (← expressionList rules bound context []))
  else return wrap .other word

/-- A parameter that collects arguments, or a mark that separates kinds of parameters. -/
def starredParameter (rules : Rules) (star : String) (follow : Expected) : Parse (List Node) := do
  let mark ← symbol star (follow.or .operand)
  if ← atOperand [] then
    let name ← rules (.target { follow })
    if (lastOf name).isPlainTarget then return mark ++ name else reject
  else if star = "*" then return mark
  else reject

def parameterType (rules : Rules) (typed : Bool) (follow : Expected) : Parse (List Node) := do
  if typed && (← atSymbol ":") then
    let colon ← symbol ":" .operand
    return colon ++ (← rules (.type { follow } true))
  else return []

/-- The default value of a parameter, if it has one. -/
def parameterDefault (rules : Rules) (follow : Expected) : Parse (List Node) := do
  if ← atBareSymbol "=" then
    let sign ← symbol "=" .operand
    return sign ++ (← rules (.expression { follow }))
  else return []

def parameter (rules : Rules) (bound : Nat) (typed : Bool) (follow : Expected) :
    Parse (List Node) := do
  if ← atSymbol "**" then
    let name ← starredParameter rules "**" follow
    return wrap .other (name ++ (← parameterType rules typed follow))
  else if ← atSymbol "*" then
    let name ← starredParameter rules "*" follow
    return wrap .other (name ++ (← parameterType rules typed follow))
  else if ← atSymbol "/" then symbol "/" follow
  else if ← atSymbol "(" then
    let names ← parentheses rules bound follow
    if !(lastOf names).isTarget then reject
    return wrap .other (names ++ (← parameterDefault rules follow))
  else
    let name ← identifier follow
    let type ← parameterType rules typed follow
    return wrap .other (name ++ type ++ (← parameterDefault rules follow))

/-- A list of parameters, possibly with a comma at its end. -/
def parameterList (rules : Rules) (bound : Nat) (typed : Bool) (follow : Expected) :
    Parse (List Node) := do
  let begins : Parse Bool := do
    match (← get).next with
    | .word _ => return true
    | .symbol => return ['*', '/', '('].contains ((← get).input.rest.headD ' ')
    | _ => return false
  if ← begins then
    let first ← parameter rules bound typed follow
    return first ++ (← moreElements begins follow (parameter rules bound typed follow) bound)
  else return []

/-- An anonymous function. -/
def lambda (rules : Rules) (bound : Nat) (context : Context) : Parse (List Node) := do
  let word ← keyword "lambda" {}
  let parameters ← parameterList rules bound false {}
  let colon ← symbol ":" .operand
  return wrap .other (word ++ parameters ++ colon ++ (← rules (.expression context)))

/-- An expression.  What stands behind `not` or an operator takes in all the rest of it. -/
def expression (rules : Rules) (bound : Nat) (context : Context) : Parse (List Node) := do
  if ← atWord "not" then
    let word ← keyword "not" .operand
    return wrap .other (word ++ (← rules (.expression context)))
  if ← atWord "lambda" then return ← lambda rules bound context
  let first ← operands rules bound context
  for operator in ["and", "or", "as"] do
    if ← atWord operator then
      let word ← keyword operator .operand
      return wrap .other (first ++ word ++ (← rules (.expression context)))
  if context.conditional && (← atWord "if") then
    let word ← keyword "if" .operand
    let condition ← rules (.expression {})
    let middle ← keyword "else" .operand
    return wrap .other (first ++ word ++ condition ++ middle ++ (← rules (.expression context)))
  return first

/-- Types or constrained types in brackets. -/
def typeArguments (rules : Rules) (bound : Nat) (follow : Expected) : Parse (List Node) := do
  let opening ← symbol "[" .operand
  let first ← rules (.type .inside true)
  let rest ← moreElements (do return (← atOperand []) || (← atSymbol "**")) .bracketed
    (rules (.type .inside true)) bound
  return opening ++ first ++ rest ++ (← symbol "]" follow)

/-- The words that are no plain names at the beginning of a type. -/
def wordsBeforeType : List String :=
  ["not", "lambda", "await", "True", "False", "None", "print", "exec", "async", "match"]

/-- Whether a name with types in brackets begins here. -/
def atGenericType (follow : Expected) : Parse Bool := do
  match (← get).next with
  | .word letters =>
    if wordsBeforeType.contains (String.ofList letters) then return false
    else lookingAt do
      let _ ← identifier follow
      atSymbol "["
  | _ => return false

/-- What may go on behind a type: an alternative, a member, or a constraint. -/
def typeTail (rules : Rules) (context : Context) (constrained : Bool) (type : List Node) :
    Nat → Parse (List Node)
  | 0 => reject
  | bound + 1 => do
    if ← atBareSymbol "|" then
      let bar ← symbol "|" .operand
      return wrap .other (type ++ bar ++ (← rules (.type context constrained)))
    else if ← atSymbol "." then
      let point ← symbol "." {}
      let name ← identifier context.follow
      typeTail rules context constrained (wrap .other (type ++ point ++ name)) bound
    else if constrained && (← atSymbol ":") then
      let colon ← symbol ":" .operand
      return wrap .other (type ++ colon ++ (← rules (.type context constrained)))
    else return type

def typeExpression (rules : Rules) (bound : Nat) (context : Context) (constrained : Bool) :
    Parse (List Node) := do
  let type ←
    if ← atSymbol "**" then
      let star ← symbol "**" {}
      pure (star ++ (← identifier context.follow))
    else if ← atGenericType context.follow then
      let name ← identifier context.follow
      pure (name ++ (← typeArguments rules bound context.follow))
    else rules (.expression context)
  typeTail rules context constrained (wrap .other type) bound

end Untested.Python
