/-
# Patterns

The patterns of `case` clauses are a language of their own, and only partly a part of the
expressions.
-/

import Untested.Python.Grammar.Expression

namespace Untested.Python

/-- Names joined by points. -/
def dottedName (bound : Nat) (follow : Expected) : Parse (List Node) := do
  let first ← identifier follow
  let more : Parse (Option (List Node)) := do
    if ← atSymbol "." then
      let point ← symbol "." {}
      return some (point ++ (← identifier follow))
    else return none
  return wrap .other (first ++ (← repeated more bound))

/-- A numeral without sign. -/
def numeral (follow : Expected) : Parse (List Node) := do
  let state ← get
  match state.next with
  | .symbol =>
    let length := numeralLength state.input.rest
    if length = 0 then reject else consume .other true length follow
  | _ => reject

/-- A number, possibly negative or complex. -/
def numberPattern (follow : Expected) : Parse (List Node) := do
  let sign ← if ← atSymbol "-" then symbol "-" {} else pure []
  let first ← numeral follow
  let second ←
    if ← atSymbol "+" then
      let sign ← symbol "+" {}
      pure (sign ++ (← numeral follow))
    else if ← atSymbol "-" then
      let sign ← symbol "-" {}
      pure (sign ++ (← numeral follow))
    else pure []
  return wrap .other (sign ++ first ++ second)

def atPattern : Parse Bool := do
  let state ← get
  match state.next with
  | .stringStart _ | .word _ => return true
  | .symbol =>
    return ['(', '[', '\x7b', '*', '-'].contains (state.input.rest.headD ' ') ||
      numeralLength state.input.rest ≠ 0
  | _ => return false

/-- Patterns in brackets of some kind. -/
def enclosedPatterns (rules : Rules) (bound : Nat) (opening closing : String)
    (follow : Expected) : Parse (List Node) := do
  let left ← symbol opening .bracketed
  let inner ←
    if ← atPattern then
      let first ← rules (.pattern .inside)
      pure (first ++ (← moreElements atPattern .bracketed (rules (.pattern .inside)) bound))
    else pure []
  return wrap .other (left ++ inner ++ (← symbol closing follow))

/-- A pattern that collects what the others leave. -/
def starredPattern (follow : Expected) : Parse (List Node) := do
  let star ← if ← atSymbol "**" then symbol "**" {} else symbol "*" {}
  return wrap .other (star ++ (← identifier follow))

/-- A pattern without alternatives. -/
def closedPattern (rules : Rules) (bound : Nat) (follow : Expected) : Parse (List Node) := do
  let state ← get
  match state.next with
  | .stringStart _ => strings rules bound follow
  | .word letters =>
    if ["True", "False", "None"].contains (String.ofList letters) then
      consumeWord .other true follow
    else
      let name ← dottedName bound follow
      if ← atSymbol "(" then
        return wrap .other (name ++ (← enclosedPatterns rules bound "(" ")" follow))
      else return name
  | .symbol =>
    match state.input.rest.headD ' ' with
    | '(' => enclosedPatterns rules bound "(" ")" follow
    | '[' => enclosedPatterns rules bound "[" "]" follow
    | '\x7b' => dictionaryPattern rules bound follow
    | '*' => starredPattern follow
    | _ => numberPattern follow
  | _ => reject
where
  /-- Keys with the patterns of their values, in braces. -/
  dictionaryPattern (rules : Rules) (bound : Nat) (follow : Expected) : Parse (List Node) := do
    let left ← symbol "\x7b" .bracketed
    let entry : Parse (List Node) := do
      if ← atSymbol "*" then starredPattern .inside
      else
        let key ← rules (.pattern {})
        let colon ← symbol ":" .operand
        return wrap .other (key ++ colon ++ (← rules (.pattern .inside)))
    let inner ←
      if ← atPattern then
        let first ← entry
        pure (first ++ (← moreElements atPattern .bracketed entry bound))
      else pure []
    return wrap .other (left ++ inner ++ (← symbol "\x7d" follow))

def casePattern (rules : Rules) (bound : Nat) (context : Context) : Parse (List Node) := do
  let follow := context.follow
  let first ← closedPattern rules bound follow
  if ← atBareSymbol "=" then
    let sign ← symbol "=" .operand
    return wrap .other (first ++ sign ++ (← rules (.pattern context)))
  let alternative : Parse (Option (List Node)) := do
    if ← atSymbol "|" then
      let bar ← symbol "|" .operand
      return some (bar ++ (← closedPattern rules bound follow))
    else return none
  let alternatives ← repeated alternative bound
  let naming : Parse (Option (List Node)) := do
    if ← atWord "as" then
      let word ← keyword "as" {}
      return some (word ++ (← identifier follow))
    else return none
  let names ← repeated naming bound
  return wrap .other (first ++ alternatives ++ names)

end Untested.Python
