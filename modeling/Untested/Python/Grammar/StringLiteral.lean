/-
# String literals

A literal is read piece by piece: plain characters, escapes, and expressions in braces.  Inside an
expression the ordinary tokens are read again, so literals and expressions nest to any depth.
-/

import Untested.Python.Grammar.Basic

namespace Untested.Python

/-- Moves on within a literal and yields the piece passed over. -/
def passTo (kind : Kind) (stop : Input) (layout : Layout) : Parse (List Node) := fun state =>
  .ok ([.leaf kind true state.input stop], { state with input := stop, layout })

/-- Puts the parser before the symbol at the given place. -/
def standAt (input : Input) : Parse Unit :=
  modify fun state => { state with input, next := .symbol, trivia := [] }

/-- Leaves the ordinary tokens behind a closing brace, which is consumed. -/
def closeBrace : Parse (List Node) := do
  if ← atSymbol "\x7d" then
    let state ← get
    let stop := state.input.tail
    set { state with input := stop, trivia := [] }
    return state.trivia.reverse ++ [.leaf .other false state.input stop]
  else reject

/-- What may stand behind an expression in braces: an equality sign, a conversion and a format. -/
def interpolationTail (rules : Rules) : Parse (List Node) := do
  let sign ← if ← atSymbol "=" then symbol "=" .inside else pure []
  let conversion ←
    match (← get).input.rest with
    | '!' :: c :: _ =>
      if 'a' ≤ c && c ≤ 'z' then consume .other true 2 .inside else pure []
    | _ => pure []
  let format ← if ← atSymbol ":" then rules .format else pure []
  return sign ++ conversion ++ format

/-- An expression in braces inside a literal. -/
def interpolation (rules : Rules) (bound : Nat) : Parse (List Node) := do
  let brace ← symbol "\x7b" .operand
  let value ←
    if ← atWord "yield" then rules (.yield .inside)
    else
      let first ← rules (.expression .inside)
      let rest ← moreElements (atOperand []) .bracketed (rules (.expression .inside)) bound
      pure (first ++ rest)
  let tail ← interpolationTail rules
  return wrap .other (brace ++ value ++ tail ++ (← closeBrace))

/-- The rest of a format, up to its closing brace. -/
def formatPieces (rules : Rules) : Nat → Parse (List Node)
  | 0 => reject
  | bound + 1 => do
    let state ← get
    let input := state.input.dropWhile (· = '\n')
    match input.rest with
    | [] => reject
    | '\x7d' :: _ => do
      standAt input
      return []
    | '\x7b' :: _ => do
      standAt input
      let brace ← symbol "\x7b" .operand
      let value ← rules (.expression .inside)
      let tail ← interpolationTail rules
      let nested := wrap .other (brace ++ value ++ tail ++ (← closeBrace))
      return nested ++ (← formatPieces rules bound)
    | _ => do
      let stop := input.dropWhile fun c => c ≠ '\x7b' && c ≠ '\x7d' && c ≠ '\n'
      standAt stop
      return .leaf .other false input stop :: (← formatPieces rules bound)

/-- The format of an expression in braces, from its colon on. -/
def formatSpecifier (rules : Rules) (bound : Nat) : Parse (List Node) := do
  let state ← get
  let stop := state.input.tail
  standAt stop
  let colon := state.trivia.reverse ++ [.leaf .other false state.input stop]
  return wrap .other (colon ++ (← formatPieces rules bound))

/-- The pieces of a literal up to its closing marks, those included. -/
def literalPieces (rules : Rules) : Nat → Parse (List Node)
  | 0 => reject
  | bound + 1 => do
    let state ← get
    match state.layout.scanString state.input with
    | some (.close, stop, layout) => passTo .other stop layout
    | some (_, stop, layout) =>
      let piece ← passTo .other stop layout
      return piece ++ (← literalPieces rules bound)
    | none =>
      match state.input.rest with
      | '\\' :: rest =>
        let escape ← passTo .other (state.input.drop (escapeTail rest + 1)) state.layout
        return escape ++ (← literalPieces rules bound)
      | _ =>
        -- no plain character stands here, so the ordinary rules for blank space apply
        let input := state.input.dropWhile isTokenGap
        match input.rest with
        | '\x7b' :: _ =>
          standAt input
          let value ← interpolation rules bound
          return value ++ (← literalPieces rules bound)
        | '#' :: _ =>
          let stop := input.dropWhile fun c => c ≠ '\n' && c ≠ '\x00'
          standAt stop
          return .leaf .comment true input stop :: (← literalPieces rules bound)
        | rest =>
          match continuationLength? rest with
          | some length =>
            standAt (input.drop length)
            return .leaf .lineContinuation true input (input.drop length) ::
              (← literalPieces rules bound)
          | none => reject

def stringLiteral (rules : Rules) (bound : Nat) (follow : Expected) : Parse (List Node) := do
  let state ← get
  match state.next with
  | .stringStart stop =>
    let opening := state.trivia.reverse ++ [.leaf .other true state.input stop]
    standAt stop
    let pieces ← literalPieces rules bound
    modify fun state => readToken follow state.layout state.limit state.limit [] state.input
    return wrap .string (opening ++ pieces)
  | _ => reject

/-- One or more adjacent string literals. -/
def strings (rules : Rules) (bound : Nat) (follow : Expected) : Parse (List Node) := do
  let follow := follow.or .operand
  let first ← stringLiteral rules bound follow
  let another : Parse (Option (List Node)) := do
    if ← atString then return some (← stringLiteral rules bound follow) else return none
  let rest ← repeated another bound
  return if rest.isEmpty then first else wrap .concatenatedString (first ++ rest)

end Untested.Python
