/-
# What a string literal yields

The productions are given the steps of the rules, so what they yield depends on what the rules
yield.  A literal is made of the mark where it begins, its pieces and the mark where it ends, and
since the parser never goes back, its text begins with the letters and the first quotation mark.
-/

import Untested.Python.Grammar.StringLiteral
import Untested.Proofs.Python.Parsing.Step

open Std.Do

set_option mvcgen.warning false

namespace Untested.Python

/-- What a rule yields: formed nodes, and one construct where that matters. -/
@[grind]
def Rule.Yields (source : List Char) (nodes : List Node) : Rule → Prop
  | .expression _ | .operand _ | .yield _ => AreFormed source nodes ∧ IsSole nodes
  | .target _ | .type .. | .value _ | .format | .pattern _ | .suite _ | .statement _ =>
      AreFormed source nodes

/-- Every part is a string literal. -/
def AreLiterals (nodes : List Node) : Prop :=
  ∀ part ∈ partsOf nodes, part.kind = .string ∧ part.isSignificant = true

/-- A run of characters keeps its beginning when enough of it is taken. -/
theorem OpensWith.take {literal letters : List Char} {mark : Char} {count : Nat}
    (hopens : OpensWith literal letters mark) (hcount : letters.length + 1 ≤ count) :
    OpensWith (literal.take count) letters mark where
  opening := List.prefix_take_iff.2 ⟨hopens.opening, by simpa using hcount⟩
  letters := hopens.letters
  mark := hopens.mark

theorem areLiterals_append {first second : List Node} (hfirst : AreLiterals first)
    (hsecond : AreLiterals second) : AreLiterals (first ++ second) := by
  intro part hpart
  rw [partsOf_append, List.mem_append] at hpart
  exact hpart.elim (hfirst part) (hsecond part)

/-- What is made of several literals is formed. -/
theorem areFormed_wrap_concatenatedString {source : List Char} {nodes : List Node}
    (hformed : AreFormed source nodes) (hparts : HasParts nodes) (hliterals : AreLiterals nodes) :
    AreFormed source (wrap .concatenatedString nodes) := by
  refine areFormed_wrap_of hformed fun node hkind hfield hnode _ => ?_
  constructor
  case literals =>
    rw [hnode]
    exact fun _ => ⟨hparts, hliterals⟩
  case definition | name => exact fun hrole => by simp [hfield] at hrole
  all_goals exact fun hother => by simp [hkind] at hother

namespace Reading

/-- The steps of the rules yield what they should, wherever a parser stands. -/
def AreLawful (source : List Char) (rules : Rules) : Prop :=
  ∀ passed rule, Keeps ⟨source, passed⟩ (rules rule) fun nodes => rule.Yields source nodes

theorem AreLawful.keeps [reading : Reading] {rules : Rules}
    (hrules : AreLawful reading.source rules) (rule : Rule) :
    reading.Keeps (rules rule) fun nodes => rule.Yields reading.source nodes :=
  hrules reading.passed rule

/-- The last part of some nodes ends behind what has been read before them. -/
def Closes (reading : Reading) (nodes : List Node) : Prop :=
  ∃ close, (partsOf nodes).getLast? = some close ∧ reading.passed ≤ close.label.stop.offset

theorem Closes.append {reading : Reading} {nodes : List Node} (hcloses : reading.Closes nodes)
    (earlier : List Node) : reading.Closes (earlier ++ nodes) := by
  obtain ⟨close, hlast, hpassed⟩ := hcloses
  refine ⟨close, ?_, hpassed⟩
  rw [partsOf_append, List.getLast?_append, hlast]
  rfl

theorem Closes.cons {reading : Reading} {nodes : List Node} (hcloses : reading.Closes nodes)
    (node : Node) : reading.Closes (node :: nodes) :=
  hcloses.append [node]

variable [reading : Reading]

/-! ## Moving within a literal -/

/-- The parser is in order inside a literal, where no token comes next. -/
def HoldsInside (reading : Reading) (state : ParserState) : Prop :=
  reading.Holds state ∧ state.next = .symbol

@[grind →]
theorem HoldsInside.holds {state : ParserState} (hinside : reading.HoldsInside state) :
    reading.Holds state :=
  hinside.1

theorem holdsInside_of_reaches {state : ParserState} (hinput : reading.Reaches state.input)
    (hnext : state.next = .symbol) (htrivia : ∀ node ∈ state.trivia, node.isTrivia = true)
    (hformed : AreFormed reading.source state.trivia) : reading.HoldsInside state := by
  refine ⟨⟨hinput, fun stop hstop => ?_, fun letters hword => ?_, htrivia, hformed⟩, hnext⟩
  · rw [hnext] at hstop
    cases hstop
  · rw [hnext] at hword
    cases hword

@[spec]
theorem keeps_standAt {input : Input} :
    ⦃fun _ => ⌜True⌝⦄ standAt input
    ⦃⇓? _ state => ⌜reading.Reaches input → reading.HoldsInside state⌝⦄ := by
  mvcgen [standAt]
  exact fun hinput => holdsInside_of_reaches hinput rfl (List.forall_mem_nil _) areFormed_nil

/-- A piece that is passed over lies before the parser. -/
@[spec]
theorem keeps_passTo {kind : Kind} {stop : Input} {layout : Layout} :
    ⦃fun state => ⌜reading.HoldsInside state⌝⦄ passTo kind stop layout
    ⦃⇓? nodes state => ⌜(∃ start, nodes = [.leaf kind true start stop]) ∧
      (reading.Reaches stop → reading.HoldsInside state)⌝⦄ := by
  intro state hinside
  refine wp_iff.2 fun nodes after hstep => ?_
  obtain ⟨hholds, hnext⟩ := hinside
  cases hstep
  exact ⟨⟨_, rfl⟩, fun hstop => holdsInside_of_reaches hstop hnext hholds.isTrivia hholds.trivia⟩

@[spec]
theorem keeps_closeBrace :
    ⦃fun state => ⌜reading.Holds state⌝⦄ closeBrace
    ⦃⇓? nodes state => ⌜reading.HoldsInside state ∧ AreFormed reading.source nodes⌝⦄ := by
  mvcgen [closeBrace, atSymbol, -keeps_atSymbol]
  case vc1 state hholds hnext _ _ =>
    exact ⟨holdsInside_of_reaches hholds.input.tail hnext (List.forall_mem_nil _) areFormed_nil,
      areFormed_append.2 ⟨hholds.areFormed_trivia, areFormed_leaf rfl⟩⟩
  -- the other cases are those where the brace is missing
  all_goals exact False.elim

/-! ## Expressions inside a literal -/

variable {rules : Rules} (hrules : AreLawful reading.source rules) (bound : Nat)

include hrules

@[spec]
theorem keeps_moreExpressions (keywords : List String) (afterComma : Expected) (context : Context)
    (bound : Nat) :
    reading.Keeps (moreElements (atOperand keywords) afterComma (rules (.expression context)) bound)
      fun nodes => AreFormed reading.source nodes ∧
        IsContinuation reading.source (partsOf nodes) :=
  keeps_moreElements_isContinuation (keeps_atOperand keywords) (hrules.keeps (.expression context))
    afterComma bound

@[spec]
theorem keeps_interpolationTail :
    reading.Keeps (interpolationTail rules) (AreFormed reading.source) := by
  have hrule := hrules.keeps
  -- nothing about a production is linear, and looking for an order on its answers takes long
  mvcgen [interpolationTail, hrule] with grind -linarith

@[spec]
theorem keeps_interpolation :
    ⦃fun state => ⌜reading.Holds state⌝⦄ interpolation rules bound
    ⦃⇓? nodes state => ⌜reading.HoldsInside state ∧ AreFormed reading.source nodes⌝⦄ := by
  have hrule := hrules.keeps
  mvcgen [interpolation, hrule] with grind -linarith

@[spec]
theorem keeps_formatPieces :
    reading.Keeps (formatPieces rules bound) (AreFormed reading.source) := by
  induction bound with
  | zero => exact keeps_reject
  | succ bound ih =>
      have hrule := hrules.keeps
      mvcgen [formatPieces, hrule, ih]
        with grind -linarith [→ Holds.input, ← Reaches.dropWhile, = areFormed_cons, areFormed_leaf]

@[spec]
theorem keeps_formatSpecifier :
    reading.Keeps (formatSpecifier rules bound) (AreFormed reading.source) := by
  mvcgen [formatSpecifier]
    with grind -linarith [→ Holds.input, ← Reaches.tail, areFormed_leaf, → Holds.areFormed_trivia]

/-! ## Literals -/

omit hrules in
theorem closes_leaf {start stop : Input} (hstop : reading.Reaches stop) :
    reading.Closes [.leaf .other true start stop] :=
  ⟨_, rfl, hstop.passed⟩

/-- The pieces of a literal go on to the mark where it ends. -/
@[spec]
theorem keeps_literalPieces :
    ⦃fun state => ⌜reading.HoldsInside state⌝⦄ literalPieces rules bound
    ⦃⇓? nodes state => ⌜reading.HoldsInside state ∧ AreFormed reading.source nodes ∧
      reading.Closes nodes⌝⦄ := by
  induction bound with
  | zero =>
      mvcgen [literalPieces]
      nofun
  | succ bound ih =>
      mvcgen [literalPieces, ih]
        with grind -linarith [→ Holds.input, ← Reaches.dropWhile, ← Reaches.drop,
          → Reaches.scanString, = areFormed_cons, areFormed_leaf, ← Closes.append, ← Closes.cons,
          ← closes_leaf]

omit hrules in
/-- A literal that is read on from its beginning to some place behind its first quotation mark is
formed. -/
theorem areFormed_wrap_string {start stop : Input} {letters : List Char} {mark : Char}
    {trivia pieces : List Node} (hstart : reading.Reaches start)
    (hopens : OpensWith start.rest letters mark) (htrivia : partsOf trivia = [])
    (hformed : AreFormed reading.source (trivia ++ [.leaf .other true start stop] ++ pieces))
    (hcloses : Closes ⟨reading.source, start.position.offset + letters.length + 1⟩ pieces) :
    AreFormed reading.source
      (wrap .string (trivia ++ [.leaf .other true start stop] ++ pieces)) := by
  obtain ⟨close, hlast, hpassed⟩ := hcloses
  refine areFormed_wrap_of hformed fun node hkind hfield _ hplace => ?_
  have hparts : partsOf (trivia ++ [.leaf .other true start stop] ++ pieces) =
      .leaf .other true start stop :: partsOf pieces := by
    rw [partsOf_append, partsOf_append, htrivia]
    rfl
  obtain ⟨hfrom, hto⟩ := hplace (.leaf .other true start stop) close
    (by rw [hparts, List.head?_cons]) (by rw [partsOf_append, List.getLast?_append, hlast]; rfl)
  constructor
  case literal =>
    refine fun _ => ⟨letters, mark, ?_⟩
    rw [Node.text, hfrom, hto]
    show OpensWith ((reading.source.drop start.position.offset).take _) letters mark
    rw [← hstart.rest]
    refine hopens.take ?_
    show letters.length + 1 ≤ close.label.stop.offset - start.position.offset
    dsimp only at hpassed
    omega
  case definition | name => exact fun hrole => by simp [hfield] at hrole
  all_goals exact fun hother => by simp [hkind] at hother

omit hrules reading in
/-- A literal that is read begins where one may begin, and its pieces stand behind that. -/
theorem pieces_of_stringLiteral {follow : Expected} {state after : ParserState}
    {nodes : List Node} (hstep : stringLiteral rules bound follow state = .ok (nodes, after)) :
    ∃ stop pieces inner, state.next = .stringStart stop ∧
      literalPieces rules bound { state with input := stop, next := .symbol, trivia := [] } =
        .ok (pieces, inner) ∧
      nodes = wrap .string
        (state.trivia.reverse ++ [.leaf .other true state.input stop] ++ pieces) ∧
      after = readToken follow inner.layout inner.limit inner.limit [] inner.input := by
  cases hnext : state.next with
  | stringStart stop =>
      simp only [stringLiteral, standAt, bind, StateT.bind, get, getThe, MonadStateOf.get,
        StateT.get, modify, modifyGet, MonadStateOf.modifyGet, StateT.modifyGet, pure,
        StateT.pure, Except.pure, Except.bind, hnext] at hstep
      split at hstep
      case h_1 => cases hstep
      case h_2 pair hpieces =>
        cases hstep
        exact ⟨stop, pair.1, pair.2, rfl, hpieces, rfl, rfl⟩
  | _ =>
      simp only [stringLiteral, bind, StateT.bind, get, getThe, MonadStateOf.get, StateT.get, pure,
        Except.pure, Except.bind, hnext] at hstep
      cases hstep

omit hrules reading in
theorem reaches_of_literalPieces {inside : Reading} {state after : ParserState} {stop : Input}
    {pieces : List Node} (hstop : inside.Reaches stop) (hrules : AreLawful inside.source rules)
    (hpieces : literalPieces rules bound
      { state with input := stop, next := .symbol, trivia := [] } = .ok (pieces, after)) :
    inside.Reaches after.input ∧ AreFormed inside.source pieces ∧ inside.Closes pieces := by
  have hinside : inside.HoldsInside { state with input := stop, next := .symbol, trivia := [] } :=
    @holdsInside_of_reaches inside _ hstop rfl nofun areFormed_nil
  obtain ⟨⟨hholds, -⟩, hrest⟩ :=
    wp_iff.1 (keeps_literalPieces hrules bound _ hinside) pieces after hpieces
  exact ⟨hholds.input, hrest⟩

@[spec]
theorem keeps_stringLiteral (follow : Expected) :
    reading.Keeps (stringLiteral rules bound follow) fun nodes =>
      AreFormed reading.source nodes ∧ IsSole nodes ∧ AreLiterals nodes := by
  rw [keeps_iff]
  intro state nodes after hholds hstep
  obtain ⟨stop, pieces, inner, hnext, hpieces, rfl, rfl⟩ := pieces_of_stringLiteral bound hstep
  obtain ⟨letters, mark, hopens, hstop⟩ := hholds.literal stop hnext
  -- from here on the parser does not go back behind the first quotation mark
  obtain ⟨hinner, hformed, hcloses⟩ := reaches_of_literalPieces bound hstop hrules hpieces
  have hpassed : reading.passed ≤ inner.input.position.offset := by
    have hstart := hholds.input.passed
    have hinner : state.input.position.offset + letters.length + 1 ≤ _ := hinner.passed
    omega
  have hopening : AreFormed reading.source
      (state.trivia.reverse ++ [.leaf .other true state.input stop]) :=
    areFormed_append.2 ⟨hholds.areFormed_trivia, areFormed_leaf rfl⟩
  have hparts : HasParts (state.trivia.reverse ++ [.leaf .other true state.input stop] ++ pieces) :=
    hasParts_append.2 (.inl (hasParts_append.2 (.inr (List.cons_ne_nil _ _))))
  refine ⟨holds_readToken ⟨hinner.rest, hpassed⟩ nofun areFormed_nil,
    areFormed_wrap_string hholds.input hopens hholds.partsOf_trivia
      (areFormed_append.2 ⟨hopening, hformed⟩) hcloses,
    isSole_wrap rfl hparts, fun part hpart => ?_⟩
  rw [partsOf_wrap rfl hparts, List.mem_singleton] at hpart
  rw [hpart]
  exact ⟨rfl, rfl⟩

@[spec]
theorem keeps_moreLiterals (follow : Expected) (count : Nat) :
    reading.Keeps
      (repeated (do
        if ← atString then return some (← stringLiteral rules bound follow) else return none) count)
      fun nodes => AreFormed reading.source nodes ∧ AreLiterals nodes := by
  refine keeps_repeated ⟨areFormed_nil, nofun⟩ (fun _ _ hfirst hsecond => ?_) ?_ count
  · exact ⟨areFormed_append.2 ⟨hfirst.1, hsecond.1⟩, areLiterals_append hfirst.2 hsecond.2⟩
  · mvcgen with grind -linarith

@[spec]
theorem keeps_strings (follow : Expected) :
    reading.Keeps (strings rules bound follow) fun nodes =>
      AreFormed reading.source nodes ∧ IsSole nodes := by
  mvcgen [strings] with grind -linarith [areLiterals_append, areFormed_wrap_concatenatedString]

end Reading

end Untested.Python
