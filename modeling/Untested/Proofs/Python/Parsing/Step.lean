/-
# What every step of a parser keeps

A step of a parser begins and ends with the parser in order: it stands where it has read up to, the
next token is really there, be it a word or the beginning of a literal, and the trivia in front of
it are trivia.  `Keeps` says so of a step,
and also what the step yields if it succeeds.  It is kept by whatever steps are made of, and there
is one such fact for each primitive step.
-/

import Mathlib
import Untested.Python.Grammar.Basic
import Untested.Proofs.Python.Parsing.Form

open Std.Do

set_option mvcgen.warning false

namespace Untested.Python

/-- A triple without a word on failures says what holds after each success. -/
theorem wp_iff {α : Type} {step : Parse α} {post : α → ParserState → Prop} {state : ParserState} :
    (wp⟦step⟧ (⇓? result after => ⌜post result after⌝) state).down ↔
      ∀ result after, step state = .ok (result, after) → post result after := by
  rw [wp, StateT.instWP, PredTrans.apply_pushArg]
  show (wp⟦step state⟧ _).down ↔ _
  cases step state with
  | error place => exact ⟨fun _ => nofun, fun _ => trivial⟩
  | ok pair =>
      refine ⟨fun hpost result after hpair => ?_, fun hpost => hpost pair.1 pair.2 rfl⟩
      cases hpair
      exact hpost

theorem offset_drop (input : Input) (count : Nat) :
    (input.drop count).position.offset = input.position.offset + min count input.rest.length := by
  induction count generalizing input with
  | zero => simp [Input.drop]
  | succ count ih =>
      rw [Input.drop, ih, Input.tail]
      split
      case h_1 hnil => simp [hnil]
      case h_2 c rest hcons =>
        simp only [Position.after, hcons, List.length_cons]
        omega

/-- Nothing follows a rejection. -/
@[spec]
theorem reject_spec {α : Type} :
    ⦃fun _ => ⌜True⌝⦄ (reject : Parse α) ⦃⇓? _ _ => ⌜False⌝⦄ := by
  intro state _
  exact wp_iff.2 fun result after hstep => by cases hstep

/-- The text of a leaf is what is left of the text where it begins, up to where it ends. -/
theorem text_leaf {source : List Char} {kind : Kind} {isNamed : Bool} {input : Input} {count : Nat}
    (hrest : input.rest = source.drop input.position.offset) :
    (Node.leaf kind isNamed input (input.drop count)).text source = input.rest.take count := by
  simp only [Node.text, Node.leaf, Node.label, offset_drop, ← hrest, Nat.add_sub_cancel_left]
  exact List.take_eq_take_min.symm

/-- A symbol is told by the text where the parser stands, and it moves nothing. -/
theorem atSymbol_eq (text : String) (state : ParserState) :
    ∃ answer, atSymbol text state = .ok (answer, state) ∧
      (answer = true → text.toList <+: state.input.rest) := by
  simp only [atSymbol, bind, StateT.bind, get, getThe, MonadStateOf.get, StateT.get, pure,
    Except.pure, Except.bind]
  cases state.next with
  | symbol => exact ⟨_, rfl, List.isPrefixOf_iff_prefix.1⟩
  | _ => exact ⟨_, rfl, fun hanswer => absurd hanswer Bool.false_ne_true⟩

namespace Reading

/-- A parser is in order after what has been read. -/
structure Holds (reading : Reading) (state : ParserState) : Prop where
  input : reading.Reaches state.input
  literal : ∀ stop, state.next = .stringStart stop →
    BeginsLiteral reading.source state.input stop
  word : ∀ letters, state.next = .word letters → letters <+: state.input.rest ∧ IsWord letters
  isTrivia : ∀ node ∈ state.trivia, node.isTrivia = true
  trivia : AreFormed reading.source state.trivia

/-- A step that begins in order ends in order, and what it yields is as it should be. -/
abbrev Keeps {α : Type} (reading : Reading) (step : Parse α) (what : α → Prop) : Prop :=
  ⦃fun state => ⌜reading.Holds state⌝⦄ step ⦃⇓? result state => ⌜reading.Holds state ∧ what result⌝⦄

variable {α : Type} [reading : Reading] {what : α → Prop} {step : Parse α}

theorem keeps_iff : reading.Keeps step what ↔ ∀ state result after, reading.Holds state →
    step state = .ok (result, after) → reading.Holds after ∧ what result := by
  constructor
  · intro hkeeps state result after hholds hstep
    exact wp_iff.1 (hkeeps state hholds) result after hstep
  · intro hkeeps state hholds
    exact wp_iff.2 fun result after hstep => hkeeps state result after hholds hstep

/-- Less may be said of what a step yields. -/
theorem Keeps.imp {less : α → Prop} (hkeeps : reading.Keeps step what)
    (hless : ∀ result, what result → less result) : reading.Keeps step less := by
  rw [keeps_iff] at hkeeps ⊢
  intro state result after hholds hstep
  exact (hkeeps state result after hholds hstep).imp_right (hless result)

/-! ## The next token -/

/-- Wherever the next token is read, the parser is in order before it. -/
theorem holds_readToken {expected : Expected} {layout : Layout} {limit bound : Nat}
    {trivia : List Node} {input : Input} (hreaches : reading.Reaches input)
    (htrivia : ∀ node ∈ trivia, node.isTrivia = true) (hformed : AreFormed reading.source trivia) :
    reading.Holds (readToken expected layout limit bound trivia input) := by
  induction bound generalizing trivia input with
  | zero => exact ⟨hreaches, nofun, nofun, htrivia, hformed⟩
  | succ bound ih =>
      rw [readToken]
      split
      case h_1 token start stop after hscan =>
        obtain ⟨hstart, hbegins⟩ := hreaches.scan hscan
        refine ⟨hstart, fun literal hliteral => ?_, fun letters hword => ?_, htrivia, hformed⟩
        · cases token with
          | stringStart =>
              cases hliteral
              exact hbegins rfl
          | newline | indent | dedent => cases hliteral
        · cases token <;> cases hword
      case h_2 =>
        have hgap := hreaches.dropWhile isTokenGap
        dsimp only
        split
        · exact ⟨hgap, nofun, nofun, htrivia, hformed⟩
        · rename_i c rest hcons
          split
          · refine ih (hgap.dropWhile _) (List.forall_mem_cons.2 ⟨rfl, htrivia⟩) ?_
            exact areFormed_cons.2 ⟨areFormed_leaf rfl, hformed⟩
          · split
            · refine ih (hgap.drop _) (List.forall_mem_cons.2 ⟨rfl, htrivia⟩) ?_
              exact areFormed_cons.2 ⟨areFormed_leaf rfl, hformed⟩
            · split
              case isTrue hstart =>
                refine ⟨hgap, nofun, fun letters hword => ?_, htrivia, hformed⟩
                cases hword
                refine ⟨?_, isWord_cons_takeWhile hstart rest⟩
                rw [hcons]
                exact List.cons_prefix_cons.2 ⟨rfl, List.takeWhile_prefix _⟩
              case isFalse => exact ⟨hgap, nofun, nofun, htrivia, hformed⟩

/-! ## Looking at the next token -/

theorem keeps_reject : reading.Keeps (reject : Parse α) what := by
  rw [keeps_iff]
  intro state result after hholds hstep
  cases hstep

/-- Where one of two steps is taken, what both yield is yielded. -/
@[spec]
theorem keeps_orElse {first second : Parse (List Node)}
    (hfirst : reading.Keeps first (AreFormed reading.source))
    (hsecond : reading.Keeps second (AreFormed reading.source)) :
    reading.Keeps (orElse first second) (AreFormed reading.source) := by
  rw [keeps_iff] at hfirst hsecond ⊢
  intro state result after hholds hstep
  rw [orElse] at hstep
  split at hstep
  case h_1 hok =>
    cases hstep
    exact hfirst state result after hholds hok
  case h_2 => exact hsecond state result after hholds hstep

@[spec]
theorem keeps_lookingAt (condition : Parse Bool) :
    reading.Keeps (lookingAt condition) fun _ => True := by
  rw [keeps_iff]
  intro state result after hholds hstep
  rw [lookingAt] at hstep
  split at hstep
  all_goals
    cases hstep
    exact ⟨hholds, trivial⟩

@[spec]
theorem keeps_atWord (word : String) : reading.Keeps (atWord word) fun _ => True := by
  mvcgen [atWord]

@[spec]
theorem keeps_atAnyWord (words : List String) : reading.Keeps (atAnyWord words) fun _ => True := by
  rw [atAnyWord]
  induction words with
  | nil => mvcgen [List.anyM]
  | cons word words ih =>
      mvcgen [List.anyM, ih]
      all_goals grind

@[spec]
theorem keeps_atSymbol (symbol : String) : reading.Keeps (atSymbol symbol) fun _ => True := by
  mvcgen [atSymbol]

@[spec]
theorem keeps_atBareSymbol (symbol : String) :
    reading.Keeps (atBareSymbol symbol) fun _ => True := by
  mvcgen [atBareSymbol]

@[spec]
theorem keeps_atNewline : reading.Keeps atNewline fun _ => True := by
  mvcgen [atNewline]

@[spec]
theorem keeps_atIndent : reading.Keeps atIndent fun _ => True := by
  mvcgen [atIndent]

@[spec]
theorem keeps_atDedent : reading.Keeps atDedent fun _ => True := by
  mvcgen [atDedent]

@[spec]
theorem keeps_atString : reading.Keeps atString fun _ => True := by
  mvcgen [atString]

@[spec]
theorem keeps_atEnd : reading.Keeps atEnd fun _ => True := by
  mvcgen [atEnd]

@[spec]
theorem keeps_atOperand (keywords : List String) :
    reading.Keeps (atOperand keywords) fun _ => True := by
  mvcgen [atOperand]

/-! ## Going on behind a token -/

theorem Holds.areFormed_trivia {state : ParserState} (hholds : reading.Holds state) :
    AreFormed reading.source state.trivia.reverse :=
  hholds.trivia.of_subset fun _ => List.mem_reverse.1

theorem Holds.partsOf_trivia {state : ParserState} (hholds : reading.Holds state) :
    partsOf state.trivia.reverse = [] :=
  partsOf_of_isTrivia fun node hnode => hholds.isTrivia node (List.mem_reverse.1 hnode)

section

variable {kind : Kind} {isNamed : Bool} {stop : Input} {expected : Expected}
  {state after : ParserState} {nodes : List Node}

/-- Behind a token, the parser stands before the next one. -/
theorem holds_of_consumeTo (hstop : reading.Reaches stop)
    (hstep : consumeTo kind isNamed stop expected state = .ok (nodes, after)) :
    reading.Holds after := by
  cases hstep
  exact holds_readToken hstop nofun areFormed_nil

theorem parts_of_consumeTo (hplain : kind.isPlain = true) (hkind : kind.isSubstantial = true)
    (hholds : reading.Holds state)
    (hstep : consumeTo kind isNamed stop expected state = .ok (nodes, after)) :
    AreFormed reading.source nodes ∧ partsOf nodes = [.leaf kind isNamed state.input stop] := by
  cases hstep
  constructor
  · exact areFormed_append.2 ⟨hholds.areFormed_trivia, areFormed_leaf hplain⟩
  · rw [partsOf_append, hholds.partsOf_trivia, List.nil_append]
    exact partsOf_singleton (Node.isTrivia_of_isSubstantial hkind)

end

/-- A token is formed, and it is a construct if it is named. -/
@[spec]
theorem keeps_consume {kind : Kind} {isNamed : Bool} {length : Nat} {expected : Expected} :
    reading.Keeps (consume kind isNamed length expected) fun nodes =>
      kind.isPlain = true → kind.isSubstantial = true →
        AreFormed reading.source nodes ∧ HasParts nodes ∧ (isNamed = true → IsSole nodes) := by
  rw [keeps_iff]
  intro state nodes after hholds hstep
  have hreaches := hholds.input.drop length
  refine ⟨holds_of_consumeTo hreaches hstep, fun hplain hkind => ?_⟩
  obtain ⟨hformed, hparts⟩ := parts_of_consumeTo hplain hkind hholds hstep
  refine ⟨hformed, by simp [HasParts, hparts], fun hnamed => ⟨_, hparts, ?_⟩⟩
  show (isNamed && !Node.isTrivia _) = true
  rw [hnamed, Node.isTrivia_of_isSubstantial (by exact hkind)]
  rfl

@[spec]
theorem keeps_consumeLayout {expected : Expected} :
    reading.Keeps (consumeLayout expected) (AreFormed reading.source) := by
  rw [keeps_iff]
  intro state nodes after hholds hstep
  cases hstep
  exact ⟨holds_readToken hholds.input hholds.isTrivia hholds.trivia, areFormed_nil⟩

omit reading in
/-- Where a word is read, it comes next. -/
theorem exists_word_of_consumeWord {kind : Kind} {isNamed : Bool} {expected : Expected}
    {state after : ParserState} {nodes : List Node}
    (hstep : consumeWord kind isNamed expected state = .ok (nodes, after)) :
    ∃ letters, state.next = .word letters ∧
      consume kind isNamed letters.length expected state = .ok (nodes, after) := by
  obtain ⟨input, layout, next, trivia, limit⟩ := state
  cases next with
  | word letters => exact ⟨letters, rfl, hstep⟩
  | _ => cases hstep

/-- What is left of a word ends in its letters. -/
theorem endsInWord_of_consume {kind : Kind} {isNamed : Bool} {letters : List Char}
    {expected : Expected} {state after : ParserState} {nodes : List Node}
    (hholds : reading.Holds state) (hnext : state.next = .word letters)
    (hstep : consume kind isNamed letters.length expected state = .ok (nodes, after)) :
    EndsInWord reading.source nodes := by
  obtain ⟨hletters, hword⟩ := hholds.word letters hnext
  cases hstep
  refine ⟨_, List.getLast?_concat, ?_⟩
  rwa [text_leaf hholds.input.rest, ← List.prefix_iff_eq_take.1 hletters]

@[spec]
theorem keeps_consumeWord {kind : Kind} {isNamed : Bool} {expected : Expected} :
    reading.Keeps (consumeWord kind isNamed expected) fun nodes =>
      kind.isPlain = true → kind.isSubstantial = true →
        AreFormed reading.source nodes ∧ HasParts nodes ∧ (isNamed = true → IsSole nodes) ∧
          EndsInWord reading.source nodes := by
  rw [keeps_iff]
  intro state nodes after hholds hstep
  obtain ⟨letters, hnext, hstep⟩ := exists_word_of_consumeWord hstep
  obtain ⟨hafter, hyields⟩ := keeps_iff.1 keeps_consume state nodes after hholds hstep
  refine ⟨hafter, fun hplain hkind => ?_⟩
  obtain ⟨hformed, hparts, hsole⟩ := hyields hplain hkind
  exact ⟨hformed, hparts, hsole, endsInWord_of_consume hholds hnext hstep⟩

@[spec]
theorem keeps_identifier {expected : Expected} :
    reading.Keeps (identifier expected) fun nodes =>
      AreFormed reading.source nodes ∧ IsSole nodes ∧ EndsInWord reading.source nodes := by
  mvcgen [identifier]
  all_goals grind

@[spec]
theorem keeps_keyword {word : String} {expected : Expected} :
    reading.Keeps (keyword word expected) fun nodes =>
      AreFormed reading.source nodes ∧ HasParts nodes := by
  mvcgen [keyword]
  all_goals grind

@[spec]
theorem keeps_newline {expected : Expected} :
    reading.Keeps (newline expected) (AreFormed reading.source) := by
  mvcgen [newline]
  all_goals grind

/-! ## Symbols -/

/-- A symbol is read where it stands, and leaves a token that is written so. -/
@[spec]
theorem keeps_symbol {text : String} {expected : Expected} :
    reading.Keeps (symbol text expected) fun nodes =>
      AreFormed reading.source nodes ∧ IsSoleToken reading.source text nodes := by
  rw [keeps_iff]
  intro state nodes after hholds hstep
  obtain ⟨answer, hanswer, hsymbol⟩ := atSymbol_eq text state
  rw [symbol] at hstep
  have hstep : (if answer = true then consume .other false text.length expected else reject) state =
      .ok (nodes, after) := by
    rw [← hstep]
    show _ = (atSymbol text state).bind _
    rw [hanswer]
    rfl
  cases answer with
  | false => cases hstep
  | true =>
      have hreaches := hholds.input.drop text.length
      obtain ⟨hformed, hparts⟩ := parts_of_consumeTo rfl rfl hholds hstep
      refine ⟨holds_of_consumeTo hreaches hstep, hformed, _, hparts, rfl, ?_⟩
      rw [text_leaf hholds.input.rest, ← String.length_toList]
      exact (List.prefix_iff_eq_take.1 (hsymbol rfl)).symm

/-! ## Repetition -/

/-- What holds of nothing, and of two stretches of nodes together if it holds of each, holds of what
is repeated. -/
theorem keeps_repeated {what : List Node → Prop} {step : Parse (Option (List Node))}
    (hnil : what []) (happend : ∀ first second, what first → what second → what (first ++ second))
    (hstep : reading.Keeps step fun nodes? => ∀ nodes, nodes? = some nodes → what nodes)
    (bound : Nat) : reading.Keeps (repeated step bound) what := by
  induction bound with
  | zero => exact keeps_reject
  | succ bound ih =>
      mvcgen [repeated, hstep, ih]
      all_goals grind

theorem keeps_repeated_areFormed {step : Parse (Option (List Node))}
    (hstep : reading.Keeps step fun nodes? =>
      ∀ nodes, nodes? = some nodes → AreFormed reading.source nodes) (bound : Nat) :
    reading.Keeps (repeated step bound) (AreFormed reading.source) :=
  keeps_repeated areFormed_nil (fun _ _ hfirst hsecond => areFormed_append.2 ⟨hfirst, hsecond⟩)
    hstep bound

section

variable {begins : Parse Bool} {element : Parse (List Node)}

theorem keeps_moreElements (hbegins : reading.Keeps begins fun _ => True)
    (helement : reading.Keeps element (AreFormed reading.source)) (afterComma : Expected)
    (bound : Nat) :
    reading.Keeps (moreElements begins afterComma element bound) (AreFormed reading.source) := by
  induction bound with
  | zero => exact keeps_reject
  | succ bound ih =>
      mvcgen [moreElements, hbegins, helement, ih]
      all_goals grind

/-- Where each element is one construct, the elements are values behind commas. -/
theorem keeps_moreElements_isContinuation (hbegins : reading.Keeps begins fun _ => True)
    (helement : reading.Keeps element fun nodes =>
      AreFormed reading.source nodes ∧ IsSole nodes) (afterComma : Expected) (bound : Nat) :
    reading.Keeps (moreElements begins afterComma element bound) fun nodes =>
      AreFormed reading.source nodes ∧ IsContinuation reading.source (partsOf nodes) := by
  induction bound with
  | zero => exact keeps_reject
  | succ bound ih =>
      mvcgen [moreElements, hbegins, helement, ih]
      all_goals
        grind [IsContinuation.nil, IsSoleToken.isContinuation, IsSoleToken.isContinuation_append]

end

end Reading

end Untested.Python
