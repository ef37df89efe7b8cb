/-
# Which statements are documentation

A text at the beginning of a body documents its function and is no part of what runs.  Whether a
statement is such a text is decided by its syntax tree, and there by the constructs alone: the
commas between values are mere tokens, so one behind a single value goes unnoticed.
-/

import Untested.Proofs.Python.Grammar.Text

namespace Untested.Python

/-! ## Literals -/

/-- A literal of plain text: none of its letters makes it formatted or bytes. -/
def IsPlain (literal : List Char) : Prop :=
  ∃ letters mark, OpensWith literal letters mark ∧ mark ≠ '\x60' ∧
    ∀ c ∈ letters, c.toLower ≠ 'f' ∧ c.toLower ≠ 'b'

/-- An expression between backquotes, which older sources have and which is computed when it is
reached. -/
def IsBackquoted (literal : List Char) : Prop :=
  ∃ letters, OpensWith literal letters '\x60'

/-- A literal that may be taken for plain text. -/
def LooksPlain (literal : List Char) : Prop :=
  IsPlain literal ∨ IsBackquoted literal

section

variable {literal letters : List Char} {mark : Char}

theorem isQuote_eq_false {c : Char} (hletter : isLiteralLetter c = true) :
    literalLetters.isQuote c = false := by
  by_contra hquote
  rw [Bool.not_eq_false, literalLetters.isQuote, Bool.or_eq_true, decide_eq_true_eq,
    decide_eq_true_eq] at hquote
  rcases hquote with rfl | rfl
  · exact absurd hletter (by decide)
  · exact absurd hletter (by decide)

/-- The letters of a literal are found in front of its first quotation mark. -/
theorem literalLetters_eq (hopens : OpensWith literal letters mark) (hmark : mark ≠ '\x60') :
    literalLetters literal = letters := by
  obtain ⟨rest, rfl⟩ := hopens.opening
  have hquote : literalLetters.isQuote mark = true := by
    have hopening := hopens.mark
    rw [Layout.opensString, Bool.or_eq_true, decide_eq_true_eq] at hopening
    exact hopening.resolve_right hmark
  have hletters : ∀ c ∈ letters, (!literalLetters.isQuote c) = true := fun c hc => by
    rw [isQuote_eq_false (hopens.letters c hc)]
    rfl
  rw [literalLetters, if_pos (by simp [hquote]), List.append_assoc,
    List.takeWhile_append_of_pos hletters, List.singleton_append,
    List.takeWhile_cons_of_neg (by simp [hquote]), List.append_nil]

theorem ofLiteral_eq_text_iff (hopens : OpensWith literal letters mark) (hmark : mark ≠ '\x60') :
    Value.ofLiteral literal = .text ↔ ∀ c ∈ letters, c.toLower ≠ 'f' ∧ c.toLower ≠ 'b' := by
  rw [Value.ofLiteral, literalLetters_eq hopens hmark]
  split
  case isTrue hformatted =>
    rw [List.contains_iff_mem, List.mem_map] at hformatted
    obtain ⟨c, hc, hlower⟩ := hformatted
    exact iff_of_false nofun fun hall => (hall c hc).1 hlower
  case isFalse hformatted =>
    rw [List.contains_iff_mem, List.mem_map] at hformatted
    split
    case isTrue hbytes =>
      rw [List.contains_iff_mem, List.mem_map] at hbytes
      obtain ⟨c, hc, hlower⟩ := hbytes
      exact iff_of_false nofun fun hall => (hall c hc).2 hlower
    case isFalse hbytes =>
      rw [List.contains_iff_mem, List.mem_map] at hbytes
      exact iff_of_true rfl fun c hc =>
        ⟨fun hlower => hformatted ⟨c, hc, hlower⟩, fun hlower => hbytes ⟨c, hc, hlower⟩⟩

theorem IsPlain.ofLiteral_eq_text (hplain : IsPlain literal) : Value.ofLiteral literal = .text := by
  obtain ⟨letters, mark, hopens, hmark, hletters⟩ := hplain
  exact (ofLiteral_eq_text_iff hopens hmark).2 hletters

/-- What is taken for plain text is that, or it stands between backquotes. -/
theorem looksPlain (hopens : ∃ letters mark, OpensWith literal letters mark)
    (htext : Value.ofLiteral literal = .text) : LooksPlain literal := by
  obtain ⟨letters, mark, hopens⟩ := hopens
  by_cases hmark : mark = '\x60'
  · exact .inr ⟨letters, hmark ▸ hopens⟩
  · exact .inl ⟨letters, mark, hopens, hmark, (ofLiteral_eq_text_iff hopens hmark).1 htext⟩

end

/-! ## Values -/

section

variable {source : List Char} {node : Node}

/-- A value is one or more adjacent literals of some sort, in any number of parentheses. -/
inductive Node.IsMadeOf (source : List Char) (what : List Char → Prop) : Node → Prop where
  | literal {node : Node} : node.kind = .string → what (node.text source) →
      IsMadeOf source what node
  | literals {node : Node} : node.kind = .concatenatedString → node.parts ≠ [] →
      (∀ part ∈ node.parts, part.kind = .string ∧ what (part.text source)) →
        IsMadeOf source what node
  | parenthesized {node left value right : Node} : node.kind = .parenthesized →
      node.parts = [left, value, right] → left.IsToken source "(" → right.IsToken source ")" →
        IsMadeOf source what value → IsMadeOf source what node

/-- The constructs among some nodes are the parts that are no mere tokens. -/
theorem filter_isSignificant (nodes : List Node) :
    nodes.filter Node.isSignificant = (partsOf nodes).filter fun node => node.label.isNamed := by
  rw [partsOf, List.filter_filter]
  rfl

theorem valuesAmong_eq (source : List Char) (nodes : List Node) :
    valuesAmong source nodes = (nodes.filter Node.isSignificant).map (Node.value source) := by
  induction nodes with
  | nil => rfl
  | cons node rest ih =>
      rw [valuesAmong]
      split
      case isTrue hsignificant => rw [List.filter_cons_of_pos hsignificant, List.map_cons, ih]
      case isFalse hsignificant => rw [List.filter_cons_of_neg hsignificant, ih]

theorem isNamed_of_isSignificant (hsignificant : node.isSignificant = true) :
    node.label.isNamed = true :=
  ((Bool.and_eq_true _ _).mp hsignificant).1

/-- The value in parentheses is the only one there. -/
theorem valuesAmong_parentheses {nodes : List Node} {left value right : Node}
    (hparts : partsOf nodes = [left, value, right]) (hleft : left.IsToken source "(")
    (hvalue : value.isSignificant = true) (hright : right.IsToken source ")") :
    valuesAmong source nodes = [value.value source] := by
  rw [valuesAmong_eq, filter_isSignificant, hparts]
  simp [hleft.isNamed, hright.isNamed, isNamed_of_isSignificant hvalue]

/-- Adjacent literals are all among the values. -/
theorem valuesAmong_literals {nodes : List Node}
    (hparts : ∀ part ∈ partsOf nodes, part.isSignificant = true) :
    valuesAmong source nodes = (partsOf nodes).map (Node.value source) := by
  rw [valuesAmong_eq, filter_isSignificant, List.filter_eq_self.2]
  exact fun part hpart => isNamed_of_isSignificant (hparts part hpart)

/-- Adjacent literals are plain text if each of them is. -/
theorem Value.ofParts_eq_text_iff {values : List Value} :
    Value.ofParts values = .text ↔ ∀ value ∈ values, value = .text := by
  rw [ofParts]
  constructor
  · intro htext
    split at htext
    case isTrue => cases htext
    case isFalse =>
      split at htext
      case isTrue => cases htext
      case isFalse =>
        split at htext
        case isTrue hall => simpa using hall
        case isFalse => cases htext
  · intro hall
    have hformatted : ¬values.contains .formatted = true := fun hcontains =>
      nomatch hall _ (List.contains_iff_mem.1 hcontains)
    have hbytes : ¬(!values.isEmpty && values.all fun value => value = .bytes) = true := by
      cases values with
      | nil => nofun
      | cons value rest => simp [hall value List.mem_cons_self]
    rw [if_neg hformatted, if_neg hbytes, if_pos (by simpa using hall)]

theorem Node.value_eq (source : List Char) (node : Node) : node.value source =
    match node.kind with
    | .parenthesized => .ofSole (valuesAmong source node.children)
    | .string => .ofLiteral (node.text source)
    | .concatenatedString => .ofParts (valuesAmong source node.children)
    | _ => .other := by
  cases node
  rw [Node.value]
  rfl

theorem Node.mem_children_of_mem_parts {part : Node} (hpart : part ∈ node.parts) :
    part ∈ node.children :=
  (List.mem_filter.1 hpart).1

/-- What is made of plain literals is taken for plain text. -/
theorem Node.IsMadeOf.value_eq_text (hmade : node.IsMadeOf source IsPlain)
    (hformed : AreFormed source [node]) : node.value source = .text := by
  induction hmade with
  | literal hkind hplain =>
      rw [value_eq, hkind]
      exact hplain.ofLiteral_eq_text
  | literals hkind hparts hall =>
      obtain ⟨-, hsignificant⟩ := (areFormed_singleton.1 hformed).1.literals hkind
      rw [value_eq, hkind]
      dsimp only
      rw [valuesAmong_literals fun part hpart => (hsignificant part hpart).2,
        Value.ofParts_eq_text_iff, List.forall_mem_map]
      intro part hpart
      rw [value_eq, (hall part hpart).1]
      exact (hall part hpart).2.ofLiteral_eq_text
  | @parenthesized node left value right hkind hparts hleft hright _ ih =>
      obtain ⟨hself, hchildren⟩ := areFormed_singleton.1 hformed
      obtain ⟨_, _, _, hothers, _, hvalue, _⟩ := hself.parenthesized hkind
      rw [hparts, List.cons.injEq, List.cons.injEq] at hothers
      obtain ⟨-, rfl, -⟩ := hothers
      rw [value_eq, hkind]
      dsimp only
      rw [valuesAmong_parentheses hparts hleft hvalue hright]
      exact ih (hchildren.of_mem (mem_children_of_mem_parts (hparts ▸ by simp)))

/-- What is taken for plain text is made of literals that are. -/
theorem Node.isMadeOf_of_value_eq_text (node : Node) (hformed : AreFormed source [node])
    (htext : node.value source = .text) :
    node.IsMadeOf source LooksPlain := by
  induction node using Node.forall_of_children with
  | step node ih =>
      obtain ⟨hself, hchildren⟩ := areFormed_singleton.1 hformed
      rw [value_eq] at htext
      split at htext
      case h_1 hkind =>
        obtain ⟨left, value, right, hparts, hleft, hvalue, hright⟩ := hself.parenthesized hkind
        rw [valuesAmong_parentheses hparts hleft hvalue hright] at htext
        have hmem : value ∈ node.children := mem_children_of_mem_parts (hparts ▸ by simp)
        exact .parenthesized hkind hparts hleft hright (ih value hmem (hchildren.of_mem hmem) htext)
      case h_2 hkind =>
        exact .literal hkind (looksPlain (hself.literal hkind) htext)
      case h_3 hkind =>
        obtain ⟨hparts, hall⟩ := hself.literals hkind
        rw [valuesAmong_literals fun part hpart => (hall part hpart).2,
          Value.ofParts_eq_text_iff, List.forall_mem_map] at htext
        refine .literals hkind hparts fun part hpart => ⟨(hall part hpart).1, ?_⟩
        have hpartFormed := hchildren.of_mem (mem_children_of_mem_parts hpart)
        have hvalue := htext part hpart
        rw [value_eq, (hall part hpart).1] at hvalue
        exact looksPlain
          ((areFormed_singleton.1 hpartFormed).1.literal (hall part hpart).1) hvalue
      case h_4 => cases htext

/-! ## Statements -/

/-- The statement is a single value, made of literals of some sort. -/
def Node.IsStatementOf (source : List Char) (what : List Char → Prop) (node : Node) : Prop :=
  node.kind = .expressionStatement ∧ ∃ value, node.parts = [value] ∧ value.IsMadeOf source what

/-- The statement is a tuple of one element, made of literals of some sort: there is a comma behind
it. -/
def Node.IsTupleOf (source : List Char) (what : List Char → Prop) (node : Node) : Prop :=
  node.kind = .expressionStatement ∧ ∃ value comma, node.parts = [value, comma] ∧
    comma.IsToken source "," ∧ value.IsMadeOf source what

/-- The statement documents the function at whose beginning it stands: its value is a plain text. -/
def Node.IsDocumentation (source : List Char) (node : Node) : Prop :=
  node.IsStatementOf source IsPlain

/-- The statement documents nothing but may be taken for documentation: there is a comma behind a
text, or some of the text stands between backquotes. -/
def Node.IsMisleading (source : List Char) (node : Node) : Prop :=
  node.IsTupleOf source LooksPlain ∨
    node.IsStatementOf source LooksPlain ∧ ¬node.IsDocumentation source

theorem isDocumentation_of_isDefinition (hdefinition : node.isDefinition = true) :
    (node.statement source).isDocumentation = false := by
  cases node with
  | mk label children =>
      rw [Node.isDefinition, Bool.or_eq_true, decide_eq_true_eq, decide_eq_true_eq, Node.kind,
        Node.label] at hdefinition
      rcases hdefinition with hkind | hkind
      · rw [Node.statement, hkind]
        rfl
      · rw [Node.statement, hkind]
        rfl

/-- Behind decorators stands a definition, which documents nothing. -/
theorem isDocumentation_definitionStatement? {nodes : List Node} (hformed : AreFormed source nodes)
    (span : LineSpan) :
    ((definitionStatement? source nodes).getD (.simple span)).isDocumentation = false := by
  rw [definitionStatement?_eq]
  cases hchild : inRole? .definition nodes with
  | none => rfl
  | some child =>
      have hrole := List.find?_some hchild
      rw [Node.hasRole, Bool.and_eq_true, decide_eq_true_eq] at hrole
      have hself := areFormed_singleton.1 (hformed.of_mem (List.mem_of_find?_eq_some hchild))
      exact isDocumentation_of_isDefinition (hself.1.definition hrole.1)

/-- Only an expression is ever taken for documentation, and nothing but its value decides. -/
theorem isDocumentation_statement_iff (hformed : AreFormed source [node]) :
    (node.statement source).isDocumentation = true ↔
      node.kind = .expressionStatement ∧
        Value.ofSole (valuesAmong source node.children) = .text := by
  cases node with
  | mk label children =>
      have hchildren : AreFormed source children := (areFormed_singleton.1 hformed).2
      rw [Node.statement, Node.kind, Node.label]
      split
      case h_1 hkind =>
        exact iff_of_false Bool.false_ne_true fun hother => by simp [hkind] at hother
      case h_2 hkind =>
        exact iff_of_false Bool.false_ne_true fun hother => by simp [hkind] at hother
      case h_3 hkind =>
        rw [isDocumentation_definitionStatement? hchildren]
        exact iff_of_false Bool.false_ne_true fun hother => by simp [hkind] at hother
      case h_4 hkind =>
        rw [Statement.isDocumentation, Value.isDocumentation, decide_eq_true_eq]
        exact ⟨fun htext => ⟨hkind, htext⟩, And.right⟩
      case h_5 hexpression =>
        refine iff_of_false ?_ fun hother => hexpression hother.1
        split
        · exact Bool.false_ne_true
        · exact Bool.false_ne_true

/-- The first value of a statement comes before those of the further parts that are constructs. -/
theorem valuesAmong_children {value : Node} {rest : List Node} (hparts : node.parts = value :: rest)
    (hvalue : value.isSignificant = true) :
    valuesAmong source node.children =
      value.value source ::
        (rest.filter fun node => node.label.isNamed).map (Node.value source) := by
  rw [Node.parts] at hparts
  rw [valuesAmong_eq, filter_isSignificant, hparts,
    List.filter_cons_of_pos (by exact isNamed_of_isSignificant hvalue), List.map_cons]

/-- A plain text is taken for documentation, and so is one with a comma behind it. -/
theorem isDocumentation_of_isPlain (hformed : AreFormed source [node])
    (hplain : node.IsDocumentation source ∨ node.IsTupleOf source IsPlain) :
    (node.statement source).isDocumentation = true := by
  obtain ⟨hself, hchildren⟩ := areFormed_singleton.1 hformed
  have hsole {value : Node} {rest : List Node} (hkind : node.kind = .expressionStatement)
      (hparts : node.parts = value :: rest) (hrest : ∀ part ∈ rest, part.label.isNamed = false)
      (hmade : value.IsMadeOf source IsPlain) : (node.statement source).isDocumentation = true := by
    obtain ⟨_, _, hothers, hvalue, -⟩ := hself.statement hkind
    rw [hparts, List.cons.injEq] at hothers
    obtain ⟨rfl, rfl⟩ := hothers
    have hmem : value ∈ node.children :=
      Node.mem_children_of_mem_parts (hparts ▸ List.mem_cons_self)
    have hnone : (rest.filter fun node => node.label.isNamed) = [] :=
      List.filter_eq_nil_iff.2 fun part hpart => by simp [hrest part hpart]
    rw [isDocumentation_statement_iff hformed, valuesAmong_children hparts hvalue, hnone]
    exact ⟨hkind, hmade.value_eq_text (hchildren.of_mem hmem)⟩
  rcases hplain with ⟨hkind, value, hparts, hmade⟩ | ⟨hkind, value, comma, hparts, hcomma, hmade⟩
  · exact hsole hkind hparts nofun hmade
  · exact hsole hkind hparts (by simp [hcomma.isNamed]) hmade

/-- What is taken for documentation is a text, perhaps with a comma behind it. -/
theorem isStatementOf_or_isTupleOf (hformed : AreFormed source [node])
    (hdocumentation : (node.statement source).isDocumentation = true) :
    node.IsStatementOf source LooksPlain ∨ node.IsTupleOf source LooksPlain := by
  obtain ⟨hself, hchildren⟩ := areFormed_singleton.1 hformed
  obtain ⟨hkind, htext⟩ := (isDocumentation_statement_iff hformed).1 hdocumentation
  obtain ⟨value, rest, hparts, hvalue, hrest⟩ := hself.statement hkind
  have hmem : value ∈ node.children :=
    Node.mem_children_of_mem_parts (hparts ▸ List.mem_cons_self)
  have hmade := value.isMadeOf_of_value_eq_text (hchildren.of_mem hmem)
  rw [valuesAmong_children hparts hvalue] at htext
  cases hrest with
  | nil => exact .inl ⟨hkind, value, hparts, hmade htext⟩
  | @comma comma hcomma =>
      rw [List.filter_cons_of_neg (by simp [hcomma.isNamed])] at htext
      exact .inr ⟨hkind, value, comma, hparts, hcomma, hmade htext⟩
  | @value comma other rest hcomma hother _ =>
      -- a second value makes it a tuple of several elements
      rw [List.filter_cons_of_neg (by simp [hcomma.isNamed]),
        List.filter_cons_of_pos (by exact isNamed_of_isSignificant hother)] at htext
      cases htext

end

/-! ## Functions -/

section

variable (source : List Char)

theorem Node.recordsAmong_sublist (node : Node) :
    (recordsAmong source node.children).Sublist (node.records source) := by
  cases hfunction : node.isFunction with
  | true =>
      rw [node.records_of_isFunction source hfunction]
      exact List.sublist_cons_self _ _
  | false =>
      rw [node.records_of_not_isFunction source hfunction]

mutual

/-- The records of a statement are among those of the functions at or below its node. -/
theorem Node.functions_statement_sublist (node : Node) :
    (node.statement source).functions.Sublist (node.records source) := by
  cases node with
  | mk label children =>
      have hchildren := (Node.mk label children).recordsAmong_sublist source
      rw [Node.statement]
      split
      case h_1 hkind =>
        have hfunction : (Node.mk label children).isFunction = true := decide_eq_true hkind
        rw [Node.records_of_isFunction source hfunction, Statement.functions]
        exact List.Sublist.cons_cons _ (functionsOfAll_bodyStatements_sublist children)
      case h_2 => exact (functionsOfAll_bodyStatements_sublist children).trans hchildren
      case h_3 => exact (functions_definitionStatement?_sublist children _).trans hchildren
      case h_4 => exact List.nil_sublist _
      case h_5 =>
        refine List.Sublist.trans ?_ hchildren
        have hblocks := functionsOfBlocks_blocksAmong_sublist children
        split
        case h_1 => exact List.nil_sublist _
        case h_2 => exact hblocks

theorem functionsOfAll_statementsAmong_sublist (nodes : List Node) :
    (functionsOfAll (statementsAmong source nodes)).Sublist (recordsAmong source nodes) := by
  cases nodes with
  | nil => exact List.nil_sublist _
  | cons node rest =>
      have hrest := functionsOfAll_statementsAmong_sublist rest
      rw [recordsAmong_cons, statementsAmong]
      split
      case isTrue =>
        rw [functionsOfAll]
        exact (node.functions_statement_sublist).append hrest
      case isFalse => exact hrest.trans (List.sublist_append_right _ _)

theorem functionsOfAll_bodyStatements_sublist (nodes : List Node) :
    (functionsOfAll (bodyStatements source nodes)).Sublist (recordsAmong source nodes) := by
  cases nodes with
  | nil => exact List.nil_sublist _
  | cons node rest =>
      cases node with
      | mk label children =>
          rw [recordsAmong_cons, bodyStatements]
          split
          case isTrue =>
            refine List.Sublist.trans (functionsOfAll_statementsAmong_sublist children) ?_
            exact ((Node.mk label children).recordsAmong_sublist source).trans
              (List.sublist_append_left _ _)
          case isFalse =>
            exact (functionsOfAll_bodyStatements_sublist rest).trans (List.sublist_append_right _ _)

theorem functions_definitionStatement?_sublist (nodes : List Node) (span : LineSpan) :
    ((definitionStatement? source nodes).getD (.simple span)).functions.Sublist
      (recordsAmong source nodes) := by
  cases nodes with
  | nil => exact List.nil_sublist _
  | cons node rest =>
      rw [recordsAmong_cons, definitionStatement?]
      split
      case isTrue =>
        exact node.functions_statement_sublist.trans (List.sublist_append_left _ _)
      case isFalse =>
        exact (functions_definitionStatement?_sublist rest span).trans
          (List.sublist_append_right _ _)

theorem functionsOfBlocks_blocksAmong_sublist (nodes : List Node) :
    (functionsOfBlocks (blocksAmong source nodes)).Sublist (recordsAmong source nodes) := by
  cases nodes with
  | nil => exact List.nil_sublist _
  | cons node rest =>
      cases node with
      | mk label children =>
          have hchildren := (Node.mk label children).recordsAmong_sublist source
          have hrest := functionsOfBlocks_blocksAmong_sublist rest
          rw [recordsAmong_cons, blocksAmong]
          split
          case isTrue => exact hrest.trans (List.sublist_append_right _ _)
          case isFalse =>
            split
            case isTrue =>
              rw [functionsOfBlocks]
              exact ((functionsOfAll_statementsAmong_sublist children).trans hchildren).append hrest
            case isFalse =>
              rw [functionsOfBlocks_append]
              exact ((functionsOfBlocks_blocksAmong_sublist children).trans hchildren).append hrest

end

/-! ## Bodies -/

/-- The lines of the statements that some nodes stand for. -/
def linesOf (nodes : List Node) : LineSet :=
  statementLines (nodes.map (Node.statement source))

variable {source : List Char}

section

variable {node first : Node} {rest : List Node}

theorem blocks_of_isFunction (hfunction : node.isFunction = true) :
    node.blocks = (inRole? .body node.children).toList := by
  rw [Node.blocks, if_pos (.inl (of_decide_eq_true hfunction))]
  rfl

/-- The statements of a function lie below it. -/
theorem mem_preorder_of_mem_statementNodes (hfunction : node.isFunction = true)
    (hfirst : first ∈ node.statementNodes) : first ∈ node.preorder := by
  rw [Node.statementNodes, blocks_of_isFunction hfunction, List.mem_flatMap] at hfirst
  obtain ⟨block, hblock, hfirst⟩ := hfirst
  have hmem : block ∈ node.children := List.mem_of_find?_eq_some (Option.mem_toList.1 hblock)
  exact Node.mem_preorder_of_mem_children hmem
    (Node.mem_preorder_of_mem_children (List.mem_filter.1 hfirst).1 first.mem_preorder_self)

theorem bodyStatements_children (hfunction : node.isFunction = true) :
    bodyStatements source node.children = node.statementNodes.map (Node.statement source) := by
  rw [bodyStatements_eq, Node.statementNodes, blocks_of_isFunction hfunction, List.map_flatMap]
  simp only [statementsAmong_eq, Node.significantChildren]

/-- The first statement of a function is left out of its body if it is taken for documentation. -/
theorem body_record (hfunction : node.isFunction = true)
    (hnodes : node.statementNodes = first :: rest) :
    (node.record source).body =
      if (first.statement source).isDocumentation = true then linesOf source rest
      else linesOf source (first :: rest) := by
  rw [Node.record, bodyStatements_children hfunction, hnodes]
  rfl

end

theorem eq_outline_of_parse {path : String} {statements : List Statement}
    (hparse : parse path source = .ok statements) :
    statements = (syntaxTree source).outline source := by
  rw [parse] at hparse
  split at hparse
  case isTrue => split at hparse <;> cases hparse
  case isFalse => exact (Except.ok.inj hparse).symm

theorem parse_eq_ok (path : String) (hfault : (syntaxTree source).hasFault = false) :
    parse path source = .ok ((syntaxTree source).outline source) := by
  rw [parse]
  exact if_neg (by simp [hfault])

/-- The records of a source file are those of functions in its tree. -/
theorem exists_function_of_parse {path : String} {statements : List Statement}
    {record : FunctionRecord} (hparse : parse path source = .ok statements)
    (hrecord : record ∈ functionsOfAll statements) :
    ∃ function ∈ (syntaxTree source).preorder, function.isFunction = true ∧
      record = function.record source := by
  rw [eq_outline_of_parse hparse, Node.outline] at hrecord
  have hmem := (functionsOfAll_statementsAmong_sublist source _).subset hrecord
  rw [recordsAmong, List.mem_map] at hmem
  obtain ⟨function, hfunction, rfl⟩ := hmem
  rw [List.mem_filter] at hfunction
  refine ⟨function, ?_, hfunction.2, rfl⟩
  rw [Node.preorder_eq]
  exact List.mem_cons_of_mem _ hfunction.1

/-- The first statement of a function does not count if it is documentation, and neither does a
text with a comma behind it.  Any other first statement counts with all of its lines, unless it is
a misleading one. -/
theorem body_of_parse {path : String} {statements : List Statement} {record : FunctionRecord}
    (hparse : parse path source = .ok statements) (hrecord : record ∈ functionsOfAll statements) :
    ∃ function ∈ (syntaxTree source).preorder,
      function.isFunction = true ∧ record = function.record source ∧
      ∀ first rest, function.statementNodes = first :: rest →
        (first.IsDocumentation source → record.body = linesOf source rest) ∧
        (first.IsTupleOf source IsPlain → record.body = linesOf source rest) ∧
        (¬first.IsDocumentation source → ¬first.IsMisleading source →
          record.body = linesOf source (first :: rest)) := by
  obtain ⟨function, hmem, hfunction, rfl⟩ := exists_function_of_parse hparse hrecord
  refine ⟨function, hmem, hfunction, rfl, fun first rest hnodes => ?_⟩
  have hfirst : first ∈ function.preorder :=
    mem_preorder_of_mem_statementNodes hfunction (hnodes ▸ List.mem_cons_self)
  have hformed : AreFormed source [first] :=
    (areFormed_syntaxTree source).of_mem_preorderAmong
      (mem_preorderAmong.2 ⟨_, List.mem_singleton_self _, Node.mem_preorder_trans hmem hfirst⟩)
  rw [body_record hfunction hnodes]
  refine ⟨fun hplain => ?_, fun htuple => ?_, fun hother hmisleading => ?_⟩
  · rw [if_pos (isDocumentation_of_isPlain hformed (.inl hplain))]
  · rw [if_pos (isDocumentation_of_isPlain hformed (.inr htuple))]
  · refine if_neg fun hdocumentation => hmisleading ?_
    rcases isStatementOf_or_isTupleOf hformed hdocumentation with hstatement | htuple
    · exact .inr ⟨hstatement, hother⟩
    · exact .inl htuple

/-- A text that Python reads as a tuple, since there is a comma behind it. -/
def tupleSource : List Char :=
  "def f():\n    \"a\",\n".toList

/-- What is made of the function: its only statement is taken for documentation. -/
def tupleRecord : FunctionRecord :=
  { name := "f", line := 1, body := ∅, isAsync := false }

theorem mem_functions_tupleSource :
    tupleRecord ∈ functionsOfAll ((syntaxTree tupleSource).outline tupleSource) := by
  decide +kernel

theorem body_of_parse_tupleSource :
    ∃ function ∈ (syntaxTree tupleSource).preorder,
      function.isFunction = true ∧ tupleRecord = function.record tupleSource ∧
      ∀ first rest, function.statementNodes = first :: rest →
        (first.IsDocumentation tupleSource → tupleRecord.body = linesOf tupleSource rest) ∧
        (first.IsTupleOf tupleSource IsPlain → tupleRecord.body = linesOf tupleSource rest) ∧
        (¬first.IsDocumentation tupleSource → ¬first.IsMisleading tupleSource →
          tupleRecord.body = linesOf tupleSource (first :: rest)) :=
  body_of_parse (parse_eq_ok "a.py" (by decide +kernel)) mem_functions_tupleSource

/-- Not every first statement that is no documentation counts. -/
theorem not_body_of_parse_unless_documentation :
    ¬∀ (path : String) (source : List Char) (statements : List Statement) (record : FunctionRecord),
      parse path source = .ok statements → record ∈ functionsOfAll statements →
      ∃ function ∈ (syntaxTree source).preorder,
        function.isFunction = true ∧ record = function.record source ∧
        ∀ first rest, function.statementNodes = first :: rest → ¬first.IsDocumentation source →
          record.body = linesOf source (first :: rest) := by
  intro hall
  obtain ⟨function, hmem, hfunction, -, hcounts⟩ :=
    hall "a.py" tupleSource _ tupleRecord (parse_eq_ok "a.py" (by decide +kernel))
      mem_functions_tupleSource
  -- the statement of the only function has a second part beside its value
  have honly : ∀ function ∈ (syntaxTree tupleSource).preorder, function.isFunction = true →
      (function.statementNodes.map fun first => first.parts.length) = [2] ∧
        linesOf tupleSource function.statementNodes ≠ ∅ := by
    decide +kernel
  obtain ⟨hparts, hlines⟩ := honly function hmem hfunction
  obtain ⟨first, hnodes, hlength⟩ := List.map_eq_singleton_iff.1 hparts
  refine hlines ?_
  rw [hnodes]
  refine (hcounts first [] hnodes ?_).symm
  rintro ⟨-, value, hvalue, -⟩
  rw [hvalue] at hlength
  cases hlength

end

end Untested.Python
