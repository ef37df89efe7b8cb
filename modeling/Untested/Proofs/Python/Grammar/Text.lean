/-
# What every node of a syntax tree looks like

The rules are tied together by induction on how deeply a text may nest: if the rules of one depth
yield what they should, so do the productions that are given them, and those are the rules of the
next depth.
-/

import Untested.Python.Source
import Untested.Proofs.Python.Grammar.Statement

open Std.Do

set_option mvcgen.warning false

namespace Untested.Python

namespace Reading

variable [reading : Reading]

/-- A step of the rules of the next depth is the production of the rule. -/
theorem keeps_rulesWithin_succ {depth : Nat}
    (hrules : AreLawful reading.source (rulesWithin depth)) (rule : Rule) :
    reading.Keeps (rulesWithin (depth + 1) rule) fun nodes => rule.Yields reading.source nodes := by
  cases rule with
  | expression context => exact keeps_expression hrules depth context
  | operand context => exact keeps_operand hrules depth context
  | target context => exact (keeps_target hrules depth context).imp fun _ => And.left
  | type context constrained => exact keeps_typeExpression hrules depth context constrained
  | yield context => exact keeps_yieldExpression hrules depth context
  | value context => exact (keeps_valueOrAssignment hrules depth context).imp fun _ => And.left
  | format => exact keeps_formatSpecifier hrules depth
  | pattern context => exact keeps_casePattern hrules depth context
  | suite follow => exact keeps_suite hrules depth follow
  | statement follow => exact keeps_statement hrules depth follow

omit reading in
theorem areLawful_rulesWithin (source : List Char) (depth : Nat) :
    AreLawful source (rulesWithin depth) := by
  induction depth with
  | zero => exact fun passed rule => @keeps_reject _ ⟨source, passed⟩ _
  | succ depth ih => exact fun passed rule => @keeps_rulesWithin_succ ⟨source, passed⟩ depth ih rule

theorem keeps_topLevelStatements {rules : Rules} (hrules : AreLawful reading.source rules)
    (bound : Nat) :
    reading.Keeps (topLevelStatements rules bound) (AreFormed reading.source) := by
  induction bound with
  | zero => exact keeps_reject
  | succ bound ih =>
      have hrule := hrules.keeps
      mvcgen [topLevelStatements, topLevelStatement, hrule, ih]
        with grind -linarith [→ Holds.areFormed_trivia]

omit reading in
/-- A text begins where it says, with a byte order mark or without. -/
theorem reaches_start (source : List Char) : Reaches ⟨source, 0⟩ (.start source) := by
  have hreaches : Reaches ⟨source, 0⟩ { rest := source } := ⟨rfl, Nat.le_refl 0⟩
  rw [Input.start]
  split
  · exact hreaches.tail
  · exact hreaches

omit reading in
theorem holds_start (source : List Char) : Holds ⟨source, 0⟩ (.start source) :=
  @holds_readToken ⟨source, 0⟩ _ _ _ _ _ _ (reaches_start source) nofun areFormed_nil

omit reading in
/-- The statements of a text are formed, since the parser is in order at its beginning. -/
theorem areFormed_of_topLevelStatements {source : List Char} {depth bound : Nat}
    {children : List Node} {after : ParserState}
    (hrun : topLevelStatements (rulesWithin depth) bound (.start source) = .ok (children, after)) :
    AreFormed source children := by
  have hkeeps := @keeps_topLevelStatements ⟨source, 0⟩ (rulesWithin depth)
    (areLawful_rulesWithin source depth) bound
  exact (@keeps_iff _ ⟨source, 0⟩ _ _).1 hkeeps _ _ _ (holds_start source) hrun |>.2

end Reading

/-- The node in place of a malformed text is a plain one and has nothing inside. -/
theorem areFormed_malformedNode (source : List Char) (place : Position) :
    AreFormed source [malformedNode source place] := by
  rw [malformedNode]
  split
  case h_1 repair _ =>
    rw [Repair.node]
    split
    · exact areFormed_singleton.2 ⟨.of_isPlain rfl rfl, areFormed_nil⟩
    · exact areFormed_singleton.2 ⟨.of_isPlain rfl rfl, areFormed_nil⟩
  case h_2 => exact areFormed_singleton.2 ⟨.of_isPlain rfl rfl, areFormed_nil⟩

/-- Every node of a syntax tree looks as its kind wants it to. -/
theorem areFormed_syntaxTree (source : List Char) : AreFormed source [syntaxTree source] := by
  rw [syntaxTree]
  dsimp only
  split
  case h_1 children after hrun =>
    exact areFormed_singleton.2 ⟨.of_isPlain rfl rfl,
      Reading.areFormed_of_topLevelStatements hrun⟩
  case h_2 place _ =>
    exact areFormed_singleton.2 ⟨.of_isPlain rfl rfl, areFormed_malformedNode source place⟩

end Untested.Python
