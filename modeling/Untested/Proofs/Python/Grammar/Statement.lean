/-
# What the rules for statements yield

An expression that stands as a statement is made of values with commas between them, behind
decorators stands a definition, and the name of a definition is a word.
-/

import Untested.Python.Grammar.Statement
import Untested.Proofs.Python.Grammar.Pattern

open Std.Do

set_option mvcgen.warning false

namespace Untested.Python

/-- The last of some nodes is a definition. -/
def EndsInDefinition (nodes : List Node) : Prop :=
  ∃ node, nodes.getLast? = some node ∧ node.isDefinition = true

section

variable {source : List Char} {nodes : List Node} {kind : Kind}

/-- Values that stand as a statement are formed. -/
@[grind .]
theorem areFormed_wrap_expressionStatement (hformed : AreFormed source nodes)
    (hvalues : AreValues source (partsOf nodes)) :
    AreFormed source (wrap .expressionStatement nodes) := by
  refine areFormed_wrap_of hformed fun node hkind hfield hparts _ => ?_
  constructor
  case statement =>
    rw [hparts]
    exact fun _ => hvalues
  case definition | name => exact fun hrole => by simp [hfield] at hrole
  all_goals exact fun hother => by simp [hkind] at hother

@[grind .]
theorem endsInDefinition_wrap (hkind : kind = .functionDefinition ∨ kind = .classDefinition)
    (hparts : HasParts nodes) : EndsInDefinition (wrap kind nodes) := by
  rw [wrap_eq hparts]
  refine ⟨_, List.getLast?_concat, ?_⟩
  rw [Node.isDefinition, Bool.or_eq_true, decide_eq_true_eq, decide_eq_true_eq]
  exact hkind

/-- A node may be given a role if it is what the role asks for. -/
theorem Node.areFormed_relabel {label : Label} {children : List Node} {field : Option Field}
    (hformed : AreFormed source [.mk label children])
    (hdefinition : field = some .definition → (Node.mk label children).isDefinition = true)
    (hname : field = some .name → IsWord ((Node.mk label children).text source)) :
    AreFormed source [.mk { label with field } children] := by
  rw [areFormed_singleton] at hformed ⊢
  exact ⟨hformed.1.relabel hdefinition hname, hformed.2⟩

theorem areFormed_withField {field : Field} (hformed : AreFormed source nodes)
    (hdefinition : field = .definition → EndsInDefinition nodes)
    (hname : field = .name → EndsInWord source nodes) :
    AreFormed source (withField field nodes) := by
  rw [withField]
  split
  case h_1 label children earlier hnodes =>
    have hnodes : nodes = earlier.reverse ++ [.mk label children] := by
      rw [← List.reverse_cons, ← hnodes, List.reverse_reverse]
    have hlast {node : Node} (hlast : nodes.getLast? = some node) : .mk label children = node := by
      rwa [hnodes, List.getLast?_concat, Option.some_inj] at hlast
    rw [hnodes, areFormed_append] at hformed
    refine areFormed_append.2
      ⟨hformed.1, Node.areFormed_relabel hformed.2 (fun hrole => ?_) fun hrole => ?_⟩
    · obtain ⟨node, hnode, hself⟩ := hdefinition (Option.some.inj hrole)
      rwa [hlast hnode]
    · obtain ⟨node, hnode, hself⟩ := hname (Option.some.inj hrole)
      rwa [hlast hnode]
  case h_2 => exact areFormed_nil

@[grind .]
theorem areFormed_withField_name (hformed : AreFormed source nodes)
    (hends : EndsInWord source nodes) : AreFormed source (withField .name nodes) :=
  areFormed_withField hformed nofun fun _ => hends

@[grind .]
theorem areFormed_withField_definition (hformed : AreFormed source nodes)
    (hends : EndsInDefinition nodes) : AreFormed source (withField .definition nodes) :=
  areFormed_withField hformed (fun _ => hends) nofun

/-- The block of a body may be given its role. -/
theorem areFormed_map_body (hformed : AreFormed source nodes) :
    AreFormed source (nodes.map fun node =>
      match node with
      | .mk label children =>
        if label.kind = .block then .mk { label with field := some .body } children else node) := by
  induction nodes with
  | nil => exact areFormed_nil
  | cons node nodes ih =>
      rw [areFormed_cons] at hformed
      refine areFormed_cons.2 ⟨?_, ih hformed.2⟩
      cases node with
      | mk label children =>
          dsimp only
          split
          · exact Node.areFormed_relabel hformed.1 nofun nofun
          · exact hformed.1

end

namespace Reading

variable [reading : Reading]

@[spec]
theorem keeps_symbolAmong? (symbols : List String) :
    reading.Keeps (symbolAmong? symbols) fun _ => True := by
  rw [symbolAmong?]
  induction symbols with
  | nil => mvcgen [List.findM?]
  | cons symbol symbols ih => mvcgen [List.findM?, ih] with grind -linarith

@[spec]
theorem keeps_atStatementEnd : reading.Keeps atStatementEnd fun _ => True := by
  mvcgen [atStatementEnd] with grind -linarith

@[spec]
theorem keeps_complete {statement : Parse (List Node)}
    (hstatement : reading.Keeps statement (AreFormed reading.source)) :
    reading.Keeps (complete statement) (AreFormed reading.source) := by
  mvcgen [complete, hstatement] with grind -linarith

@[spec]
theorem keeps_softKeyword (word : String) (expected : Expected) :
    reading.Keeps (softKeyword word expected) (AreFormed reading.source) := by
  mvcgen [softKeyword] with grind -linarith

@[spec]
theorem keeps_atPrintTo : reading.Keeps atPrintTo fun _ => True := by
  mvcgen [atPrintTo]

@[spec]
theorem keeps_importedName (bound : Nat) (follow : Expected) :
    reading.Keeps (importedName bound follow) (AreFormed reading.source) := by
  mvcgen [importedName] with grind -linarith

@[spec]
theorem keeps_atAWord : reading.Keeps atAWord fun _ => True := by
  mvcgen [atAWord]

@[spec]
theorem keeps_importedNames (bound : Nat) (follow : Expected) :
    reading.Keeps (importedNames bound follow) (AreFormed reading.source) := by
  mvcgen [importedNames, keeps_moreElements] with grind -linarith

@[spec]
theorem keeps_importedList (bound : Nat) :
    reading.Keeps (importedList bound) (AreFormed reading.source) := by
  mvcgen [importedList] with grind -linarith

@[spec]
theorem keeps_importStatement (bound : Nat) :
    reading.Keeps (importStatement bound) (AreFormed reading.source) := by
  mvcgen [importStatement] with grind -linarith

@[spec]
theorem keeps_importFromStatement (bound : Nat) :
    reading.Keeps (importFromStatement bound) (AreFormed reading.source) := by
  mvcgen [importFromStatement, keeps_repeated_areFormed] with grind -linarith

@[spec]
theorem keeps_declaration (bound : Nat) (word : String) :
    reading.Keeps (declaration bound word) (AreFormed reading.source) := by
  mvcgen [declaration, keeps_moreElements] with grind -linarith

@[spec]
theorem keeps_emptyNode :
    reading.Keeps (emptyNode .block) (AreFormed reading.source) := by
  mvcgen [emptyNode] with grind -linarith [areFormed_leaf]

@[spec]
theorem keeps_exceptAhead? : reading.Keeps exceptAhead? fun _ => True := by
  mvcgen [exceptAhead?]

@[spec]
theorem keeps_atAsyncStatement : reading.Keeps atAsyncStatement fun _ => True := by
  mvcgen [atAsyncStatement]

variable {rules : Rules} (hrules : AreLawful reading.source rules) (bound : Nat)

include hrules

/-! ## Simple statements -/

@[spec]
theorem keeps_valueOrAssignment (context : Context) :
    reading.Keeps (valueOrAssignment rules bound context) fun nodes =>
      AreFormed reading.source nodes ∧ AreValues reading.source (partsOf nodes) := by
  have hrule := hrules.keeps
  mvcgen [valueOrAssignment, hrule] with grind -linarith [IsSole.areValues]

@[spec]
theorem keeps_expressionStatement :
    reading.Keeps (expressionStatement rules bound) (AreFormed reading.source) := by
  mvcgen [expressionStatement] with grind -linarith

@[spec]
theorem keeps_properList (context : Context) :
    reading.Keeps (properList rules bound context) (AreFormed reading.source) := by
  have hrule := hrules.keeps
  mvcgen [properList, hrule, keeps_moreElements] with grind -linarith

@[spec]
theorem keeps_printStatement :
    reading.Keeps (printStatement rules bound) (AreFormed reading.source) := by
  have hrule := hrules.keeps
  mvcgen [printStatement, hrule] with grind -linarith

@[spec]
theorem keeps_execStatement :
    reading.Keeps (execStatement rules bound) (AreFormed reading.source) := by
  mvcgen [execStatement] with grind -linarith

@[spec]
theorem keeps_typeAlias : reading.Keeps (typeAlias rules) (AreFormed reading.source) := by
  have hrule := hrules.keeps
  mvcgen [typeAlias, hrule] with grind -linarith

@[spec]
theorem keeps_keywordWithValues (word : String) :
    reading.Keeps (keywordWithValues rules bound word) (AreFormed reading.source) := by
  mvcgen [keywordWithValues] with grind -linarith

@[spec]
theorem keeps_raiseStatement :
    reading.Keeps (raiseStatement rules bound) (AreFormed reading.source) := by
  have hrule := hrules.keeps
  mvcgen [raiseStatement, hrule] with grind -linarith

@[spec]
theorem keeps_simpleStatement :
    reading.Keeps (simpleStatement rules bound) (AreFormed reading.source) := by
  mvcgen [simpleStatement] with grind -linarith

@[spec]
theorem keeps_moreSimpleStatements :
    reading.Keeps (moreSimpleStatements rules bound) (AreFormed reading.source) := by
  induction bound with
  | zero => exact keeps_reject
  | succ bound ih => mvcgen [moreSimpleStatements, ih] with grind -linarith

@[spec]
theorem keeps_simpleStatements (follow : Expected) :
    reading.Keeps (simpleStatements rules bound follow) (AreFormed reading.source) := by
  mvcgen [simpleStatements] with grind -linarith

/-! ## Statements with clauses -/

@[spec]
theorem keeps_blockStatements :
    reading.Keeps (blockStatements rules bound) (AreFormed reading.source) := by
  induction bound with
  | zero => exact keeps_reject
  | succ bound ih =>
      have hrule := hrules.keeps
      mvcgen [blockStatements, hrule, ih] with grind -linarith

@[spec]
theorem keeps_suite (follow : Expected) :
    reading.Keeps (suite rules bound follow) (AreFormed reading.source) := by
  mvcgen [suite] with grind -linarith

@[spec]
theorem keeps_colonSuite (follow : Expected) :
    reading.Keeps (colonSuite rules follow) (AreFormed reading.source) := by
  have hrule := hrules.keeps
  mvcgen [colonSuite, hrule] with grind -linarith

@[spec]
theorem keeps_optionalClause (word : String) (follow : Expected) :
    reading.Keeps (optionalClause rules word follow) (AreFormed reading.source) := by
  mvcgen [optionalClause] with grind -linarith

@[spec]
theorem keeps_conditionClause (word : String) (follow : Expected) :
    reading.Keeps (conditionClause rules word follow) (AreFormed reading.source) := by
  have hrule := hrules.keeps
  mvcgen [conditionClause, hrule] with grind -linarith

@[spec]
theorem keeps_ifStatement (follow : Expected) :
    reading.Keeps (ifStatement rules bound follow) (AreFormed reading.source) := by
  mvcgen [ifStatement, keeps_repeated_areFormed] with grind -linarith

@[spec]
theorem keeps_whileStatement (follow : Expected) :
    reading.Keeps (whileStatement rules follow) (AreFormed reading.source) := by
  mvcgen [whileStatement] with grind -linarith

@[spec]
theorem keeps_forStatement (follow : Expected) :
    reading.Keeps (forStatement rules bound follow) (AreFormed reading.source) := by
  mvcgen [forStatement] with grind -linarith

@[spec]
theorem keeps_withStatement (follow : Expected) :
    reading.Keeps (withStatement rules bound follow) (AreFormed reading.source) := by
  mvcgen [withStatement] with grind -linarith

@[spec]
theorem keeps_exceptClause (isGroup : Bool) (follow : Expected) :
    reading.Keeps (exceptClause rules isGroup follow) (AreFormed reading.source) := by
  have hrule := hrules.keeps
  mvcgen [exceptClause, hrule] with grind -linarith

@[spec]
theorem keeps_tryStatement (follow : Expected) :
    reading.Keeps (tryStatement rules bound follow) (AreFormed reading.source) := by
  mvcgen [tryStatement, keeps_repeated_areFormed] with grind -linarith

@[spec]
theorem keeps_caseClause :
    reading.Keeps (caseClause rules bound) (AreFormed reading.source) := by
  have hrule := hrules.keeps
  mvcgen [caseClause, hrule, keeps_moreElements] with grind -linarith

@[spec]
theorem keeps_caseClauses :
    reading.Keeps (caseClauses rules bound) (AreFormed reading.source) := by
  induction bound with
  | zero => exact keeps_reject
  | succ bound ih => mvcgen [caseClauses, ih] with grind -linarith

@[spec]
theorem keeps_matchStatement (follow : Expected) :
    reading.Keeps (matchStatement rules bound follow) (AreFormed reading.source) := by
  mvcgen [matchStatement] with grind -linarith

/-! ## Definitions -/

@[spec]
theorem keeps_definedName :
    reading.Keeps (definedName rules bound) (AreFormed reading.source) := by
  mvcgen [definedName] with grind -linarith

@[spec]
theorem keeps_definitionBody (follow : Expected) :
    reading.Keeps (definitionBody rules follow) (AreFormed reading.source) := by
  mvcgen [definitionBody]
  case vc3 hbody => exact ⟨hbody.1, areFormed_map_body hbody.2⟩

@[spec]
theorem keeps_functionDefinition (follow : Expected) :
    reading.Keeps (functionDefinition rules bound follow) fun nodes =>
      AreFormed reading.source nodes ∧ HasParts nodes := by
  have hrule := hrules.keeps
  mvcgen [functionDefinition, hrule] with grind -linarith

@[spec]
theorem keeps_classArguments :
    reading.Keeps (classDefinition.classArguments rules bound) (AreFormed reading.source) := by
  mvcgen [classDefinition.classArguments, keeps_moreElements] with grind -linarith

@[spec]
theorem keeps_classDefinition (follow : Expected) :
    reading.Keeps (classDefinition rules bound follow) fun nodes =>
      AreFormed reading.source nodes ∧ EndsInDefinition nodes := by
  mvcgen [classDefinition] with grind -linarith

@[spec]
theorem keeps_asyncStatement (follow : Expected) :
    reading.Keeps (asyncStatement rules bound follow) (AreFormed reading.source) := by
  mvcgen [asyncStatement] with grind -linarith

@[spec]
theorem keeps_decoratedDefinition (follow : Expected) :
    reading.Keeps (decoratedDefinition rules bound follow) (AreFormed reading.source) := by
  have hrule := hrules.keeps
  mvcgen [decoratedDefinition, hrule, keeps_repeated_areFormed] with grind -linarith

@[spec]
theorem keeps_statement (follow : Expected) :
    reading.Keeps (statement rules bound follow) (AreFormed reading.source) := by
  mvcgen [statement] with grind -linarith

end Reading

end Untested.Python
