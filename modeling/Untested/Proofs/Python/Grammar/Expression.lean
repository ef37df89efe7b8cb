/-
# What the rules for expressions yield

An expression is one construct, whatever it is made of, and so are its operands.  That is what
makes a value in parentheses the only one there, and what tells values apart from the commas
between them.
-/

import Untested.Python.Grammar.Expression
import Untested.Proofs.Python.Grammar.StringLiteral

open Std.Do

set_option mvcgen.warning false

namespace Untested.Python

namespace Reading

section

variable [reading : Reading]

@[spec]
theorem keeps_binaryOperator : reading.Keeps binaryOperator fun nodes? =>
    ∀ nodes, nodes? = some nodes → AreFormed reading.source nodes := by
  mvcgen [binaryOperator] invariants
  · ⇓? (_, early, _) state => ⌜reading.Holds state ∧
      ∀ nodes, early = some (some nodes) → AreFormed reading.source nodes⌝
  with grind -linarith

@[spec]
theorem keeps_atComprehension : reading.Keeps atComprehension fun _ => True := by
  mvcgen [atComprehension]

end

variable [reading : Reading] {rules : Rules} (hrules : AreLawful reading.source rules) (bound : Nat)

include hrules

/-! ## Comprehensions -/

@[spec]
theorem keeps_targets : reading.Keeps (targets rules bound) (AreFormed reading.source) := by
  have hrule := hrules.keeps
  mvcgen [targets, hrule, keeps_moreElements] with grind -linarith

@[spec]
theorem keeps_comprehensionClause : reading.Keeps (comprehensionClause rules bound) fun nodes? =>
    ∀ nodes, nodes? = some nodes → AreFormed reading.source nodes := by
  have hrule := hrules.keeps
  mvcgen [comprehensionClause, hrule] with grind -linarith

@[spec]
theorem keeps_comprehension :
    reading.Keeps (comprehension rules bound) (AreFormed reading.source) :=
  keeps_repeated_areFormed (keeps_comprehensionClause hrules bound) bound

/-! ## Brackets -/

@[spec]
theorem keeps_starredElement (star : String) :
    reading.Keeps (starredElement rules star) fun nodes =>
      AreFormed reading.source nodes ∧ IsSole nodes := by
  have hrule := hrules.keeps
  mvcgen [starredElement, hrule] with grind -linarith

@[spec]
theorem keeps_element : reading.Keeps (element rules) fun nodes =>
    AreFormed reading.source nodes ∧ IsSole nodes := by
  have hrule := hrules.keeps
  mvcgen [element, hrule] with grind -linarith

@[spec]
theorem keeps_moreCollection :
    reading.Keeps (moreCollection rules bound) (AreFormed reading.source) :=
  keeps_moreElements (keeps_atOperand []) ((keeps_element hrules).imp fun _ => And.left) _ bound

@[spec]
theorem keeps_parentheses (follow : Expected) :
    reading.Keeps (parentheses rules bound follow) fun nodes =>
      AreFormed reading.source nodes ∧ IsSole nodes := by
  have hrule := hrules.keeps
  mvcgen [parentheses, hrule] with grind -linarith [areFormed_wrap_parentheses]

@[spec]
theorem keeps_brackets (follow : Expected) :
    reading.Keeps (brackets rules bound follow) fun nodes =>
      AreFormed reading.source nodes ∧ IsSole nodes := by
  have hrule := hrules.keeps
  mvcgen [brackets, hrule] with grind -linarith

@[spec]
theorem keeps_entryValue :
    reading.Keeps (entryValue rules) (AreFormed reading.source) := by
  have hrule := hrules.keeps
  mvcgen [entryValue, hrule] with grind -linarith

@[spec]
theorem keeps_entry : reading.Keeps (entry rules) (AreFormed reading.source) := by
  have hrule := hrules.keeps
  mvcgen [entry, hrule] with grind -linarith

@[spec]
theorem keeps_moreEntries :
    reading.Keeps (moreEntries rules bound) (AreFormed reading.source) := by
  mvcgen [moreEntries, keeps_moreElements] with grind -linarith

@[spec]
theorem keeps_braces (follow : Expected) :
    reading.Keeps (braces rules bound follow) fun nodes =>
      AreFormed reading.source nodes ∧ IsSole nodes := by
  have hrule := hrules.keeps
  mvcgen [braces, hrule] with grind -linarith

@[spec]
theorem keeps_argument : reading.Keeps (argument rules) (AreFormed reading.source) := by
  have hrule := hrules.keeps
  mvcgen [argument, hrule] with grind -linarith

@[spec]
theorem keeps_arguments (follow : Expected) :
    reading.Keeps (arguments rules bound follow) (AreFormed reading.source) := by
  mvcgen [arguments, keeps_moreElements] with grind -linarith

@[spec]
theorem keeps_sliceBound : reading.Keeps (sliceBound rules) (AreFormed reading.source) := by
  have hrule := hrules.keeps
  mvcgen [sliceBound, hrule] with grind -linarith

@[spec]
theorem keeps_slice : reading.Keeps (slice rules) (AreFormed reading.source) := by
  have hrule := hrules.keeps
  mvcgen [slice, hrule] with grind -linarith

@[spec]
theorem keeps_subscripts (follow : Expected) :
    reading.Keeps (subscripts rules bound follow) (AreFormed reading.source) := by
  mvcgen [subscripts, keeps_moreElements] with grind -linarith

/-! ## Operands -/

/-- Whatever is looked up in a construct, the result is one. -/
@[spec]
theorem keeps_trailers (follow : Expected) (value : List Node) :
    reading.Keeps (trailers rules follow value bound) fun nodes =>
      AreFormed reading.source value → IsSole value →
        AreFormed reading.source nodes ∧ IsSole nodes := by
  induction bound generalizing value with
  | zero => exact keeps_reject
  | succ bound ih =>
      mvcgen [trailers, ih] with grind -linarith

@[spec]
theorem keeps_atom (follow : Expected) :
    reading.Keeps (atom rules bound follow) fun nodes =>
      AreFormed reading.source nodes ∧ IsSole nodes := by
  mvcgen [atom] with grind -linarith

@[spec]
theorem keeps_lookup (follow : Expected) :
    reading.Keeps (lookup rules bound follow) fun nodes =>
      AreFormed reading.source nodes ∧ IsSole nodes := by
  mvcgen [lookup] with grind -linarith

@[spec]
theorem keeps_splat (follow : Expected) :
    reading.Keeps (splat rules bound follow) fun nodes =>
      AreFormed reading.source nodes ∧ IsSole nodes := by
  mvcgen [splat] with grind -linarith

@[spec]
theorem keeps_operand (context : Context) :
    reading.Keeps (operand rules bound context) fun nodes =>
      AreFormed reading.source nodes ∧ IsSole nodes := by
  have hrule := hrules.keeps
  mvcgen [operand, hrule] invariants
  · ⇓? (_, early, _) state => ⌜reading.Holds state ∧
      ∀ nodes, early = some nodes → AreFormed reading.source nodes ∧ IsSole nodes⌝
  with grind -linarith

@[spec]
theorem keeps_target (context : Context) :
    reading.Keeps (target rules bound context) fun nodes =>
      AreFormed reading.source nodes ∧ IsSole nodes := by
  mvcgen [target] with grind -linarith

@[spec]
theorem keeps_operands (context : Context) :
    reading.Keeps (operands rules bound context) fun nodes =>
      AreFormed reading.source nodes ∧ IsSole nodes := by
  have hrule := hrules.keeps
  mvcgen [operands, hrule, keeps_repeated_areFormed] with grind -linarith

/-! ## Expressions -/

@[spec]
theorem keeps_expressionList (context : Context) (keywords : List String) :
    reading.Keeps (expressionList rules bound context keywords) fun nodes =>
      AreFormed reading.source nodes ∧ AreValues reading.source (partsOf nodes) := by
  have hrule := hrules.keeps
  mvcgen [expressionList, hrule] with grind -linarith [IsSole.areValues_append]

@[spec]
theorem keeps_yieldExpression (context : Context) :
    reading.Keeps (yieldExpression rules bound context) fun nodes =>
      AreFormed reading.source nodes ∧ IsSole nodes := by
  have hrule := hrules.keeps
  mvcgen [yieldExpression, hrule] with grind -linarith

@[spec]
theorem keeps_starredParameter (star : String) (follow : Expected) :
    reading.Keeps (starredParameter rules star follow) fun nodes =>
      AreFormed reading.source nodes ∧ HasParts nodes := by
  have hrule := hrules.keeps
  mvcgen [starredParameter, hrule] with grind -linarith

@[spec]
theorem keeps_parameterType (typed : Bool) (follow : Expected) :
    reading.Keeps (parameterType rules typed follow) (AreFormed reading.source) := by
  have hrule := hrules.keeps
  mvcgen [parameterType, hrule] with grind -linarith

@[spec]
theorem keeps_parameterDefault (follow : Expected) :
    reading.Keeps (parameterDefault rules follow) (AreFormed reading.source) := by
  have hrule := hrules.keeps
  mvcgen [parameterDefault, hrule] with grind -linarith

@[spec]
theorem keeps_parameter (typed : Bool) (follow : Expected) :
    reading.Keeps (parameter rules bound typed follow) (AreFormed reading.source) := by
  have hrule := hrules.keeps
  mvcgen [parameter, hrule] with grind -linarith

@[spec]
theorem keeps_parameterList (typed : Bool) (follow : Expected) :
    reading.Keeps (parameterList rules bound typed follow) (AreFormed reading.source) := by
  mvcgen [parameterList, keeps_moreElements] with grind -linarith

@[spec]
theorem keeps_lambda (context : Context) :
    reading.Keeps (lambda rules bound context) fun nodes =>
      AreFormed reading.source nodes ∧ IsSole nodes := by
  have hrule := hrules.keeps
  mvcgen [lambda, hrule] with grind -linarith

@[spec]
theorem keeps_expression (context : Context) :
    reading.Keeps (expression rules bound context) fun nodes =>
      AreFormed reading.source nodes ∧ IsSole nodes := by
  have hrule := hrules.keeps
  mvcgen [expression, hrule] invariants
  · ⇓? (_, early, _) state => ⌜reading.Holds state ∧
      ∀ nodes, early = some nodes → AreFormed reading.source nodes ∧ IsSole nodes⌝
  with grind -linarith

/-! ## Types -/

@[spec]
theorem keeps_typeArguments (follow : Expected) :
    reading.Keeps (typeArguments rules bound follow) (AreFormed reading.source) := by
  have hrule := hrules.keeps
  mvcgen [typeArguments, hrule, keeps_moreElements] with grind -linarith

omit hrules in
@[spec]
theorem keeps_atGenericType (follow : Expected) :
    reading.Keeps (atGenericType follow) fun _ => True := by
  mvcgen [atGenericType]

@[spec]
theorem keeps_typeTail (context : Context) (constrained : Bool) (type : List Node) :
    reading.Keeps (typeTail rules context constrained type bound) fun nodes =>
      AreFormed reading.source type → AreFormed reading.source nodes := by
  induction bound generalizing type with
  | zero => exact keeps_reject
  | succ bound ih =>
      have hrule := hrules.keeps
      mvcgen [typeTail, hrule, ih] with grind -linarith

@[spec]
theorem keeps_typeExpression (context : Context) (constrained : Bool) :
    reading.Keeps (typeExpression rules bound context constrained)
      (AreFormed reading.source) := by
  have hrule := hrules.keeps
  mvcgen [typeExpression, hrule] with grind -linarith

end Reading

end Untested.Python
