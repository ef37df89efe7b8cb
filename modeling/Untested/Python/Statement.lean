/-
# Statement trees

What the analysis needs to know of a source file: which statements it has, which lines each of
them occupies, and how definitions and clauses nest.
-/

import Untested.Line.Span

namespace Untested.Python

/-- The value of an expression statement, as far as documentation goes. -/
inductive Value where
  /-- A plain string, possibly raw or in several adjacent literals. -/
  | text
  /-- A string computed when it is reached. -/
  | formatted
  | bytes
  | other
deriving DecidableEq, Repr

/-- Whether a value may serve as documentation: a plain string alone does. -/
def Value.isDocumentation (value : Value) : Bool :=
  value = .text

inductive Statement where
  /-- A function, whose span begins at its `def` or `async` and never at a decorator. -/
  | function (isAsync : Bool) (name : String) (span : LineSpan) (body : List Statement)
  | classDef (name : String) (span : LineSpan) (body : List Statement)
  /-- An expression or an assignment that stands as a statement. -/
  | expression (span : LineSpan) (value : Value)
  /-- A statement with clauses, each a list of statements, in source order. -/
  | compound (span : LineSpan) (blocks : List (List Statement))
  | simple (span : LineSpan)

instance : Inhabited Statement := ⟨.simple (.single 1)⟩

namespace Statement

/-- The lines that the statement occupies. -/
def span : Statement → LineSpan
  | function _ _ span _ => span
  | classDef _ span _ => span
  | expression span _ => span
  | compound span _ => span
  | simple span => span

/-- Whether the statement is a plain string. -/
def isDocumentation : Statement → Bool
  | expression _ value => value.isDocumentation
  | _ => false

end Statement

end Untested.Python
