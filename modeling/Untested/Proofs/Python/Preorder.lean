/-
# Statements in the order of the source text

The statements of a tree, at whatever depth, are listed so that each one stands before those
inside it.  The functions of a file are those of the list, in its order, and a function never ran
when every line of every statement of its body is missing.
-/

import Untested.Finding
import Untested.Python.Function
import Mathlib.Data.List.Basic

namespace Untested.Python

/-! ## Statements inside statements -/

/-- The statements directly inside a statement. -/
def Statement.children : Statement → List Statement
  | .function _ _ _ body => body
  | .classDef _ _ body => body
  | .compound _ blocks => blocks.flatten
  | .expression .. => []
  | .simple _ => []

/-- A statement lies within itself and within whatever its surroundings lie in. -/
inductive Statement.Within : Statement → Statement → Prop
  | self (statement : Statement) : Within statement statement
  | inside {inner child outer : Statement} :
      child ∈ outer.children → Within inner child → Within inner outer

mutual

/-- A statement and the statements inside it, each one before those inside it. -/
def Statement.preorder : Statement → List Statement
  | .function isAsync name span body => .function isAsync name span body :: preorderOfAll body
  | .classDef name span body => .classDef name span body :: preorderOfAll body
  | .compound span blocks => .compound span blocks :: preorderOfBlocks blocks
  | .expression span value => [.expression span value]
  | .simple span => [.simple span]

/-- The statements at or inside those of a list. -/
def preorderOfAll : List Statement → List Statement
  | [] => []
  | statement :: rest => statement.preorder ++ preorderOfAll rest

/-- The statements at or inside those of some clauses. -/
def preorderOfBlocks : List (List Statement) → List Statement
  | [] => []
  | block :: rest => preorderOfAll block ++ preorderOfBlocks rest

end

theorem preorderOfAll_eq (body : List Statement) :
    preorderOfAll body = body.flatMap Statement.preorder := by
  induction body with
  | nil => rfl
  | cons statement rest ih => rw [preorderOfAll, ih, List.flatMap_cons]

theorem preorderOfBlocks_eq (blocks : List (List Statement)) :
    preorderOfBlocks blocks = preorderOfAll blocks.flatten := by
  induction blocks with
  | nil => rfl
  | cons block rest ih =>
      rw [preorderOfBlocks, ih, preorderOfAll_eq, preorderOfAll_eq, preorderOfAll_eq,
        List.flatten_cons, List.flatMap_append]

/-- The list of a statement begins with it and goes on with the lists of its children. -/
theorem Statement.preorder_eq (statement : Statement) :
    statement.preorder = statement :: preorderOfAll statement.children := by
  cases statement with
  | function | classDef | expression | simple => rfl
  | compound span blocks => rw [Statement.preorder, preorderOfBlocks_eq]; rfl

/-- What lies within a statement is the statement or lies within one of its children. -/
theorem Statement.within_of_eq_or {inner outer : Statement}
    (hinner : inner = outer ∨ ∃ child ∈ outer.children, Within inner child) :
    Within inner outer := by
  rcases hinner with rfl | ⟨child, hchild, hwithin⟩
  · exact .self inner
  · exact .inside hchild hwithin

mutual

theorem Statement.within_of_mem_preorder {inner : Statement} (outer : Statement)
    (hinner : inner ∈ outer.preorder) : Statement.Within inner outer := by
  apply Statement.within_of_eq_or
  cases outer with
  | function isAsync name span body =>
      rw [Statement.preorder, List.mem_cons] at hinner
      exact hinner.imp_right (exists_within_of_mem_preorderOfAll body)
  | classDef name span body =>
      rw [Statement.preorder, List.mem_cons] at hinner
      exact hinner.imp_right (exists_within_of_mem_preorderOfAll body)
  | compound span blocks =>
      rw [Statement.preorder, List.mem_cons] at hinner
      exact hinner.imp_right (exists_within_of_mem_preorderOfBlocks blocks)
  | expression | simple =>
      rw [Statement.preorder, List.mem_singleton] at hinner
      exact .inl hinner

theorem exists_within_of_mem_preorderOfAll {inner : Statement} (body : List Statement)
    (hinner : inner ∈ preorderOfAll body) :
    ∃ statement ∈ body, Statement.Within inner statement := by
  cases body with
  | nil => exact absurd hinner List.not_mem_nil
  | cons statement rest =>
      rw [preorderOfAll, List.mem_append] at hinner
      rcases hinner with hinner | hinner
      · exact ⟨statement, List.mem_cons_self, Statement.within_of_mem_preorder statement hinner⟩
      · obtain ⟨other, hother, hwithin⟩ := exists_within_of_mem_preorderOfAll rest hinner
        exact ⟨other, List.mem_cons_of_mem _ hother, hwithin⟩

theorem exists_within_of_mem_preorderOfBlocks {inner : Statement} (blocks : List (List Statement))
    (hinner : inner ∈ preorderOfBlocks blocks) :
    ∃ statement ∈ blocks.flatten, Statement.Within inner statement := by
  cases blocks with
  | nil => exact absurd hinner List.not_mem_nil
  | cons block rest =>
      rw [preorderOfBlocks, List.mem_append] at hinner
      rw [List.flatten_cons]
      rcases hinner with hinner | hinner
      · obtain ⟨other, hother, hwithin⟩ := exists_within_of_mem_preorderOfAll block hinner
        exact ⟨other, List.mem_append_left _ hother, hwithin⟩
      · obtain ⟨other, hother, hwithin⟩ := exists_within_of_mem_preorderOfBlocks rest hinner
        exact ⟨other, List.mem_append_right _ hother, hwithin⟩

end

/-- The list of a statement has all statements within it, and no others. -/
theorem Statement.mem_preorder_iff {inner outer : Statement} :
    inner ∈ outer.preorder ↔ Within inner outer := by
  constructor
  · exact within_of_mem_preorder outer
  · intro hwithin
    induction hwithin with
    | self =>
        rw [preorder_eq]
        exact List.mem_cons_self
    | inside hchild _ ih =>
        rw [preorder_eq, preorderOfAll_eq]
        exact List.mem_cons_of_mem _ (List.mem_flatMap.2 ⟨_, hchild, ih⟩)

/-! ## Functions -/

def Statement.record? : Statement → Option FunctionRecord
  | .function isAsync name span body =>
    some { name, line := span.start, body := bodyLines body, isAsync }
  | _ => none

mutual

theorem Statement.functions_eq (statement : Statement) :
    statement.functions = statement.preorder.filterMap Statement.record? := by
  cases statement with
  | function isAsync name span body =>
      rw [Statement.functions, Statement.preorder, functionsOfAll_eq body]
      rfl
  | classDef name span body =>
      rw [Statement.functions, Statement.preorder, functionsOfAll_eq body]
      rfl
  | compound span blocks =>
      rw [Statement.functions, Statement.preorder, functionsOfBlocks_eq blocks]
      rfl
  | expression | simple => rfl

/-- The functions of a body are those among its statements at any depth. -/
theorem functionsOfAll_eq (body : List Statement) :
    functionsOfAll body = (preorderOfAll body).filterMap Statement.record? := by
  cases body with
  | nil => rfl
  | cons statement rest =>
      rw [functionsOfAll, preorderOfAll, List.filterMap_append, statement.functions_eq,
        functionsOfAll_eq rest]

theorem functionsOfBlocks_eq (blocks : List (List Statement)) :
    functionsOfBlocks blocks = (preorderOfBlocks blocks).filterMap Statement.record? := by
  cases blocks with
  | nil => rfl
  | cons block rest =>
      rw [functionsOfBlocks, preorderOfBlocks, List.filterMap_append, functionsOfAll_eq block,
        functionsOfBlocks_eq rest]

end

/-! ## Functions that never ran -/

/-- The statements of a body without a documentation string at its beginning. -/
def codeOf : List Statement → List Statement
  | [] => []
  | first :: rest => if first.isDocumentation then rest else first :: rest

/-- No line of any statement of a body ran, its documentation apart. -/
def NeverRan (missing : LineSet) (body : List Statement) : Prop :=
  ∀ statement ∈ codeOf body, ∀ line ∈ statement.span.lines, line ∈ missing

theorem mem_statementLines {line : Nat} {body : List Statement} :
    line ∈ statementLines body ↔ ∃ statement ∈ body, line ∈ statement.span.lines := by
  induction body with
  | nil => exact iff_of_false List.not_mem_nil (by simp)
  | cons statement rest ih =>
      simp only [statementLines, LineSet.mem_union, ih, List.exists_mem_cons_iff]

theorem bodyLines_eq (body : List Statement) : bodyLines body = statementLines (codeOf body) := by
  cases body with
  | nil => rfl
  | cons first rest =>
      rw [bodyLines, codeOf]
      split <;> rfl

/-- The test of a record asks whether the body never ran. -/
theorem FunctionRecord.isNeverCalled_iff {record : FunctionRecord} {missing : LineSet}
    {body : List Statement} (hbody : record.body = bodyLines body) :
    record.isNeverCalled missing = true ↔ NeverRan missing body := by
  rw [isNeverCalled, LineSet.containsAll_iff, hbody, bodyLines_eq]
  constructor
  · intro hall statement hstatement line hline
    exact hall line (mem_statementLines.2 ⟨statement, hstatement, hline⟩)
  · intro hnever line hline
    obtain ⟨statement, hstatement, hline⟩ := mem_statementLines.1 hline
    exact hnever statement hstatement line hline

instance (missing : LineSet) (body : List Statement) : Decidable (NeverRan missing body) :=
  decidable_of_iff
    (({ name := "", line := 0, body := bodyLines body, isAsync := false } :
      FunctionRecord).isNeverCalled missing = true)
    (FunctionRecord.isNeverCalled_iff rfl)

/-- The finding that a statement of a file gives rise to: only a function that never ran does. -/
def Statement.finding? (file : String) (missing : LineSet) : Statement → Option Finding
  | .function isAsync name span body =>
    if NeverRan missing body then some { file, name, line := span.start, isAsync } else none
  | _ => none

end Untested.Python
