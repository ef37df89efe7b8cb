/-
# Functions inside functions that never ran

When the lines of every statement take in those of the statements inside it, the body lines of a
function take in those of all functions inside it.  Hence a function that never ran has only such
functions inside.  The documentation of the outer function does not matter, since nothing is
defined inside a string.
-/

import Untested.Proofs.Python.Preorder

namespace Untested

/-- All lines of a span lie in another one. -/
def LineSpan.IsWithin (inner outer : LineSpan) : Prop :=
  outer.start ≤ inner.start ∧ inner.stop ≤ outer.stop

instance (inner outer : LineSpan) : Decidable (inner.IsWithin outer) :=
  inferInstanceAs (Decidable (_ ∧ _))

theorem LineSpan.mem_lines {span : LineSpan} {line : Nat} :
    line ∈ span.lines ↔ span.start ≤ line ∧ line ≤ span.stop :=
  LineSet.mem_interval

theorem LineSpan.IsWithin.mem_lines {inner outer : LineSpan} (hwithin : inner.IsWithin outer)
    {line : Nat} (hline : line ∈ inner.lines) : line ∈ outer.lines := by
  rw [LineSpan.mem_lines] at hline ⊢
  exact ⟨Nat.le_trans hwithin.1 hline.1, Nat.le_trans hline.2 hwithin.2⟩

namespace Python

/-! ## Statements within statements -/

namespace Statement

theorem Within.trans {inner middle outer : Statement} (hinner : inner.Within middle)
    (hmiddle : middle.Within outer) : inner.Within outer := by
  induction hmiddle with
  | self => exact hinner
  | inside hchild _ ih => exact .inside hchild ih

theorem within_of_mem_children {child outer : Statement} (hchild : child ∈ outer.children) :
    child.Within outer :=
  .inside hchild (.self child)

/-- Nothing is defined inside a string. -/
theorem isDocumentation_eq_false {inner outer : Statement} {record : FunctionRecord}
    (hwithin : inner.Within outer) (hrecord : inner.record? = some record) :
    outer.isDocumentation = false := by
  cases outer with
  | function | classDef | compound | simple => rfl
  | expression span value =>
      cases hwithin with
      | self => cases hrecord
      | inside hchild _ => exact absurd hchild List.not_mem_nil

/-- The spans of the statements within a statement lie in its own span. -/
def IsNested (outer : Statement) : Prop :=
  ∀ inner : Statement, inner.Within outer → inner.span.IsWithin outer.span

theorem isNested_iff {outer : Statement} :
    outer.IsNested ↔ ∀ inner ∈ outer.preorder, inner.span.IsWithin outer.span := by
  simp only [IsNested, mem_preorder_iff]

instance (outer : Statement) : Decidable outer.IsNested :=
  decidable_of_iff _ isNested_iff.symm

end Statement

theorem mem_preorderOfAll {inner : Statement} {body : List Statement} :
    inner ∈ preorderOfAll body ↔ ∃ statement ∈ body, inner.Within statement := by
  rw [preorderOfAll_eq, List.mem_flatMap]
  simp only [Statement.mem_preorder_iff]

theorem mem_codeOf {statement : Statement} {body : List Statement}
    (hdocumentation : statement.isDocumentation = false) (hstatement : statement ∈ body) :
    statement ∈ codeOf body := by
  cases body with
  | nil => exact hstatement
  | cons first rest =>
      rw [codeOf]
      split
      · rename_i hfirst
        rcases List.mem_cons.1 hstatement with rfl | hrest
        · rw [hdocumentation] at hfirst
          exact absurd hfirst (by decide)
        · exact hrest
      · exact hstatement

theorem codeOf_subset (body : List Statement) : codeOf body ⊆ body := by
  cases body with
  | nil => exact List.Subset.refl _
  | cons first rest =>
      rw [codeOf]
      split
      · exact List.subset_cons_self _ _
      · exact List.Subset.refl _

/-! ## Body lines within body lines -/

theorem Statement.body_eq_of_record? {statement : Statement} {record : FunctionRecord}
    (hrecord : statement.record? = some record) : record.body = bodyLines statement.children := by
  cases statement with
  | function isAsync name span body =>
      obtain rfl := Option.some.inj hrecord
      rfl
  | classDef | compound | expression | simple => cases hrecord

/-- The body lines of a function lie in the span of every statement that the function lies
within. -/
theorem mem_lines_of_mem_bodyLines {inner outer : Statement} {record : FunctionRecord}
    (hnested : outer.IsNested) (hwithin : inner.Within outer)
    (hrecord : inner.record? = some record) {line : Nat} (hline : line ∈ record.body) :
    line ∈ outer.span.lines := by
  rw [Statement.body_eq_of_record? hrecord, bodyLines_eq, mem_statementLines] at hline
  obtain ⟨statement, hstatement, hline⟩ := hline
  have hchild := Statement.within_of_mem_children (codeOf_subset _ hstatement)
  exact (hnested statement (hchild.trans hwithin)).mem_lines hline

/-- Functions with fewer body lines are never called when those with more are not. -/
theorem FunctionRecord.isNeverCalled_of_subset {inner outer : FunctionRecord}
    (hsubset : ∀ line ∈ inner.body, line ∈ outer.body) {missing : LineSet}
    (hnever : outer.isNeverCalled missing = true) : inner.isNeverCalled missing = true := by
  rw [isNeverCalled, LineSet.containsAll_iff] at hnever ⊢
  exact fun line hline => hnever line (hsubset line hline)

/-- The body lines of a function take in those of all functions inside it, at whatever depth and
through whatever statements.  So all functions inside a function that never ran never ran
either, whichever lines are missing. -/
theorem isNeverCalled_inside {body : List Statement}
    (hnested : ∀ statement ∈ preorderOfAll body, statement.IsNested) {outer : Statement}
    (houter : outer ∈ preorderOfAll body) {record : FunctionRecord}
    (hrecord : outer.record? = some record) :
    ∀ inner ∈ functionsOfAll outer.children,
      (∀ line ∈ inner.body, line ∈ record.body) ∧
        ∀ missing, record.isNeverCalled missing = true → inner.isNeverCalled missing = true := by
  intro inner hinner
  rw [functionsOfAll_eq, List.mem_filterMap] at hinner
  obtain ⟨function, hfunction, hinnerRecord⟩ := hinner
  obtain ⟨child, hchild, hwithin⟩ := mem_preorderOfAll.1 hfunction
  have hsubset : ∀ line ∈ inner.body, line ∈ record.body := by
    intro line hline
    have hchildNested : child.IsNested := by
      obtain ⟨statement, hstatement, houterWithin⟩ := mem_preorderOfAll.1 houter
      refine hnested child (mem_preorderOfAll.2 ⟨statement, hstatement, ?_⟩)
      exact (Statement.within_of_mem_children hchild).trans houterWithin
    have hcode : child ∈ codeOf outer.children :=
      mem_codeOf (Statement.isDocumentation_eq_false hwithin hinnerRecord) hchild
    rw [Statement.body_eq_of_record? hrecord, bodyLines_eq, mem_statementLines]
    exact ⟨child, hcode, mem_lines_of_mem_bodyLines hchildNested hwithin hinnerRecord hline⟩
  exact ⟨hsubset, fun missing => FunctionRecord.isNeverCalled_of_subset hsubset⟩

/-- A function with a documentation string and a class, in whose only method another function is
defined in a clause. -/
def documentedOuter : Statement :=
  .function false "outer" (.between 1 9)
    [.expression (.single 2) .text,
      .classDef "Inner" (.between 3 9)
        [.function true "load" (.between 4 9)
          [.compound (.between 5 9)
            [[.simple (.single 6)],
              [.function false "retry" (.between 8 9) [.simple (.single 9)]]]]]]

theorem isNeverCalled_inside_documentedOuter :
    (functionsOfAll documentedOuter.children).map FunctionRecord.name = ["load", "retry"] ∧
    ∀ inner ∈ functionsOfAll documentedOuter.children,
      (∀ line ∈ inner.body, line ∈ bodyLines documentedOuter.children) ∧
        ∀ missing, FunctionRecord.isNeverCalled
            { name := "outer", line := 1, body := bodyLines documentedOuter.children,
              isAsync := false } missing = true →
          inner.isNeverCalled missing = true := by
  have hnested : ∀ statement ∈ preorderOfAll [documentedOuter], statement.IsNested := by decide
  have houter : documentedOuter ∈ preorderOfAll [documentedOuter] :=
    mem_preorderOfAll.2 ⟨_, List.mem_cons_self, .self _⟩
  exact ⟨rfl, isNeverCalled_inside hnested houter rfl⟩

end Python

end Untested
