/-
# What counts in a body

A plain string counts for nothing in first position and with all of its lines in any other.  So a
function that never ran although nothing is missing has no code at all, and a string put in front
of a body changes what counts only when there was one already: the string that stood first before
counts from then on.
-/

import Untested.Proofs.Python.Nesting
import Untested.Proofs.Python.Surroundings

namespace Untested

/-- A span made from lines in the wrong order has the first of them alone. -/
theorem LineSpan.mem_lines_between {start stop line : Nat} :
    line ∈ (between start stop).lines ↔ start ≤ line ∧ line ≤ max stop start :=
  mem_lines

theorem LineSpan.start_mem_lines (span : LineSpan) : span.start ∈ span.lines :=
  mem_lines.2 ⟨Nat.le_refl _, span.start_le_stop⟩

namespace Python

/-! ## Strings among statements -/

namespace Statement

/-- The statement is a plain string. -/
def IsText (statement : Statement) : Prop :=
  ∃ span, statement = .expression span .text

theorem isDocumentation_iff {statement : Statement} :
    statement.isDocumentation = true ↔ statement.IsText := by
  constructor
  · intro hdocumentation
    cases statement with
    | expression span value =>
        obtain rfl : value = .text := of_decide_eq_true hdocumentation
        exact ⟨span, rfl⟩
    | function | classDef | compound | simple => cases hdocumentation
  · rintro ⟨span, rfl⟩
    rfl

instance (statement : Statement) : Decidable statement.IsText :=
  decidable_of_iff _ isDocumentation_iff

end Statement

/-- A body without code is empty or has no other statement than a plain string. -/
def LacksCode (body : List Statement) : Prop :=
  body = [] ∨ ∃ statement : Statement, body = [statement] ∧ statement.IsText

theorem lacksCode_iff {body : List Statement} : LacksCode body ↔ codeOf body = [] := by
  cases body with
  | nil => exact iff_of_true (.inl rfl) rfl
  | cons first rest =>
      rw [codeOf]
      split
      case isTrue hfirst =>
        rw [LacksCode]
        constructor
        · rintro (hnil | ⟨statement, hbody, -⟩)
          · cases hnil
          · exact (List.cons.inj hbody).2
        · rintro rfl
          exact .inr ⟨first, rfl, Statement.isDocumentation_iff.1 hfirst⟩
      case isFalse hfirst =>
        refine iff_of_false ?_ (List.cons_ne_nil first rest)
        rintro (hnil | ⟨statement, hbody, htext⟩)
        · cases hnil
        · obtain ⟨rfl, -⟩ := List.cons.inj hbody
          exact hfirst (Statement.isDocumentation_iff.2 htext)

instance (body : List Statement) : Decidable (LacksCode body) :=
  decidable_of_iff' _ lacksCode_iff

/-! ## The lines of a body -/

theorem mem_codeOf_iff {body : List Statement} {statement : Statement} :
    statement ∈ codeOf body ↔
      ∃ position, body[position]? = some statement ∧ ¬(position = 0 ∧ statement.IsText) := by
  cases body with
  | nil => simp [codeOf]
  | cons first rest =>
      have hrest : statement ∈ rest ↔ ∃ position, (first :: rest)[position + 1]? = some statement :=
        List.mem_iff_getElem?
      rw [codeOf]
      constructor
      · intro hmem
        split at hmem
        case isTrue =>
          obtain ⟨position, hposition⟩ := hrest.1 hmem
          exact ⟨position + 1, hposition, fun hzero => Nat.succ_ne_zero _ hzero.1⟩
        case isFalse hfirst =>
          rcases List.mem_cons.1 hmem with rfl | hmem
          · exact ⟨0, rfl, fun hzero => hfirst (Statement.isDocumentation_iff.2 hzero.2)⟩
          · obtain ⟨position, hposition⟩ := hrest.1 hmem
            exact ⟨position + 1, hposition, fun hzero => Nat.succ_ne_zero _ hzero.1⟩
      · rintro ⟨position, hposition, hcounts⟩
        cases position with
        | zero =>
            obtain rfl := Option.some.inj hposition
            rw [if_neg fun hfirst => hcounts ⟨rfl, Statement.isDocumentation_iff.1 hfirst⟩]
            exact List.mem_cons_self
        | succ position =>
            have hmem := hrest.2 ⟨position, hposition⟩
            split
            · exact hmem
            · exact List.mem_cons_of_mem _ hmem

/-- The lines of a body are those of its statements, but not those of a plain string in first
position. -/
theorem mem_bodyLines_iff {body : List Statement} {line : Nat} :
    line ∈ bodyLines body ↔
      ∃ (position : Nat) (statement : Statement), body[position]? = some statement ∧
        ¬(position = 0 ∧ statement.IsText) ∧ line ∈ statement.span.lines := by
  rw [bodyLines_eq, mem_statementLines]
  constructor
  · rintro ⟨statement, hmem, hline⟩
    obtain ⟨position, hposition, hcounts⟩ := mem_codeOf_iff.1 hmem
    exact ⟨position, statement, hposition, hcounts, hline⟩
  · rintro ⟨position, statement, hposition, hcounts, hline⟩
    exact ⟨statement, mem_codeOf_iff.2 ⟨position, hposition, hcounts⟩, hline⟩

/-- A statement has a line, so a body never ran while nothing is missing only if it has no
code. -/
theorem neverRan_empty_iff {body : List Statement} : NeverRan ∅ body ↔ LacksCode body := by
  rw [lacksCode_iff]
  constructor
  · intro hnever
    refine List.eq_nil_iff_forall_not_mem.2 fun statement hstatement => ?_
    have hline := hnever statement hstatement _ statement.span.start_mem_lines
    exact List.not_mem_nil hline
  · intro hnil statement hstatement
    rw [hnil] at hstatement
    exact absurd hstatement List.not_mem_nil

theorem isNeverCalled_empty_iff {function : Statement} {record : FunctionRecord}
    (hrecord : function.record? = some record) :
    record.isNeverCalled ∅ = true ↔ LacksCode function.children :=
  (FunctionRecord.isNeverCalled_iff (Statement.body_eq_of_record? hrecord)).trans
    neverRan_empty_iff

/-- The functions that count as never called although no line is missing are those without
code. -/
theorem filter_isNeverCalled_empty (module : List Statement) :
    (functionsOfAll module).filter (fun record => record.isNeverCalled ∅) =
      ((preorderOfAll module).filter fun function =>
        LacksCode function.children).filterMap Statement.record? := by
  rw [functionsOfAll_eq, List.filter_filterMap, List.filterMap_filter]
  refine List.filterMap_congr fun function _ => ?_
  cases hrecord : function.record? with
  | none => simp
  | some record => simp [Option.filter_some, isNeverCalled_empty_iff hrecord]

/-! ## A string in front of a body -/

section

variable {body : List Statement} (span : LineSpan)

theorem bodyLines_text_cons (body : List Statement) :
    bodyLines (.expression span .text :: body) = statementLines body :=
  rfl

/-- In front of other statements, or of none, a string does not count. -/
theorem bodyLines_text_cons_of_not_isText (hfirst : ∀ first ∈ body.head?, ¬first.IsText) :
    bodyLines (.expression span .text :: body) = bodyLines body := by
  rw [bodyLines_text_cons]
  cases body with
  | nil => rfl
  | cons first rest =>
      have hcounts : ¬first.isDocumentation = true := fun hdocumentation =>
        hfirst first rfl (Statement.isDocumentation_iff.1 hdocumentation)
      rw [bodyLines, if_neg hcounts]

/-- A string that came first counts when another one is put in front of it. -/
theorem bodyLines_text_cons_text (old : LineSpan) (rest : List Statement) :
    bodyLines (.expression span .text :: .expression old .text :: rest) =
      old.lines.union (bodyLines (.expression old .text :: rest)) :=
  rfl

/-- Where a string does not count it changes nothing about the functions of the module. -/
theorem Surroundings.functionsOfAll_fill_text_cons (surroundings : Surroundings)
    (hfirst : ∀ first ∈ body.head?, ¬first.IsText) :
    functionsOfAll (surroundings.fill (.expression span .text :: body)) =
      functionsOfAll (surroundings.fill body) :=
  surroundings.functionsOfAll_fill rfl fun _ => bodyLines_text_cons_of_not_isText span hfirst

end

/-! ## What counts -/

/-- The lines of a function are those of the statements in its body, of which only a plain string
in first position is left out.  The functions flagged when nothing is missing are those whose body
is empty or a single plain string.  A string put in front of a body that does not begin with one
changes no record of the module, and in front of one that does it adds the lines of that one. -/
theorem bodies_of_functions (module : List Statement) :
    (∀ function ∈ preorderOfAll module, ∀ record, function.record? = some record →
      (∀ line, line ∈ record.body ↔
        ∃ (position : Nat) (statement : Statement), function.children[position]? = some statement ∧
          ¬(position = 0 ∧ statement.IsText) ∧ line ∈ statement.span.lines) ∧
      (record.isNeverCalled ∅ = true ↔ LacksCode function.children)) ∧
    (∀ start stop line, line ∈ (LineSpan.between start stop).lines ↔
      start ≤ line ∧ line ≤ max stop start) ∧
    (functionsOfAll module).filter (fun record => record.isNeverCalled ∅) =
      ((preorderOfAll module).filter fun function =>
        LacksCode function.children).filterMap Statement.record? ∧
    (∀ (surroundings : Surroundings) (body : List Statement) (span : LineSpan),
      surroundings.fill body = module → (∀ first ∈ body.head?, ¬first.IsText) →
        bodyLines (.expression span .text :: body) = bodyLines body ∧
        functionsOfAll (surroundings.fill (.expression span .text :: body)) =
          functionsOfAll module) ∧
    ∀ (span old : LineSpan) (rest : List Statement),
      bodyLines (.expression span .text :: .expression old .text :: rest) =
        old.lines.union (bodyLines (.expression old .text :: rest)) := by
  refine ⟨?_, fun _ _ _ => LineSpan.mem_lines_between, filter_isNeverCalled_empty module, ?_,
    bodyLines_text_cons_text⟩
  · intro function _ record hrecord
    refine ⟨fun line => ?_, isNeverCalled_empty_iff hrecord⟩
    rw [Statement.body_eq_of_record? hrecord, mem_bodyLines_iff]
  · rintro surroundings body span rfl hfirst
    exact ⟨bodyLines_text_cons_of_not_isText span hfirst,
      surroundings.functionsOfAll_fill_text_cons span hfirst⟩

example :
    (functionsOfAll
      [.function false "stub" (.between 1 2) [.expression (.single 2) .text],
        .function false "noted" (.between 3 5)
          [.expression (.single 4) .text, .expression (.between 5 4) .text]]).map
      (fun record => (record.name, record.body.lines, record.isNeverCalled ∅)) =
      [("stub", [], true), ("noted", [5], false)] := by
  decide +kernel

end Python

end Untested
