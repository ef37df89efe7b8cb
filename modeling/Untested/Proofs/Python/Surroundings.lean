/-
# Functions and what stands around them

The records of a list of statements stand together among those of the module around it, and what
is around changes nothing about them.  In the other direction the list counts, apart from its
records, only where it is itself the body of a function, whose record has the lines of the
statements in it.  So a class, or a statement with clauses, may anywhere else be replaced by
what stands in it.
-/

import Untested.Proofs.Python.Places

namespace Untested.Python

/-! ## Replacing statements -/

/-- What directly encloses a list of statements: it is the body of a function or a class, or one
of the clauses of a statement. -/
inductive Frame where
  | function (isAsync : Bool) (name : String) (span : LineSpan)
  | classDef (name : String) (span : LineSpan)
  | clause (span : LineSpan) (before after : List (List Statement))

namespace Frame

/-- The statement that a list of statements makes in a frame. -/
def enclose (body : List Statement) : Frame → Statement
  | function isAsync name span => .function isAsync name span body
  | classDef name span => .classDef name span body
  | clause span before after => .compound span (before ++ body :: after)

def isFunction : Frame → Bool
  | function .. => true
  | _ => false

end Frame

/-- Where a list of statements stands: it is the module itself, or it has a frame, and the
statement that it makes stands among others in its own surroundings. -/
inductive Surroundings where
  | module
  | within (frame : Frame) (before after : List Statement) (outer : Surroundings)

namespace Surroundings

/-- The module that a list of statements makes in its surroundings. -/
def fill (body : List Statement) : Surroundings → List Statement
  | module => body
  | within frame before after outer => outer.fill (before ++ frame.enclose body :: after)

/-- Whether what stands there is directly the body of a function. -/
def isFunctionBody : Surroundings → Bool
  | module => false
  | within frame _ _ _ => frame.isFunction

end Surroundings

theorem exists_enclose_of_mem_children {child outer : Statement}
    (hchild : child ∈ outer.children) :
    ∃ (frame : Frame) (before after : List Statement),
      frame.enclose (before ++ child :: after) = outer := by
  cases outer with
  | function isAsync name span body =>
      obtain ⟨before, after, rfl⟩ := List.append_of_mem hchild
      exact ⟨.function isAsync name span, before, after, rfl⟩
  | classDef name span body =>
      obtain ⟨before, after, rfl⟩ := List.append_of_mem hchild
      exact ⟨.classDef name span, before, after, rfl⟩
  | compound span blocks =>
      obtain ⟨block, hblock, hmem⟩ := List.mem_flatten.1 hchild
      obtain ⟨earlier, later, rfl⟩ := List.append_of_mem hblock
      obtain ⟨before, after, rfl⟩ := List.append_of_mem hmem
      exact ⟨.clause span earlier later, before, after, rfl⟩
  | expression | simple => exact absurd hchild List.not_mem_nil

theorem Statement.Within.exists_fill {inner outer : Statement} (hwithin : inner.Within outer)
    (surroundings : Surroundings) (before after : List Statement) :
    ∃ (around : Surroundings) (front back : List Statement),
      around.fill (front ++ inner :: back) = surroundings.fill (before ++ outer :: after) := by
  induction hwithin generalizing surroundings before after with
  | self => exact ⟨surroundings, before, after, rfl⟩
  | inside hchild _ ih =>
      obtain ⟨frame, front, back, rfl⟩ := exists_enclose_of_mem_children hchild
      exact ih (.within frame before after surroundings) front back

/-- Every statement of a module has surroundings. -/
theorem StandsAt.exists_fill {place : List Nat} {statement : Statement} {body : List Statement}
    (hstands : StandsAt place statement body) :
    ∃ (surroundings : Surroundings) (before after : List Statement),
      surroundings.fill (before ++ statement :: after) = body := by
  obtain ⟨outer, houter, hwithin⟩ := hstands.exists_within
  obtain ⟨before, after, rfl⟩ := List.append_of_mem houter
  exact hwithin.exists_fill .module before after

/-- Whether a statement only groups the statements inside it: classes do, and statements with
clauses. -/
def Statement.isGroup : Statement → Bool
  | .classDef .. => true
  | .compound .. => true
  | _ => false

/-! ## Records -/

theorem functionsOfAll_append (front back : List Statement) :
    functionsOfAll (front ++ back) = functionsOfAll front ++ functionsOfAll back := by
  induction front with
  | nil => rfl
  | cons statement front ih =>
      rw [List.cons_append, functionsOfAll, functionsOfAll, ih, List.append_assoc]

theorem functionsOfBlocks_eq_flatten (blocks : List (List Statement)) :
    functionsOfBlocks blocks = functionsOfAll blocks.flatten := by
  rw [functionsOfBlocks_eq, preorderOfBlocks_eq, functionsOfAll_eq]

/-- The records of a statement are its own, if it is a function, and those of the statements
directly inside it. -/
theorem Statement.functions_eq_append (statement : Statement) :
    statement.functions = statement.record?.toList ++ functionsOfAll statement.children := by
  cases statement with
  | function | classDef | expression | simple => rfl
  | compound span blocks => exact functionsOfBlocks_eq_flatten blocks

theorem Statement.functions_of_isGroup {statement : Statement}
    (hgroup : statement.isGroup = true) :
    statement.functions = functionsOfAll statement.children := by
  have hrecord : statement.record? = none := by
    cases statement with
    | classDef | compound => rfl
    | function | expression | simple => cases hgroup
  rw [functions_eq_append, hrecord]
  rfl

/-! ## The same records in the same surroundings -/

theorem Frame.span_enclose (frame : Frame) (first second : List Statement) :
    (frame.enclose first).span = (frame.enclose second).span := by
  cases frame <;> rfl

theorem Frame.isDocumentation_enclose (frame : Frame) (body : List Statement) :
    (frame.enclose body).isDocumentation = false := by
  cases frame <;> rfl

/-- Lists with the same records make statements with the same records, and for a function they
must have the same lines too. -/
theorem Frame.functions_enclose {frame : Frame} {first second : List Statement}
    (hrecords : functionsOfAll first = functionsOfAll second)
    (hlines : frame.isFunction = true → bodyLines first = bodyLines second) :
    (frame.enclose first).functions = (frame.enclose second).functions := by
  cases frame with
  | function isAsync name span =>
      rw [enclose, enclose, Statement.functions, Statement.functions, hlines rfl, hrecords]
  | classDef name span => exact hrecords
  | clause span before after =>
      rw [enclose, enclose, Statement.functions, Statement.functions,
        functionsOfBlocks_eq_flatten, functionsOfBlocks_eq_flatten, List.flatten_append,
        List.flatten_append, List.flatten_cons, List.flatten_cons, functionsOfAll_append,
        functionsOfAll_append, functionsOfAll_append, functionsOfAll_append, hrecords]

theorem statementLines_append_cons {before after : List Statement} {first second : Statement}
    (hspan : first.span = second.span) :
    statementLines (before ++ first :: after) = statementLines (before ++ second :: after) := by
  induction before with
  | nil => rw [List.nil_append, List.nil_append, statementLines, statementLines, hspan]
  | cons statement before ih =>
      rw [List.cons_append, List.cons_append, statementLines, statementLines, ih]

/-- The lines of a body depend on each statement through its span, and on the first one also
through whether it is documentation. -/
theorem bodyLines_append_cons {before after : List Statement} {first second : Statement}
    (hspan : first.span = second.span)
    (hdocumentation : first.isDocumentation = second.isDocumentation) :
    bodyLines (before ++ first :: after) = bodyLines (before ++ second :: after) := by
  cases before with
  | nil =>
      rw [List.nil_append, List.nil_append, bodyLines, bodyLines, hdocumentation, statementLines,
        statementLines, hspan]
  | cons statement before =>
      rw [List.cons_append, List.cons_append, bodyLines, bodyLines,
        statementLines_append_cons hspan, statementLines, statementLines,
        statementLines_append_cons hspan]

/-- Lists with the same records make modules with the same records, wherever they stand.  Only
as the body of a function they must have the same lines too. -/
theorem Surroundings.functionsOfAll_fill (surroundings : Surroundings)
    {first second : List Statement} (hrecords : functionsOfAll first = functionsOfAll second)
    (hlines : surroundings.isFunctionBody = true → bodyLines first = bodyLines second) :
    functionsOfAll (surroundings.fill first) = functionsOfAll (surroundings.fill second) := by
  induction surroundings generalizing first second with
  | module => exact hrecords
  | within frame before after outer ih =>
      apply ih
      · rw [functionsOfAll_append, functionsOfAll_append, functionsOfAll, functionsOfAll,
          Frame.functions_enclose hrecords hlines]
      · -- further out nothing changes but the insides of one statement
        intro _
        apply bodyLines_append_cons (frame.span_enclose first second)
        rw [frame.isDocumentation_enclose, frame.isDocumentation_enclose]

/-- A class or a statement with clauses has the records of what stands in it. -/
theorem Surroundings.functionsOfAll_fill_group {surroundings : Surroundings}
    (hplace : surroundings.isFunctionBody = false) {statement : Statement}
    (hgroup : statement.isGroup = true) (before after : List Statement) :
    functionsOfAll (surroundings.fill (before ++ statement.children ++ after)) =
      functionsOfAll (surroundings.fill (before ++ statement :: after)) := by
  apply surroundings.functionsOfAll_fill
  · rw [functionsOfAll_append, functionsOfAll_append, functionsOfAll_append, functionsOfAll,
      Statement.functions_of_isGroup hgroup, List.append_assoc]
  · intro hbody
    rw [hplace] at hbody
    cases hbody

/-! ## All functions of a module -/

/-- The functions of a module, whatever the spans of its statements are.  There is one record for
each place where a function stands, and the records come in the order of the places.  The records
of the functions at or inside a statement follow one another, the one of a function before those
inside it, and they are what the statement has when it stands alone.  A class or a statement with
clauses that is not directly in the body of a function may be replaced by what stands in it. -/
theorem functions_by_place (body : List Statement) :
    ∃ placed : List (List Nat × FunctionRecord),
      functionsOfAll body = placed.map Prod.snd ∧
      placed.Pairwise (fun first second => first.1 < second.1) ∧
      (∀ place record, (place, record) ∈ placed ↔
        ∃ function, StandsAt place function body ∧ function.record? = some record) ∧
      (∀ place outer, StandsAt place outer body →
        ∃ before inside after, placed = before ++ inside ++ after ∧
          (∀ other ∈ placed, other ∈ inside ↔ place <+: other.1) ∧
          inside.map Prod.snd = functionsOfAll [outer] ∧
          ∀ record, outer.record? = some record →
            functionsOfAll [outer] = record :: functionsOfAll outer.children) ∧
      (∀ place statement, StandsAt place statement body →
        ∃ (surroundings : Surroundings) (before after : List Statement),
          surroundings.fill (before ++ statement :: after) = body) ∧
      ∀ (surroundings : Surroundings) before statement after,
        surroundings.fill (before ++ statement :: after) = body →
        surroundings.isFunctionBody = false → statement.isGroup = true →
          functionsOfAll (surroundings.fill (before ++ statement.children ++ after)) =
            functionsOfAll body := by
  refine ⟨placedFunctions body, (map_snd_placedFunctions body).symm, pairwise_placedFunctions body,
    fun place record => mem_placedFunctions_iff, ?_, fun place statement => StandsAt.exists_fill,
    ?_⟩
  · intro place outer hstands
    obtain ⟨before, inside, after, hplaced, hrecords, hinside⟩ := hstands.exists_placedFunctions_eq
    refine ⟨before, inside, after, hplaced, hinside, hrecords, fun record hrecord => ?_⟩
    rw [functionsOfAll, functionsOfAll, List.append_nil, outer.functions_eq_append, hrecord]
    rfl
  · rintro surroundings before statement after rfl hplace hgroup
    exact surroundings.functionsOfAll_fill_group hplace hgroup before after

example :
    (placedFunctions
      [.simple (.single 1),
        .classDef "Shelf" (.between 2 9)
          [.function false "load" (.between 3 7)
            [.compound (.between 4 7)
              [[.simple (.single 5)], [.function true "retry" (.between 6 7) []]]],
            .function false "save" (.between 8 9) [.simple (.single 9)]],
        .function false "main" (.between 10 11) [.simple (.single 11)]]).map
      (fun placed => (placed.1, placed.2.name)) =
      [([1, 0], "load"), ([1, 0, 0, 1], "retry"), ([1, 1], "save"), ([2], "main")] := by
  decide

end Untested.Python
