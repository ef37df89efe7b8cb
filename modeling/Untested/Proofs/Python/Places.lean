/-
# Functions by their places

A statement of a module is found by its place, a path of positions from the outermost statement
to the innermost one.  Ordered as paths, a place comes before those inside it, and these before
all later ones, so the order of the places is the order of the source text.  The functions of a
module have one record for each place where a function stands, in the order of the places.  What
stands around a statement has no influence on the records at or inside it.
-/

import Untested.Proofs.Python.Preorder

namespace Untested.Python

/-! ## Places -/

/-- The statement that stands at a place, which leads through statements to those directly
inside them. -/
inductive StandsAt : List Nat → Statement → List Statement → Prop
  | here {position : Nat} {statement : Statement} {body : List Statement} :
      body[position]? = some statement → StandsAt [position] statement body
  | inside {position : Nat} {place : List Nat} {inner outer : Statement} {body : List Statement} :
      body[position]? = some outer → StandsAt place inner outer.children →
        StandsAt (position :: place) inner body

theorem not_standsAt_nil {statement : Statement} {body : List Statement} :
    ¬ StandsAt [] statement body := by
  intro hstands
  cases hstands

theorem standsAt_cons_iff {position : Nat} {place : List Nat} {statement : Statement}
    {body : List Statement} :
    StandsAt (position :: place) statement body ↔
      ∃ outer, body[position]? = some outer ∧
        (place = [] ∧ statement = outer ∨ StandsAt place statement outer.children) := by
  constructor
  · intro hstands
    cases hstands with
    | here hposition => exact ⟨statement, hposition, .inl ⟨rfl, rfl⟩⟩
    | inside hposition hinside => exact ⟨_, hposition, .inr hinside⟩
  · rintro ⟨outer, hposition, ⟨rfl, rfl⟩ | hinside⟩
    · exact .here hposition
    · exact .inside hposition hinside

/-- A place behind that of a statement leads to the statement itself or into it. -/
theorem StandsAt.of_append {place rest : List Nat} {outer inner : Statement}
    {body : List Statement} (houter : StandsAt place outer body)
    (hinner : StandsAt (place ++ rest) inner body) :
    rest = [] ∧ inner = outer ∨ StandsAt rest inner outer.children := by
  induction houter with
  | here hposition =>
      obtain ⟨other, hother, hinside⟩ := standsAt_cons_iff.1 hinner
      obtain rfl := Option.some.inj (hposition.symm.trans hother)
      exact hinside
  | inside hposition hplace ih =>
      obtain ⟨other, hother, hinside⟩ := standsAt_cons_iff.1 hinner
      obtain rfl := Option.some.inj (hposition.symm.trans hother)
      rcases hinside with ⟨hnil, -⟩ | hinside
      · rw [(List.append_eq_nil_iff.1 hnil).1] at hplace
        exact absurd hplace not_standsAt_nil
      · exact ih hinside

theorem StandsAt.exists_within {place : List Nat} {statement : Statement}
    {body : List Statement} (hstands : StandsAt place statement body) :
    ∃ outer ∈ body, statement.Within outer := by
  induction hstands with
  | here hposition => exact ⟨_, List.mem_of_getElem? hposition, .self _⟩
  | inside hposition _ ih =>
      obtain ⟨child, hchild, hwithin⟩ := ih
      exact ⟨_, List.mem_of_getElem? hposition, .inside hchild hwithin⟩

/-! ## Statements listed with their places -/

mutual

/-- A statement and the statements inside it, each with the way that leads to it from there. -/
def Statement.placed : Statement → List (List Nat × Statement)
  | .function isAsync name span body =>
    ([], .function isAsync name span body) :: placedFrom 0 body
  | .classDef name span body => ([], .classDef name span body) :: placedFrom 0 body
  | .compound span blocks => ([], .compound span blocks) :: placedInBlocks 0 blocks
  | .expression span value => [([], .expression span value)]
  | .simple span => [([], .simple span)]

/-- The statements at or inside those of a list, whose positions are counted from a given one. -/
def placedFrom (position : Nat) : List Statement → List (List Nat × Statement)
  | [] => []
  | statement :: rest =>
    statement.placed.map (Prod.map (position :: ·) id) ++ placedFrom (position + 1) rest

/-- The statements at or inside those of some clauses, one clause counted on from the other. -/
def placedInBlocks (position : Nat) : List (List Statement) → List (List Nat × Statement)
  | [] => []
  | block :: rest => placedFrom position block ++ placedInBlocks (position + block.length) rest

end

theorem placedFrom_append (position : Nat) (front back : List Statement) :
    placedFrom position (front ++ back) =
      placedFrom position front ++ placedFrom (position + front.length) back := by
  induction front generalizing position with
  | nil => rfl
  | cons statement front ih =>
      rw [List.cons_append, placedFrom, placedFrom, ih, List.append_assoc, List.length_cons,
        Nat.add_assoc, Nat.add_comm 1]

theorem placedInBlocks_eq (position : Nat) (blocks : List (List Statement)) :
    placedInBlocks position blocks = placedFrom position blocks.flatten := by
  induction blocks generalizing position with
  | nil => rfl
  | cons block rest ih => rw [placedInBlocks, ih, List.flatten_cons, placedFrom_append]

theorem Statement.placed_eq (statement : Statement) :
    statement.placed = ([], statement) :: placedFrom 0 statement.children := by
  cases statement with
  | function | classDef | expression | simple => rfl
  | compound span blocks => rw [Statement.placed, placedInBlocks_eq]; rfl

/-- What holds of a statement as soon as it holds of those directly inside it holds of all. -/
theorem Statement.forall_of_children {motive : Statement → Prop}
    (step : ∀ statement : Statement, (∀ child ∈ statement.children, motive child) →
      motive statement) (statement : Statement) : motive statement := by
  apply step
  intro child hchild
  have hsize : sizeOf child < sizeOf statement := by
    cases statement with
    | function | classDef =>
        have := List.sizeOf_lt_of_mem hchild
        simp only [Statement.children] at this
        simp only [Statement.function.sizeOf_spec, Statement.classDef.sizeOf_spec]
        omega
    | compound span blocks =>
        obtain ⟨block, hblock, hmem⟩ := List.mem_flatten.1 hchild
        have := List.sizeOf_lt_of_mem hblock
        have := List.sizeOf_lt_of_mem hmem
        simp only [Statement.compound.sizeOf_spec]
        omega
    | expression | simple => exact absurd hchild List.not_mem_nil
  exact forall_of_children step child
termination_by statement

theorem map_snd_placedFrom_of {body : List Statement}
    (hbody : ∀ statement ∈ body, statement.placed.map Prod.snd = statement.preorder)
    (position : Nat) : (placedFrom position body).map Prod.snd = preorderOfAll body := by
  induction body generalizing position with
  | nil => rfl
  | cons statement rest ih =>
      rw [List.forall_mem_cons] at hbody
      rw [placedFrom, preorderOfAll, List.map_append, List.map_map, ih hbody.2, ← hbody.1]
      rfl

theorem Statement.map_snd_placed (statement : Statement) :
    statement.placed.map Prod.snd = statement.preorder := by
  induction statement using Statement.forall_of_children with
  | step statement ih =>
      rw [placed_eq, preorder_eq, List.map_cons, map_snd_placedFrom_of ih]

/-- Without the places, the list has the statements in the order of the source text. -/
theorem map_snd_placedFrom (position : Nat) (body : List Statement) :
    (placedFrom position body).map Prod.snd = preorderOfAll body :=
  map_snd_placedFrom_of (fun statement _ => statement.map_snd_placed) position

theorem mem_placedFrom_iff {position : Nat} {place : List Nat} {inner : Statement}
    {body : List Statement} :
    (place, inner) ∈ placedFrom position body ↔
      ∃ count rest outer, place = (position + count) :: rest ∧ body[count]? = some outer ∧
        (rest, inner) ∈ outer.placed := by
  induction body generalizing position with
  | nil => simp [placedFrom]
  | cons statement body ih =>
      rw [placedFrom, List.mem_append, ih, List.mem_map]
      constructor
      · rintro (⟨⟨rest, other⟩, hmem, heq⟩ | ⟨count, rest, outer, rfl, hcount, hmem⟩)
        · obtain ⟨rfl, rfl⟩ := Prod.mk.inj heq
          exact ⟨0, rest, statement, rfl, rfl, hmem⟩
        · exact ⟨count + 1, rest, outer, by rw [Nat.add_assoc, Nat.add_comm 1], hcount, hmem⟩
      · rintro ⟨count, rest, outer, rfl, hcount, hmem⟩
        cases count with
        | zero =>
            obtain rfl := Option.some.inj hcount
            exact .inl ⟨(rest, inner), hmem, rfl⟩
        | succ count =>
            exact .inr ⟨count, rest, outer, by rw [Nat.add_assoc, Nat.add_comm 1], hcount, hmem⟩

/-- The list has every statement with its place, and nothing else. -/
theorem mem_placedFrom_zero_iff {place : List Nat} {statement : Statement}
    {body : List Statement} :
    (place, statement) ∈ placedFrom 0 body ↔ StandsAt place statement body := by
  induction place generalizing body with
  | nil => simp [mem_placedFrom_iff, not_standsAt_nil]
  | cons position place ih =>
      rw [mem_placedFrom_iff, standsAt_cons_iff]
      constructor
      · rintro ⟨count, rest, outer, hplace, hcount, hmem⟩
        rw [Nat.zero_add] at hplace
        obtain ⟨rfl, rfl⟩ := List.cons.inj hplace
        rw [Statement.placed_eq, List.mem_cons, Prod.mk.injEq, ih] at hmem
        exact ⟨outer, hcount, hmem⟩
      · rintro ⟨outer, hcount, hmem⟩
        rw [← ih, ← Prod.mk.injEq, ← List.mem_cons, ← Statement.placed_eq] at hmem
        exact ⟨position, place, outer, by rw [Nat.zero_add], hcount, hmem⟩

theorem Statement.mem_placed_iff {place : List Nat} {inner outer : Statement} :
    (place, inner) ∈ outer.placed ↔
      place = [] ∧ inner = outer ∨ StandsAt place inner outer.children := by
  rw [placed_eq, List.mem_cons, Prod.mk.injEq, mem_placedFrom_zero_iff]

/-! ## The order of the places -/

theorem pairwise_placedFrom_of {body : List Statement}
    (hbody : ∀ statement ∈ body, statement.placed.Pairwise fun first second => first.1 < second.1)
    (position : Nat) :
    (placedFrom position body).Pairwise fun first second => first.1 < second.1 := by
  induction body generalizing position with
  | nil => exact .nil
  | cons statement rest ih =>
      rw [List.forall_mem_cons] at hbody
      rw [placedFrom, List.pairwise_append]
      refine ⟨?_, ih hbody.2 _, ?_⟩
      · rw [List.pairwise_map]
        exact hbody.1.imp fun hlt => List.Lex.cons hlt
      · intro first hfirst second hsecond
        obtain ⟨inner, -, rfl⟩ := List.mem_map.1 hfirst
        obtain ⟨place, other⟩ := second
        obtain ⟨count, _, _, rfl, -⟩ := mem_placedFrom_iff.1 hsecond
        exact List.Lex.rel (by omega)

theorem Statement.pairwise_placed (statement : Statement) :
    statement.placed.Pairwise fun first second => first.1 < second.1 := by
  induction statement using Statement.forall_of_children with
  | step statement ih =>
      rw [placed_eq, List.pairwise_cons]
      refine ⟨fun other hother => ?_, pairwise_placedFrom_of ih 0⟩
      obtain ⟨place, inner⟩ := other
      obtain ⟨_, _, _, rfl, -⟩ := mem_placedFrom_iff.1 hother
      exact List.Lex.nil

/-- The places ascend. -/
theorem pairwise_placedFrom (position : Nat) (body : List Statement) :
    (placedFrom position body).Pairwise fun first second => first.1 < second.1 :=
  pairwise_placedFrom_of (fun statement _ => statement.pairwise_placed) position

/-- A statement of a list, with those inside it, stands between those before and those behind. -/
theorem exists_placedFrom_eq {position : Nat} {statement : Statement} {body : List Statement}
    (hposition : body[position]? = some statement) :
    ∃ before after, placedFrom 0 body =
      before ++ statement.placed.map (Prod.map (position :: ·) id) ++ after := by
  obtain ⟨hlt, rfl⟩ := List.getElem?_eq_some_iff.1 hposition
  refine ⟨placedFrom 0 (body.take position),
    placedFrom (position + 1) (body.drop (position + 1)), ?_⟩
  conv_lhs => rw [← List.take_append_drop position body, List.drop_eq_getElem_cons hlt,
    placedFrom_append, placedFrom]
  rw [List.length_take_of_le (Nat.le_of_lt hlt), Nat.zero_add, List.append_assoc]

/-- The places at or inside a statement follow one another without any other between them. -/
theorem StandsAt.exists_placedFrom_eq {place : List Nat} {statement : Statement}
    {body : List Statement} (hstands : StandsAt place statement body) :
    ∃ before after, placedFrom 0 body =
      before ++ statement.placed.map (Prod.map (place ++ ·) id) ++ after := by
  induction hstands with
  | here hposition => exact Python.exists_placedFrom_eq hposition
  | @inside position place inner outer body hposition hplace ih =>
      obtain ⟨before, after, hbody⟩ := Python.exists_placedFrom_eq hposition
      obtain ⟨before', after', hchildren⟩ := ih
      refine ⟨before ++ ([position], outer) :: before'.map (Prod.map (position :: ·) id),
        after'.map (Prod.map (position :: ·) id) ++ after, ?_⟩
      rw [hbody, outer.placed_eq, hchildren]
      simp [Function.comp_def]

/-- A statement of a module that has a place behind that of another statement is listed with
it. -/
theorem StandsAt.mem_placed_of_prefix {place : List Nat} {statement : Statement}
    {body : List Statement} (hstands : StandsAt place statement body)
    {other : List Nat × Statement} (hother : other ∈ placedFrom 0 body)
    (hbehind : place <+: other.1) :
    other ∈ statement.placed.map (Prod.map (place ++ ·) id) := by
  obtain ⟨_, inner⟩ := other
  obtain ⟨rest, rfl⟩ := hbehind
  have hinner := hstands.of_append (mem_placedFrom_zero_iff.1 hother)
  exact List.mem_map.2 ⟨(rest, inner), Statement.mem_placed_iff.2 hinner, rfl⟩

/-! ## Functions listed with their places -/

/-- The record of a function together with its place. -/
def placedRecord? (entry : List Nat × Statement) : Option (List Nat × FunctionRecord) :=
  entry.2.record?.map fun record => (entry.1, record)

theorem placedRecord?_eq_some_iff {entry : List Nat × Statement} {place : List Nat}
    {record : FunctionRecord} :
    placedRecord? entry = some (place, record) ↔
      entry.1 = place ∧ entry.2.record? = some record := by
  simp only [placedRecord?, Option.map_eq_some_iff, Prod.mk.injEq]
  grind

theorem map_snd_filterMap_placedRecord? (placed : List (List Nat × Statement)) :
    (placed.filterMap placedRecord?).map Prod.snd =
      (placed.map Prod.snd).filterMap Statement.record? := by
  rw [List.map_filterMap, List.filterMap_map]
  congr
  funext entry
  rw [placedRecord?, Option.map_map]
  exact Option.map_id'

/-- The functions of a module, each with its place. -/
def placedFunctions (body : List Statement) : List (List Nat × FunctionRecord) :=
  (placedFrom 0 body).filterMap placedRecord?

theorem map_snd_placedFunctions (body : List Statement) :
    (placedFunctions body).map Prod.snd = functionsOfAll body := by
  rw [placedFunctions, map_snd_filterMap_placedRecord?, map_snd_placedFrom, functionsOfAll_eq]

theorem mem_placedFunctions_iff {body : List Statement} {place : List Nat}
    {record : FunctionRecord} :
    (place, record) ∈ placedFunctions body ↔
      ∃ function, StandsAt place function body ∧ function.record? = some record := by
  simp only [placedFunctions, List.mem_filterMap, placedRecord?_eq_some_iff, Prod.exists,
    mem_placedFrom_zero_iff]
  constructor
  · rintro ⟨_, function, hstands, rfl, hrecord⟩
    exact ⟨function, hstands, hrecord⟩
  · rintro ⟨function, hstands, hrecord⟩
    exact ⟨place, function, hstands, rfl, hrecord⟩

theorem pairwise_placedFunctions (body : List Statement) :
    (placedFunctions body).Pairwise fun first second => first.1 < second.1 := by
  rw [placedFunctions, List.pairwise_filterMap]
  refine (pairwise_placedFrom 0 body).imp fun hlt first hfirst second hsecond => ?_
  rw [← (placedRecord?_eq_some_iff.1 hfirst).1, ← (placedRecord?_eq_some_iff.1 hsecond).1]
  exact hlt

/-- The functions at or inside a statement follow one another, and their records are those that
the statement has when it stands alone. -/
theorem StandsAt.exists_placedFunctions_eq {place : List Nat} {statement : Statement}
    {body : List Statement} (hstands : StandsAt place statement body) :
    ∃ before inside after, placedFunctions body = before ++ inside ++ after ∧
      inside.map Prod.snd = functionsOfAll [statement] ∧
      ∀ other ∈ placedFunctions body, other ∈ inside ↔ place <+: other.1 := by
  obtain ⟨before, after, hbody⟩ := hstands.exists_placedFrom_eq
  refine ⟨before.filterMap placedRecord?,
    (statement.placed.map (Prod.map (place ++ ·) id)).filterMap placedRecord?,
    after.filterMap placedRecord?, ?_, ?_, ?_⟩
  · rw [placedFunctions, hbody, List.filterMap_append, List.filterMap_append]
  · have hplaced : (statement.placed.map (Prod.map (place ++ ·) id)).map Prod.snd =
        statement.preorder := by
      rw [List.map_map, ← statement.map_snd_placed]
      rfl
    rw [map_snd_filterMap_placedRecord?, hplaced, ← statement.functions_eq, functionsOfAll,
      functionsOfAll, List.append_nil]
  · rintro ⟨_, record⟩ hother
    constructor
    · intro hinside
      obtain ⟨entry, hentry, hrecord⟩ := List.mem_filterMap.1 hinside
      obtain ⟨rfl, -⟩ := placedRecord?_eq_some_iff.1 hrecord
      obtain ⟨inner, -, rfl⟩ := List.mem_map.1 hentry
      exact List.prefix_append place inner.1
    · intro hbehind
      obtain ⟨entry, hentry, hrecord⟩ := List.mem_filterMap.1 hother
      obtain ⟨rfl, -⟩ := placedRecord?_eq_some_iff.1 hrecord
      exact List.mem_filterMap.2 ⟨entry, hstands.mem_placed_of_prefix hentry hbehind, hrecord⟩

end Untested.Python
