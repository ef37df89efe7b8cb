/-
# Spans of an outline

The nodes of a syntax tree lie within one another, and nodes side by side follow one another.  The
spans of statements are not the places of nodes: a span ends with the last token that is no
trivia, and it leaves out decorators.  They lie within one another and follow one another all the
same, since the last token of a node is at or behind the last token of every part of it.
-/

import Untested.Proofs.Python.Nesting
import Untested.Proofs.Python.SyntaxTree
import Untested.Python.Source

namespace Untested.Python

/-! ## Places -/

/-- A place is at or before another one: it is on an earlier line, or on the same line and not
further to the right. -/
instance : LE Position where
  le first second :=
    first.row < second.row ∨ first.row = second.row ∧ first.column ≤ second.column

instance (first second : Position) : Decidable (first ≤ second) :=
  inferInstanceAs (Decidable (_ ∨ _))

theorem Position.row_le_row {first second : Position} (hle : first ≤ second) :
    first.row ≤ second.row := by
  rcases hle with hrow | ⟨hrow, _⟩
  · exact Nat.le_of_lt hrow
  · exact Nat.le_of_eq hrow

namespace Node

/-- A node lies where its children do, and they follow one another. -/
structure IsLaidOut (node : Node) : Prop where
  start_le_stop : node.label.start ≤ node.label.stop
  inside : ∀ child ∈ node.children,
    node.label.start ≤ child.label.start ∧ child.label.stop ≤ node.label.stop
  apart : node.children.Pairwise fun earlier later => earlier.label.stop ≤ later.label.start

theorem isLaidOut_iff {node : Node} : node.IsLaidOut ↔
    node.label.start ≤ node.label.stop ∧
    (∀ child ∈ node.children,
      node.label.start ≤ child.label.start ∧ child.label.stop ≤ node.label.stop) ∧
    node.children.Pairwise fun earlier later => earlier.label.stop ≤ later.label.start :=
  ⟨fun ⟨ordered, inside, apart⟩ => ⟨ordered, inside, apart⟩,
    fun ⟨ordered, inside, apart⟩ => ⟨ordered, inside, apart⟩⟩

instance (node : Node) : Decidable node.IsLaidOut :=
  decidable_of_iff _ isLaidOut_iff.symm

/-- One node lies on earlier lines than another one, but for a line that they may share. -/
def Precedes (earlier later : Node) : Prop :=
  earlier.label.stop.row ≤ later.label.start.row

variable {node child inner : Node}

/-- A node of a tree lies on the lines of the tree. -/
theorem rows_of_mem_preorder (hlaid : ∀ inner ∈ node.preorder, inner.IsLaidOut)
    (hinner : inner ∈ node.preorder) :
    node.label.start.row ≤ inner.label.start.row ∧
      inner.label.start.row ≤ inner.label.stop.row ∧
        inner.label.stop.row ≤ node.label.stop.row := by
  induction node using forall_of_children with
  | step node ih =>
      have hself := hlaid node node.mem_preorder_self
      rcases mem_preorder_iff.1 hinner with rfl | ⟨child, hchild, hinner⟩
      · exact ⟨Nat.le_refl _, Position.row_le_row hself.start_le_stop, Nat.le_refl _⟩
      · have hrows := ih child hchild
          (fun other hother => hlaid other (mem_preorder_of_mem_children hchild hother)) hinner
        have hstart := Position.row_le_row (hself.inside child hchild).1
        have hstop := Position.row_le_row (hself.inside child hchild).2
        omega

/-- Parts of nodes that follow one another follow one another. -/
theorem Precedes.of_mem_preorder {earlier later first second : Node}
    (hprecedes : earlier.Precedes later) (hearlier : ∀ inner ∈ earlier.preorder, inner.IsLaidOut)
    (hlater : ∀ inner ∈ later.preorder, inner.IsLaidOut) (hfirst : first ∈ earlier.preorder)
    (hsecond : second ∈ later.preorder) : first.Precedes second := by
  have hstop := (rows_of_mem_preorder hearlier hfirst).2.2
  have hstart := (rows_of_mem_preorder hlater hsecond).1
  rw [Precedes] at hprecedes ⊢
  omega

theorem IsLaidOut.pairwise_precedes (hlaid : node.IsLaidOut) : node.children.Pairwise Precedes :=
  hlaid.apart.imp Position.row_le_row

theorem isTrivia_eq_false (hsignificant : node.isSignificant = true) : node.isTrivia = false := by
  rw [isSignificant, Bool.and_eq_true, Bool.not_eq_true'] at hsignificant
  exact hsignificant.2

/-! ## The last token -/

/-- The last token among some nodes is that of the last one that is no trivia. -/
theorem lastTokenAmong_cases (nodes : List Node) :
    (lastTokenAmong nodes = none ∧ ∀ node ∈ nodes, node.isTrivia = true) ∨
      ∃ before last after, nodes = before ++ last :: after ∧ last.isTrivia = false ∧
        (∀ node ∈ after, node.isTrivia = true) ∧
          lastTokenAmong nodes = some last.lastToken := by
  induction nodes with
  | nil => exact .inl ⟨rfl, fun _ hnode => absurd hnode List.not_mem_nil⟩
  | cons node rest ih =>
      rw [lastTokenAmong]
      rcases ih with ⟨hnone, htrivia⟩ | ⟨before, last, after, rfl, hlast, hafter, hsome⟩
      · rw [hnone]
        dsimp only
        split
        · rename_i hnode
          exact .inl ⟨rfl, List.forall_mem_cons.2 ⟨hnode, htrivia⟩⟩
        · rename_i hnode
          exact .inr ⟨[], node, rest, rfl, Bool.eq_false_iff.2 hnode, htrivia, rfl⟩
      · rw [hsome]
        exact .inr ⟨node :: before, last, after, rfl, hlast, hafter, rfl⟩

/-- A node is its own last token, or it has the last token of its last child that is no trivia. -/
theorem lastToken_cases (node : Node) :
    (node.lastToken = node ∧ ∀ child ∈ node.children, child.isTrivia = true) ∨
      ∃ before last after, node.children = before ++ last :: after ∧ last.isTrivia = false ∧
        (∀ child ∈ after, child.isTrivia = true) ∧ node.lastToken = last.lastToken := by
  cases node with
  | mk label children =>
      rw [lastToken]
      rcases lastTokenAmong_cases children with
        ⟨hnone, htrivia⟩ | ⟨before, last, after, rfl, hlast, hafter, hsome⟩
      · exact .inl ⟨by rw [hnone]; rfl, htrivia⟩
      · exact .inr ⟨before, last, after, rfl, hlast, hafter, by rw [hsome]; rfl⟩

theorem lastToken_mem_preorder (node : Node) : node.lastToken ∈ node.preorder := by
  induction node using forall_of_children with
  | step node ih =>
      rcases node.lastToken_cases with ⟨hself, _⟩ | ⟨before, last, after, hchildren, _, _, hlast⟩
      · rw [hself]
        exact node.mem_preorder_self
      · have hmem : last ∈ node.children := by
          rw [hchildren]
          exact List.mem_append_right _ List.mem_cons_self
        rw [hlast]
        exact mem_preorder_of_mem_children hmem (ih last hmem)

/-- A token ends on one of its lines. -/
theorem endLine_bounds {token : Node} (hrows : token.label.start.row ≤ token.label.stop.row) :
    token.firstLine ≤ token.endLine ∧ token.endLine ≤ token.label.stop.row + 1 := by
  rw [firstLine, endLine]
  split
  · rename_i hcolumn
    rw [Bool.and_eq_true, decide_eq_true_eq, decide_eq_true_eq] at hcolumn
    omega
  · omega

/-- The last token of a node ends on one of the lines of the node. -/
theorem lastLine_bounds (hlaid : ∀ inner ∈ node.preorder, inner.IsLaidOut) :
    node.firstLine ≤ node.lastLine ∧ node.lastLine ≤ node.label.stop.row + 1 := by
  obtain ⟨hstart, hrows, hstop⟩ := rows_of_mem_preorder hlaid node.lastToken_mem_preorder
  have hend := endLine_bounds hrows
  rw [firstLine] at hend ⊢
  rw [lastLine]
  omega

/-- No child that is more than trivia ends behind the last token of a node. -/
theorem lastLine_le_of_mem_children (hlaid : ∀ inner ∈ node.preorder, inner.IsLaidOut)
    (hchild : child ∈ node.children) (htrivia : child.isTrivia = false) :
    child.lastLine ≤ node.lastLine := by
  have hbelow (other : Node) (hother : other ∈ node.children) :
      ∀ inner ∈ other.preorder, inner.IsLaidOut := fun inner hinner =>
    hlaid inner (mem_preorder_of_mem_children hother hinner)
  rcases node.lastToken_cases with
    ⟨_, hall⟩ | ⟨before, last, after, hchildren, _, hafter, htoken⟩
  · rw [hall child hchild] at htrivia
    exact absurd htrivia (by decide)
  · have hlastLine : node.lastLine = last.lastLine := by rw [lastLine, lastLine, htoken]
    have hapart := (hlaid node node.mem_preorder_self).apart
    have hmem := hchild
    rw [hchildren] at hapart hmem
    rcases List.mem_append.1 hmem with hbefore | hmem
    · -- a child before the last one ends where that one begins, or earlier
      have hlast : last ∈ node.children := by
        rw [hchildren]
        exact List.mem_append_right _ List.mem_cons_self
      have hprecedes := Position.row_le_row
        ((List.pairwise_append.1 hapart).2.2 child hbefore last List.mem_cons_self)
      have hchildLine := (lastLine_bounds (hbelow child hchild)).2
      have hlastBounds := (lastLine_bounds (hbelow last hlast)).1
      rw [firstLine] at hlastBounds
      omega
    · rcases List.mem_cons.1 hmem with rfl | hmem
      · exact Nat.le_of_eq hlastLine.symm
      · rw [hafter child hmem] at htrivia
        exact absurd htrivia (by decide)

end Node

/-! ## Blocks -/

/-- A topmost block lies below one of the nodes, and ends with it at the latest. -/
theorem mem_topBlocks {nodes : List Node} (hlaid : ∀ inner ∈ preorderAmong nodes, inner.IsLaidOut)
    {block : Node} (hblock : block ∈ topBlocks nodes) :
    ∃ node ∈ nodes, node.isTrivia = false ∧ block ∈ node.preorder ∧
      block.lastLine ≤ node.lastLine := by
  fun_induction topBlocks nodes with
  | case1 => exact absurd hblock List.not_mem_nil
  | case2 label children rest hsignificant ih =>
      rw [preorderAmong, List.forall_mem_append] at hlaid
      obtain ⟨node, hnode, hbelow⟩ := ih hlaid.2 hblock
      exact ⟨node, List.mem_cons_of_mem _ hnode, hbelow⟩
  | case3 label children rest hsignificant hkind ih =>
      rw [preorderAmong, List.forall_mem_append] at hlaid
      rw [Bool.not_eq_true, Bool.not_eq_false'] at hsignificant
      rcases List.mem_cons.1 hblock with rfl | hblock
      · exact ⟨_, List.mem_cons_self, Node.isTrivia_eq_false hsignificant, Node.mem_preorder_self _,
          Nat.le_refl _⟩
      · obtain ⟨node, hnode, hbelow⟩ := ih hlaid.2 hblock
        exact ⟨node, List.mem_cons_of_mem _ hnode, hbelow⟩
  | case4 label children rest hsignificant hkind ih ihrest =>
      rw [preorderAmong, List.forall_mem_append] at hlaid
      rw [Bool.not_eq_true, Bool.not_eq_false'] at hsignificant
      rcases List.mem_append.1 hblock with hblock | hblock
      · have hchildren := hlaid.1
        rw [Node.preorder, List.forall_mem_cons] at hchildren
        obtain ⟨child, hchild, htrivia, hbelow, hline⟩ := ih hchildren.2 hblock
        have hmem : child ∈ (Node.mk label children).children := hchild
        exact ⟨_, List.mem_cons_self, Node.isTrivia_eq_false hsignificant,
          Node.mem_preorder_of_mem_children hmem hbelow,
          Nat.le_trans hline (Node.lastLine_le_of_mem_children hlaid.1 hmem htrivia)⟩
      · obtain ⟨node, hnode, hbelow⟩ := ihrest hlaid.2 hblock
        exact ⟨node, List.mem_cons_of_mem _ hnode, hbelow⟩

/-- The topmost blocks of nodes that follow one another do so too. -/
theorem pairwise_topBlocks {nodes : List Node}
    (hlaid : ∀ inner ∈ preorderAmong nodes, inner.IsLaidOut)
    (hapart : nodes.Pairwise Node.Precedes) : (topBlocks nodes).Pairwise Node.Precedes := by
  have hbelow {node : Node} {rest : List Node}
      (hlaid : ∀ inner ∈ preorderAmong (node :: rest), inner.IsLaidOut)
      (hapart : (node :: rest).Pairwise Node.Precedes) :
      ∀ first ∈ node.preorder, ∀ second ∈ topBlocks rest, first.Precedes second := by
    intro first hfirst second hsecond
    rw [preorderAmong, List.forall_mem_append] at hlaid
    obtain ⟨other, hother, _, hsecond, _⟩ := mem_topBlocks hlaid.2 hsecond
    refine (List.rel_of_pairwise_cons hapart hother).of_mem_preorder hlaid.1 ?_ hfirst hsecond
    exact fun inner hinner => hlaid.2 inner (mem_preorderAmong.2 ⟨other, hother, hinner⟩)
  fun_induction topBlocks nodes with
  | case1 => exact .nil
  | case2 label children rest hsignificant ih =>
      rw [preorderAmong, List.forall_mem_append] at hlaid
      exact ih hlaid.2 hapart.of_cons
  | case3 label children rest hsignificant hkind ih =>
      have hfirst := hbelow hlaid hapart _ (Node.mem_preorder_self _)
      rw [preorderAmong, List.forall_mem_append] at hlaid
      exact .cons hfirst (ih hlaid.2 hapart.of_cons)
  | case4 label children rest hsignificant hkind ih ihrest =>
      have hfirst := hbelow hlaid hapart
      rw [preorderAmong, List.forall_mem_append, Node.preorder, List.forall_mem_cons] at hlaid
      refine List.pairwise_append.2
        ⟨ih hlaid.1.2 hlaid.1.1.pairwise_precedes, ihrest hlaid.2 hapart.of_cons, ?_⟩
      intro first hmem
      obtain ⟨child, hchild, _, hinner, _⟩ := mem_topBlocks hlaid.1.2 hmem
      exact hfirst first (Node.mem_preorder_of_mem_children hchild hinner)

namespace Node

variable {node inner : Node}

/-- A child with a role is more than trivia. -/
theorem mem_children_of_childByField? {child : Node} {field : Field}
    (hchild : node.childByField? field = some child) :
    child ∈ node.children ∧ child.isTrivia = false := by
  have hrole := List.find?_some hchild
  rw [hasRole, Bool.and_eq_true, Bool.not_eq_true'] at hrole
  exact ⟨List.mem_of_find?_eq_some hchild, hrole.2⟩

theorem mem_blocks (hlaid : ∀ inner ∈ node.preorder, inner.IsLaidOut) {block : Node}
    (hblock : block ∈ node.blocks) : block ∈ node.preorder ∧ block.lastLine ≤ node.lastLine := by
  rw [blocks] at hblock
  split at hblock
  · rw [Option.mem_toList] at hblock
    obtain ⟨hmem, htrivia⟩ := mem_children_of_childByField? hblock
    exact ⟨mem_preorder_of_mem_children hmem block.mem_preorder_self,
      lastLine_le_of_mem_children hlaid hmem htrivia⟩
  · split at hblock
    · exact absurd hblock List.not_mem_nil
    · have hchildren := hlaid
      rw [preorder_eq, List.forall_mem_cons] at hchildren
      obtain ⟨child, hmem, htrivia, hbelow, hline⟩ := mem_topBlocks hchildren.2 hblock
      exact ⟨mem_preorder_of_mem_children hmem hbelow,
        Nat.le_trans hline (lastLine_le_of_mem_children hlaid hmem htrivia)⟩

theorem pairwise_blocks (hlaid : ∀ inner ∈ node.preorder, inner.IsLaidOut) :
    node.blocks.Pairwise Precedes := by
  rw [blocks]
  split
  · cases node.childByField? .body with
    | none => exact .nil
    | some body => exact List.pairwise_singleton _ body
  · split
    · exact .nil
    · rw [preorder_eq, List.forall_mem_cons] at hlaid
      exact pairwise_topBlocks hlaid.2 hlaid.1.pairwise_precedes

/-! ## Statements -/

/-- The statements inside a node end with the node at the latest. -/
theorem mem_statementNodes (hlaid : ∀ inner ∈ node.preorder, inner.IsLaidOut)
    (hinner : inner ∈ node.statementNodes) :
    inner ∈ node.preorder ∧ inner.lastLine ≤ node.lastLine := by
  rw [statementNodes, List.mem_flatMap] at hinner
  obtain ⟨block, hblock, hinner⟩ := hinner
  rw [significantChildren, List.mem_filter] at hinner
  obtain ⟨hbelow, hline⟩ := mem_blocks hlaid hblock
  have hinside : ∀ other ∈ block.preorder, other.IsLaidOut := fun other hother =>
    hlaid other (mem_preorder_trans hbelow hother)
  have hinnerLine := lastLine_le_of_mem_children hinside hinner.1 (isTrivia_eq_false hinner.2)
  have hmem := mem_preorder_of_mem_children hinner.1 inner.mem_preorder_self
  exact ⟨mem_preorder_trans hbelow hmem, Nat.le_trans hinnerLine hline⟩

/-- The statements of all blocks of a node follow one another. -/
theorem pairwise_statementNodes (hlaid : ∀ inner ∈ node.preorder, inner.IsLaidOut) :
    node.statementNodes.Pairwise Precedes := by
  rw [statementNodes, List.pairwise_flatMap]
  constructor
  · intro block hblock
    exact (hlaid block (mem_blocks hlaid hblock).1).pairwise_precedes.filter _
  · refine (pairwise_blocks hlaid).imp_of_mem ?_
    intro earlier later hearlier hlater hprecedes first hfirst second hsecond
    have hinside (block : Node) (hblock : block ∈ node.blocks) :
        ∀ other ∈ block.preorder, other.IsLaidOut := fun other hother =>
      hlaid other (mem_preorder_trans (mem_blocks hlaid hblock).1 hother)
    exact hprecedes.of_mem_preorder (hinside earlier hearlier) (hinside later hlater)
      (mem_preorder_of_mem_children (List.mem_filter.1 hfirst).1 first.mem_preorder_self)
      (mem_preorder_of_mem_children (List.mem_filter.1 hsecond).1 second.mem_preorder_self)

/-- The last token of a node is never before its first line. -/
theorem span_eq (hlaid : ∀ inner ∈ node.preorder, inner.IsLaidOut) :
    node.span.start = node.firstLine ∧ node.span.stop = node.lastLine :=
  ⟨rfl, Nat.max_eq_left (lastLine_bounds hlaid).1⟩

variable (source : List Char)

/-- The span of a statement is that of a node, which lies between the first line and the last
token of the statement's own. -/
theorem span_statement (hlaid : ∀ inner ∈ node.preorder, inner.IsLaidOut) :
    node.firstLine ≤ (node.statement source).span.start ∧
      (node.statement source).span.stop ≤ node.lastLine ∧
        ∃ inner ∈ node.preorder, (node.statement source).span = inner.span := by
  induction node using forall_of_children with
  | step node ih =>
      rcases node.statement_cases source with ⟨child, hchild, hstatement⟩ | ⟨hspan, _⟩
      · obtain ⟨hmem, htrivia⟩ := mem_children_of_childByField? hchild
        have hbelow {inner : Node} (hinner : inner ∈ child.preorder) : inner ∈ node.preorder :=
          mem_preorder_of_mem_children hmem hinner
        obtain ⟨hstart, hstop, inner, hinner, hspan⟩ :=
          ih child hmem fun inner hinner => hlaid inner (hbelow hinner)
        have hfirst := (rows_of_mem_preorder hlaid (hbelow child.mem_preorder_self)).1
        have hlast := lastLine_le_of_mem_children hlaid hmem htrivia
        rw [hstatement]
        refine ⟨?_, Nat.le_trans hstop hlast, inner, hbelow hinner, hspan⟩
        rw [firstLine] at hstart ⊢
        omega
      · obtain ⟨hstart, hstop⟩ := span_eq hlaid
        rw [hspan, hstart, hstop]
        exact ⟨Nat.le_refl _, Nat.le_refl _, node, node.mem_preorder_self, rfl⟩

end Node

/-- One statement ends at or before the line on which another one starts. -/
def Statement.Precedes (earlier later : Statement) : Prop :=
  earlier.span.stop ≤ later.span.start

/-- The statements directly inside a statement lie on its lines and follow one another. -/
structure Statement.IsLaidOut (statement : Statement) : Prop where
  inside : ∀ child ∈ statement.children, child.span.IsWithin statement.span
  apart : statement.children.Pairwise Statement.Precedes

variable (source : List Char)

/-- The statements of nodes that follow one another do so too. -/
theorem Node.Precedes.statement {earlier later : Node} (hprecedes : earlier.Precedes later)
    (hearlier : ∀ inner ∈ earlier.preorder, inner.IsLaidOut)
    (hlater : ∀ inner ∈ later.preorder, inner.IsLaidOut) :
    (earlier.statement source).Precedes (later.statement source) := by
  have hstop := (Node.span_statement source hearlier).2.1
  have hline := (Node.lastLine_bounds hearlier).2
  have hstart := (Node.span_statement source hlater).1
  rw [Node.Precedes] at hprecedes
  rw [Node.firstLine] at hstart
  rw [Statement.Precedes]
  omega

theorem pairwise_statements {nodes : List Node} (hapart : nodes.Pairwise Node.Precedes)
    (hlaid : ∀ node ∈ nodes, ∀ inner ∈ node.preorder, inner.IsLaidOut) :
    (nodes.map (Node.statement source)).Pairwise Statement.Precedes := by
  refine List.pairwise_map.2 (hapart.imp_of_mem ?_)
  intro earlier later hearlier hlater hprecedes
  exact hprecedes.statement source (hlaid earlier hearlier) (hlaid later hlater)

theorem Node.isLaidOut_statement {node : Node} (hlaid : ∀ inner ∈ node.preorder, inner.IsLaidOut) :
    (node.statement source).IsLaidOut := by
  induction node using Node.forall_of_children with
  | step node ih =>
      rcases node.statement_cases source with ⟨child, hchild, hself⟩ | ⟨hspan, hchildren⟩
      · have hmem := List.mem_of_find?_eq_some hchild
        rw [hself]
        exact ih child hmem fun inner hinner =>
          hlaid inner (Node.mem_preorder_of_mem_children hmem hinner)
      · have hbelow (other : Node) (hother : other ∈ node.statementNodes) :
            ∀ inner ∈ other.preorder, inner.IsLaidOut := fun inner hinner =>
          hlaid inner (Node.mem_preorder_trans (Node.mem_statementNodes hlaid hother).1 hinner)
        obtain ⟨hstart, hstop⟩ := Node.span_eq hlaid
        constructor
        · intro statement hstatement
          rw [hchildren, List.mem_map] at hstatement
          obtain ⟨inner, hinner, rfl⟩ := hstatement
          obtain ⟨hmem, hline⟩ := Node.mem_statementNodes hlaid hinner
          obtain ⟨hinnerStart, hinnerStop, _⟩ := Node.span_statement source (hbelow inner hinner)
          have hrow := (Node.rows_of_mem_preorder hlaid hmem).1
          rw [Node.firstLine] at hinnerStart
          rw [LineSpan.IsWithin, hspan, hstart, hstop, Node.firstLine]
          omega
        · rw [hchildren]
          exact pairwise_statements source (Node.pairwise_statementNodes hlaid) hbelow

/-! ## Outlines -/

variable {root : Node}

/-- The body lines of a function lie among its own. -/
theorem Statement.IsLaidOut.mem_lines_of_record? {statement : Statement}
    (hlaid : statement.IsLaidOut) {record : FunctionRecord}
    (hrecord : statement.record? = some record) {line : Nat} (hline : line ∈ record.body) :
    line ∈ statement.span.lines := by
  rw [Statement.body_eq_of_record? hrecord, bodyLines_eq, mem_statementLines] at hline
  obtain ⟨child, hchild, hline⟩ := hline
  exact (hlaid.inside child (codeOf_subset _ hchild)).mem_lines hline

/-- The spans of an outline are nested and in order.  A span goes from the first line of a node to
the line of its last token, which is never before the first one, so no span is cut short.  The
statements directly inside a statement, in its body or in any of its clauses, lie on its lines
and follow one another, across clauses too, and so do the statements of the whole file.  The body
lines of a function are lines of the function, and there are no greater lines than those of the
tree. -/
theorem spans_outline (hlaid : ∀ node ∈ root.preorder, node.IsLaidOut) :
    (∀ node ∈ root.preorder, node.firstLine ≤ node.lastLine ∧ node.span.stop = node.lastLine) ∧
    (root.outline source).Pairwise Statement.Precedes ∧
    ∀ statement ∈ preorderOfAll (root.outline source),
      (∃ node ∈ root.preorder,
        statement.span.start = node.firstLine ∧ statement.span.stop = node.lastLine) ∧
      (∀ child ∈ statement.children, child.span.IsWithin statement.span) ∧
      statement.children.Pairwise Statement.Precedes ∧
      (∀ record, statement.record? = some record →
        ∀ line ∈ record.body, line ∈ statement.span.lines) ∧
      ((∀ node ∈ root.preorder, node.label.stop.row < maxLine) →
        statement.span.stop ≤ maxLine) := by
  have hbelow (node : Node) (hnode : node ∈ root.preorder) :
      ∀ inner ∈ node.preorder, inner.IsLaidOut := fun inner hinner =>
    hlaid inner (Node.mem_preorder_trans hnode hinner)
  refine ⟨?_, ?_, ?_⟩
  · intro node hnode
    exact ⟨(Node.lastLine_bounds (hbelow node hnode)).1, (Node.span_eq (hbelow node hnode)).2⟩
  · rw [Node.outline, statementsAmong_eq]
    have hapart := (hlaid root root.mem_preorder_self).pairwise_precedes
    refine pairwise_statements source (hapart.filter _) fun node hnode => ?_
    have hmem := Node.mem_preorder_of_mem_children (List.mem_filter.1 hnode).1
      node.mem_preorder_self
    exact hbelow node hmem
  · intro statement hstatement
    obtain ⟨node, hnode, rfl⟩ := exists_node_of_mem_outline hstatement
    have hnested := Node.isLaidOut_statement source (hbelow node hnode)
    obtain ⟨_, _, inner, hinner, hspan⟩ := Node.span_statement source (hbelow node hnode)
    have hmem := Node.mem_preorder_trans hnode hinner
    obtain ⟨hstart, hstop⟩ := Node.span_eq (hbelow inner hmem)
    rw [← hspan] at hstart hstop
    refine ⟨⟨inner, hmem, hstart, hstop⟩, hnested.inside, hnested.apart, ?_, ?_⟩
    · intro record hrecord line hline
      exact hnested.mem_lines_of_record? hrecord hline
    · intro hrows
      have hline := (Node.lastLine_bounds (hbelow inner hmem)).2
      have hrow := hrows inner hmem
      omega

/-- A statement with comments behind the last tokens of its clauses, in a function behind a
decorator. -/
def commentedSource : List Char :=
  ("\n".intercalate
    ["@cached",
      "def load():",
      "    if ready:",
      "        return 1",
      "        # of the clause",
      "    else:",
      "        return 2",
      "    # of the function",
      ""]).toList

theorem spans_outline_commentedSource :
    ((syntaxTree commentedSource).outline commentedSource).Pairwise Statement.Precedes ∧
    ∀ statement ∈ preorderOfAll ((syntaxTree commentedSource).outline commentedSource),
      statement.IsLaidOut := by
  have hlaid : ∀ node ∈ (syntaxTree commentedSource).preorder, node.IsLaidOut := by
    decide +kernel
  obtain ⟨_, hapart, hstatements⟩ := spans_outline commentedSource hlaid
  refine ⟨hapart, fun statement hstatement => ?_⟩
  exact ⟨(hstatements statement hstatement).2.1, (hstatements statement hstatement).2.2.1⟩

example :
    (preorderOfAll ((syntaxTree commentedSource).outline commentedSource)).map
        (fun statement => (statement.span.start, statement.span.stop)) =
      [(2, 7), (3, 7), (4, 4), (7, 7)] := by
  decide +kernel

end Untested.Python
