/-
# Nodes in the order of the source text

The nodes of a syntax tree, at whatever depth, are listed so that each one stands before those
below it.  What is said of all nodes of a tree is said of the members of that list, and it
carries over to every subtree.

The outline of a tree takes its statements from some of the nodes.  Those directly inside the
statement of a node are the children of its blocks, and behind decorators a node has the
statement of its definition.
-/

import Untested.Python.Outline
import Untested.Proofs.Python.Preorder

namespace Untested.Python

mutual

/-- A node and the nodes below it, each one before those below it. -/
def Node.preorder : Node → List Node
  | .mk label children => .mk label children :: preorderAmong children

/-- The nodes at or below those of a list. -/
def preorderAmong : List Node → List Node
  | [] => []
  | node :: rest => node.preorder ++ preorderAmong rest

end

namespace Node

theorem preorder_eq (node : Node) : node.preorder = node :: preorderAmong node.children := by
  cases node
  rw [preorder]
  rfl

theorem mem_preorder_self (node : Node) : node ∈ node.preorder := by
  rw [preorder_eq]
  exact List.mem_cons_self

end Node

theorem mem_preorderAmong {inner : Node} {nodes : List Node} :
    inner ∈ preorderAmong nodes ↔ ∃ node ∈ nodes, inner ∈ node.preorder := by
  induction nodes with
  | nil => exact iff_of_false List.not_mem_nil (by simp)
  | cons node rest ih =>
      rw [preorderAmong, List.mem_append, ih]
      simp

namespace Node

theorem mem_preorder_iff {inner node : Node} :
    inner ∈ node.preorder ↔ inner = node ∨ ∃ child ∈ node.children, inner ∈ child.preorder := by
  rw [preorder_eq, List.mem_cons, mem_preorderAmong]

theorem mem_preorder_of_mem_children {inner child node : Node} (hchild : child ∈ node.children)
    (hinner : inner ∈ child.preorder) : inner ∈ node.preorder :=
  mem_preorder_iff.2 (.inr ⟨child, hchild, hinner⟩)

/-- Whatever passes from the children of each node to the node holds of all nodes. -/
theorem forall_of_children {motive : Node → Prop}
    (step : ∀ node, (∀ child ∈ node.children, motive child) → motive node) :
    ∀ node, motive node
  | .mk label children =>
    step (.mk label children) fun child _ => forall_of_children step child
termination_by node => sizeOf node
decreasing_by
  rename_i hchild
  have hlt := List.sizeOf_lt_of_mem (show child ∈ children from hchild)
  rw [mk.sizeOf_spec]
  omega

/-- What lies below a node of a tree lies in the tree. -/
theorem mem_preorder_trans {inner middle outer : Node} (hmiddle : middle ∈ outer.preorder)
    (hinner : inner ∈ middle.preorder) : inner ∈ outer.preorder := by
  induction outer using forall_of_children with
  | step outer ih =>
      rcases mem_preorder_iff.1 hmiddle with rfl | ⟨child, hchild, hmiddle⟩
      · exact hinner
      · exact mem_preorder_of_mem_children hchild (ih child hchild hmiddle)

end Node

/-! ## Roles -/

/-- The first of some nodes that has the given role. -/
def inRole? (field : Field) (nodes : List Node) : Option Node :=
  nodes.find? (Node.hasRole field)

section

variable {field : Field} {node : Node} (rest : List Node)

theorem inRole?_cons_of_pos (hrole : node.hasRole field = true) :
    inRole? field (node :: rest) = some node :=
  List.find?_cons_of_pos hrole

theorem inRole?_cons_of_neg (hrole : ¬node.hasRole field = true) :
    inRole? field (node :: rest) = inRole? field rest :=
  List.find?_cons_of_neg hrole

end

/-! ## The statements of a node -/

/-- The topmost blocks at or below some nodes. -/
def topBlocks : List Node → List Node
  | [] => []
  | .mk label children :: rest =>
    if !(Node.mk label children).isSignificant then topBlocks rest
    else if label.kind = .block then .mk label children :: topBlocks rest
    else topBlocks children ++ topBlocks rest
termination_by nodes => sizeOf nodes
decreasing_by
  all_goals
    rw [List.cons.sizeOf_spec, Node.mk.sizeOf_spec]
    omega

/-- The blocks whose statements are directly inside the statement of a node. -/
def Node.blocks (node : Node) : List Node :=
  if node.kind = .functionDefinition ∨ node.kind = .classDefinition then
    (node.childByField? .body).toList
  else if node.kind = .decoratedDefinition ∨ node.kind = .expressionStatement then []
  else topBlocks node.children

theorem statementsAmong_eq (source : List Char) (nodes : List Node) :
    statementsAmong source nodes =
      (nodes.filter Node.isSignificant).map (Node.statement source) := by
  induction nodes with
  | nil => rfl
  | cons node rest ih =>
      rw [statementsAmong]
      split
      · rename_i hsignificant
        rw [List.filter_cons_of_pos hsignificant, List.map_cons, ih]
      · rename_i hsignificant
        rw [List.filter_cons_of_neg hsignificant, ih]

theorem bodyStatements_eq (source : List Char) (nodes : List Node) :
    bodyStatements source nodes =
      (inRole? .body nodes).toList.flatMap fun block => statementsAmong source block.children := by
  induction nodes with
  | nil => rfl
  | cons node rest ih =>
      cases node with
      | mk label children =>
          rw [bodyStatements]
          split
          · rename_i hrole
            rw [inRole?_cons_of_pos rest hrole]
            exact (List.append_nil _).symm
          · rename_i hrole
            rw [inRole?_cons_of_neg rest hrole, ih]

theorem blocksAmong_eq (source : List Char) (nodes : List Node) :
    blocksAmong source nodes =
      (topBlocks nodes).map fun block => statementsAmong source block.children := by
  fun_induction topBlocks nodes with
  | case1 => rfl
  | case2 label children rest hsignificant ih => rw [blocksAmong, if_pos hsignificant, ih]
  | case3 label children rest hsignificant hkind ih =>
      rw [blocksAmong, if_neg hsignificant, if_pos hkind, ih]
      rfl
  | case4 label children rest hsignificant hkind ih ihrest =>
      rw [blocksAmong, if_neg hsignificant, if_neg hkind, ih, ihrest, List.map_append]

theorem definitionStatement?_eq (source : List Char) (nodes : List Node) :
    definitionStatement? source nodes =
      (inRole? .definition nodes).map (Node.statement source) := by
  induction nodes with
  | nil => rfl
  | cons node rest ih =>
      rw [definitionStatement?]
      split
      · rename_i hrole
        rw [inRole?_cons_of_pos rest hrole, Option.map_some]
      · rename_i hrole
        rw [inRole?_cons_of_neg rest hrole, ih]

/-- The nodes of the statements directly inside the statement of a node. -/
def Node.statementNodes (node : Node) : List Node :=
  node.blocks.flatMap Node.significantChildren

/-- Behind decorators a node has the statement of its definition.  Any other node has a statement
with its own span, which holds the statements of its blocks. -/
theorem Node.statement_cases (source : List Char) (node : Node) :
    (∃ child, node.childByField? .definition = some child ∧
      node.statement source = child.statement source) ∨
    ((node.statement source).span = node.span ∧
      (node.statement source).children = node.statementNodes.map (Node.statement source)) := by
  have hstatements : node.statementNodes.map (Node.statement source) =
      node.blocks.flatMap fun block => statementsAmong source block.children := by
    rw [statementNodes, List.map_flatMap]
    simp only [statementsAmong_eq, significantChildren]
  rw [hstatements]
  cases node with
  | mk label children =>
      rw [statement, blocks, kind, Node.label]
      split
      · rename_i hkind
        rw [if_pos (.inl hkind)]
        exact .inr ⟨rfl, bodyStatements_eq source children⟩
      · rename_i hkind
        rw [if_pos (.inr hkind)]
        exact .inr ⟨rfl, bodyStatements_eq source children⟩
      · rename_i hkind
        rw [if_neg (by simp [hkind]), if_pos (.inl hkind), definitionStatement?_eq]
        cases hchild : inRole? .definition children with
        | none => exact .inr ⟨rfl, rfl⟩
        | some child => exact .inl ⟨child, hchild, rfl⟩
      · rename_i hkind
        rw [if_neg (by simp [hkind]), if_pos (.inr hkind)]
        exact .inr ⟨rfl, rfl⟩
      · rename_i hfunction hclass hdecorated hexpression
        rw [if_neg (not_or.2 ⟨hfunction, hclass⟩), if_neg (not_or.2 ⟨hdecorated, hexpression⟩)]
        have hblocks := congrArg List.flatten (blocksAmong_eq source children)
        refine .inr ?_
        split
        · rename_i hnil
          rw [hnil] at hblocks
          exact ⟨rfl, hblocks⟩
        · exact ⟨rfl, hblocks⟩

/-! ## The nodes of statements -/

theorem mem_preorderAmong_of_mem_topBlocks {nodes : List Node} {block : Node}
    (hblock : block ∈ topBlocks nodes) : block ∈ preorderAmong nodes := by
  fun_induction topBlocks nodes with
  | case1 => exact absurd hblock List.not_mem_nil
  | case2 label children rest hsignificant ih =>
      exact List.mem_append_right _ (ih hblock)
  | case3 label children rest hsignificant hkind ih =>
      rw [preorderAmong, List.mem_append]
      rcases List.mem_cons.1 hblock with rfl | hblock
      · exact .inl (Node.mem_preorder_self _)
      · exact .inr (ih hblock)
  | case4 label children rest hsignificant hkind ih ihrest =>
      rw [preorderAmong, List.mem_append, Node.preorder]
      rcases List.mem_append.1 hblock with hblock | hblock
      · exact .inl (List.mem_cons_of_mem _ (ih hblock))
      · exact .inr (ihrest hblock)

namespace Node

variable {node inner : Node}

theorem mem_preorder_of_mem_blocks {block : Node} (hblock : block ∈ node.blocks) :
    block ∈ node.preorder := by
  rw [blocks] at hblock
  split at hblock
  · rw [Option.mem_toList] at hblock
    exact mem_preorder_of_mem_children (List.mem_of_find?_eq_some hblock) block.mem_preorder_self
  · split at hblock
    · exact absurd hblock List.not_mem_nil
    · rw [preorder_eq]
      exact List.mem_cons_of_mem _ (mem_preorderAmong_of_mem_topBlocks hblock)

theorem mem_preorder_of_mem_statementNodes (hinner : inner ∈ node.statementNodes) :
    inner ∈ node.preorder := by
  rw [statementNodes, List.mem_flatMap] at hinner
  obtain ⟨block, hblock, hinner⟩ := hinner
  have hchild := (List.mem_filter.1 hinner).1
  exact mem_preorder_trans (mem_preorder_of_mem_blocks hblock)
    (mem_preorder_of_mem_children hchild inner.mem_preorder_self)

/-- The statements directly inside the statement of a node are those of nodes below it. -/
theorem exists_of_mem_children {source : List Char} {statement : Statement}
    (hstatement : statement ∈ (node.statement source).children) :
    ∃ inner ∈ node.preorder, statement = inner.statement source := by
  induction node using forall_of_children with
  | step node ih =>
      rcases node.statement_cases source with ⟨child, hchild, hself⟩ | ⟨_, hchildren⟩
      · have hmem := List.mem_of_find?_eq_some hchild
        rw [hself] at hstatement
        obtain ⟨inner, hinner, heq⟩ := ih child hmem hstatement
        exact ⟨inner, mem_preorder_of_mem_children hmem hinner, heq⟩
      · rw [hchildren, List.mem_map] at hstatement
        obtain ⟨inner, hinner, rfl⟩ := hstatement
        exact ⟨inner, mem_preorder_of_mem_statementNodes hinner, rfl⟩

end Node

section

variable {source : List Char} {root : Node}

theorem exists_node_of_within {inner outer : Statement} (hwithin : inner.Within outer)
    (houter : ∃ node ∈ root.preorder, outer = node.statement source) :
    ∃ node ∈ root.preorder, inner = node.statement source := by
  induction hwithin with
  | self => exact houter
  | inside hchild _ ih =>
      obtain ⟨node, hnode, rfl⟩ := houter
      obtain ⟨below, hbelow, heq⟩ := Node.exists_of_mem_children hchild
      exact ih ⟨below, Node.mem_preorder_trans hnode hbelow, heq⟩

/-- All statements of an outline, at any depth, are those of nodes of the tree. -/
theorem exists_node_of_mem_outline {statement : Statement}
    (hstatement : statement ∈ preorderOfAll (root.outline source)) :
    ∃ node ∈ root.preorder, statement = node.statement source := by
  obtain ⟨top, htop, hwithin⟩ := exists_within_of_mem_preorderOfAll _ hstatement
  rw [Node.outline, statementsAmong_eq, List.mem_map] at htop
  obtain ⟨node, hnode, rfl⟩ := htop
  refine exists_node_of_within hwithin ⟨node, ?_, rfl⟩
  exact Node.mem_preorder_of_mem_children (List.mem_filter.1 hnode).1 node.mem_preorder_self

end

end Untested.Python
