/-
# Every definition leaves a record

A syntax tree keeps its functions and classes among the statements of its blocks, and what the
analysis makes of the tree has one record for each of its functions, in the order of the source
text.
-/

import Mathlib.Data.List.Forall2
import Untested.Proofs.Python.SyntaxTree
import Untested.Python.Source

namespace Untested.Python

/-- The nodes without the first one that has the given role. -/
def besideRole (field : Field) (nodes : List Node) : List Node :=
  nodes.eraseP (Node.hasRole field)

section

variable {field : Field} {node : Node} (rest : List Node)

theorem besideRole_cons_of_pos (hrole : node.hasRole field = true) :
    besideRole field (node :: rest) = rest :=
  List.eraseP_cons_of_pos hrole

theorem besideRole_cons_of_neg (hrole : ¬node.hasRole field = true) :
    besideRole field (node :: rest) = node :: besideRole field rest :=
  List.eraseP_cons_of_neg hrole

end

namespace Node

/-! ## Where definitions and blocks stand -/

/-- Whether the node defines a function or a class. -/
def isDefinition (node : Node) : Bool :=
  node.kind = .functionDefinition || node.kind = .classDefinition

/-- Whether the children of the node are statements. -/
def holdsStatements (node : Node) : Bool :=
  node.kind = .module || node.kind = .block

/-- No node at or below the node is a block. -/
def IsBlockFree (node : Node) : Prop :=
  ∀ inner ∈ node.preorder, inner.kind ≠ .block

/-- The children of a node without the one that has the given role. -/
def childrenBeside (node : Node) (field : Field) : List Node :=
  besideRole field node.children

/-- Definitions and blocks stand among the children of a node where the grammar lets them. -/
structure IsPlaced (node : Node) : Prop where
  /-- Functions and classes are statements, or they stand behind decorators. -/
  definition : ∀ child ∈ node.children, child.isDefinition = true →
    node.holdsStatements = true ∨ node.kind = .decoratedDefinition
  /-- A definition with its decorators is a statement. -/
  decorated : ∀ child ∈ node.children, child.kind = .decoratedDefinition →
    node.holdsStatements = true
  /-- A module is no part of anything. -/
  module : ∀ child ∈ node.children, child.kind ≠ .module
  /-- A block is never a statement. -/
  block : node.holdsStatements = true → ∀ child ∈ node.children, child.kind ≠ .block
  /-- An expression has no blocks. -/
  expression : node.kind = .expressionStatement → node.IsBlockFree
  /-- The body of a definition is a block, and all blocks of the definition lie in it. -/
  body : node.isDefinition = true →
    (∀ body ∈ node.childByField? .body, body.kind = .block) ∧
      ∀ other ∈ node.childrenBeside .body, other.IsBlockFree
  /-- Behind decorators stands one statement, and the decorators have neither definitions nor
  blocks. -/
  decorators : node.kind = .decoratedDefinition →
    (∀ child ∈ node.childByField? .definition, child.kind ≠ .block) ∧
      ∀ other ∈ node.childrenBeside .definition,
        other.isDefinition = false ∧ other.IsBlockFree
  /-- Mere tokens and trivia are neither definitions nor have any blocks. -/
  token : node.isSignificant = false →
    node.isDefinition = false ∧ node.kind ≠ .decoratedDefinition ∧ node.IsBlockFree

instance (node : Node) : Decidable node.IsBlockFree :=
  inferInstanceAs (Decidable (∀ inner ∈ node.preorder, inner.kind ≠ .block))

theorem isPlaced_iff {node : Node} : node.IsPlaced ↔
    (∀ child ∈ node.children, child.isDefinition = true →
      node.holdsStatements = true ∨ node.kind = .decoratedDefinition) ∧
    (∀ child ∈ node.children, child.kind = .decoratedDefinition → node.holdsStatements = true) ∧
    (∀ child ∈ node.children, child.kind ≠ .module) ∧
    (node.holdsStatements = true → ∀ child ∈ node.children, child.kind ≠ .block) ∧
    (node.kind = .expressionStatement → node.IsBlockFree) ∧
    (node.isDefinition = true →
      (∀ body ∈ node.childByField? .body, body.kind = .block) ∧
        ∀ other ∈ node.childrenBeside .body, other.IsBlockFree) ∧
    (node.kind = .decoratedDefinition →
      (∀ child ∈ node.childByField? .definition, child.kind ≠ .block) ∧
        ∀ other ∈ node.childrenBeside .definition,
          other.isDefinition = false ∧ other.IsBlockFree) ∧
    (node.isSignificant = false →
      node.isDefinition = false ∧ node.kind ≠ .decoratedDefinition ∧ node.IsBlockFree) :=
  ⟨fun ⟨a, b, c, d, e, f, g, h⟩ => ⟨a, b, c, d, e, f, g, h⟩,
    fun ⟨a, b, c, d, e, f, g, h⟩ => ⟨a, b, c, d, e, f, g, h⟩⟩

instance (node : Node) : Decidable node.IsPlaced :=
  decidable_of_iff _ isPlaced_iff.symm

end Node

/-! ## The functions of a tree -/

namespace Node

def isFunction (node : Node) : Bool :=
  node.kind = .functionDefinition

/-- The record that the analysis makes of a function. -/
def record (source : List Char) (node : Node) : FunctionRecord where
  name := node.definedName source
  line := node.firstLine
  body := bodyLines (bodyStatements source node.children)
  isAsync := hasAsyncKeyword node.children

/-- The records of the functions at or below a node, in the order of the source text. -/
def records (source : List Char) (node : Node) : List FunctionRecord :=
  (node.preorder.filter isFunction).map (record source)

end Node

/-- The records of the functions at or below some nodes, in the order of the source text. -/
def recordsAmong (source : List Char) (nodes : List Node) : List FunctionRecord :=
  ((preorderAmong nodes).filter Node.isFunction).map (Node.record source)

section

variable (source : List Char)

theorem recordsAmong_cons (node : Node) (rest : List Node) :
    recordsAmong source (node :: rest) = node.records source ++ recordsAmong source rest := by
  rw [recordsAmong, preorderAmong, List.filter_append, List.map_append]
  rfl

theorem recordsAmong_eq_nil {nodes : List Node} (hnone : ∀ node ∈ nodes, node.records source = []) :
    recordsAmong source nodes = [] := by
  induction nodes with
  | nil => rfl
  | cons node rest ih =>
      rw [List.forall_mem_cons] at hnone
      rw [recordsAmong_cons, hnone.1, ih hnone.2]
      rfl

namespace Node

theorem records_of_isFunction {node : Node} (hfunction : node.isFunction = true) :
    node.records source = node.record source :: recordsAmong source node.children := by
  rw [records, preorder_eq, List.filter_cons_of_pos hfunction, List.map_cons]
  rfl

theorem records_of_not_isFunction {node : Node} (hfunction : node.isFunction = false) :
    node.records source = recordsAmong source node.children := by
  rw [records, preorder_eq, List.filter_cons_of_neg (by simp [hfunction])]
  rfl

/-! ## Nodes without functions -/

/-- A node that is a mere part of a statement. -/
structure IsPart (node : Node) : Prop where
  not_definition : node.isDefinition = false
  not_decorated : node.kind ≠ .decoratedDefinition
  not_module : node.kind ≠ .module

theorem IsPart.isFunction_eq_false {node : Node} (hpart : node.IsPart) :
    node.isFunction = false := by
  have := hpart.not_definition
  rw [isDefinition, Bool.or_eq_false_iff] at this
  exact this.1

/-- The children of a node that holds no statements are parts of a statement, unless they stand
behind decorators. -/
theorem IsPlaced.isPart_of_mem_children {node child : Node} (hplaced : node.IsPlaced)
    (hholds : node.holdsStatements = false) (hdecorated : node.kind ≠ .decoratedDefinition)
    (hchild : child ∈ node.children) : child.IsPart where
  not_definition := by
    by_contra hdefinition
    rw [Bool.not_eq_false] at hdefinition
    rcases hplaced.definition child hchild hdefinition with hstatements | hkind
    · rw [hholds] at hstatements
      exact absurd hstatements (by decide)
    · exact hdecorated hkind
  not_decorated := by
    intro hkind
    have hstatements := hplaced.decorated child hchild hkind
    rw [hholds] at hstatements
    exact absurd hstatements (by decide)
  not_module := hplaced.module child hchild

theorem holdsStatements_eq_false {node : Node} (hmodule : node.kind ≠ .module)
    (hblock : node.kind ≠ .block) : node.holdsStatements = false := by
  rw [holdsStatements, decide_eq_false hmodule, decide_eq_false hblock]
  rfl

theorem IsPlaced.isPart_of_isDefinition {node child : Node} (hplaced : node.IsPlaced)
    (hdefinition : node.isDefinition = true) (hchild : child ∈ node.children) : child.IsPart := by
  rw [isDefinition, Bool.or_eq_true, decide_eq_true_eq, decide_eq_true_eq] at hdefinition
  apply hplaced.isPart_of_mem_children _ _ hchild
  · rcases hdefinition with hkind | hkind <;>
      exact holdsStatements_eq_false (by simp [hkind]) (by simp [hkind])
  · rcases hdefinition with hkind | hkind <;> simp [hkind]

theorem holdsStatements_of_block {node : Node} (hblock : node.kind = .block) :
    node.holdsStatements = true := by
  rw [holdsStatements, decide_eq_true hblock, Bool.or_true]

/-- Without a block there is no place for a function below a part of a statement. -/
theorem records_of_isBlockFree {node : Node} (hplaced : ∀ inner ∈ node.preorder, inner.IsPlaced)
    (hpart : node.IsPart) (hfree : node.IsBlockFree) : node.records source = [] := by
  induction node using forall_of_children with
  | step node ih =>
      have hself := node.mem_preorder_self
      rw [records_of_not_isFunction source hpart.isFunction_eq_false]
      have hchildren : ∀ child ∈ node.children, child.records source = [] := by
        intro child hchild
        have hbelow {inner : Node} (hinner : inner ∈ child.preorder) : inner ∈ node.preorder :=
          mem_preorder_of_mem_children hchild hinner
        refine ih child hchild (fun inner hinner => hplaced inner (hbelow hinner)) ?_
          fun inner hinner => hfree inner (hbelow hinner)
        exact (hplaced node hself).isPart_of_mem_children
          (holdsStatements_eq_false hpart.not_module (hfree node hself)) hpart.not_decorated hchild
      exact recordsAmong_eq_nil source hchildren

end Node

theorem recordsAmong_of_isBlockFree {nodes : List Node}
    (hplaced : ∀ inner ∈ preorderAmong nodes, inner.IsPlaced) (hpart : ∀ node ∈ nodes, node.IsPart)
    (hfree : ∀ node ∈ nodes, node.IsBlockFree) : recordsAmong source nodes = [] := by
  refine recordsAmong_eq_nil source fun node hnode => ?_
  refine Node.records_of_isBlockFree source (fun inner hinner => ?_) (hpart node hnode)
    (hfree node hnode)
  exact hplaced inner (mem_preorderAmong.2 ⟨node, hnode, hinner⟩)

/-! ## From the syntax tree to the records -/

theorem functionsOfBlocks_append (first second : List (List Statement)) :
    functionsOfBlocks (first ++ second) = functionsOfBlocks first ++ functionsOfBlocks second := by
  induction first with
  | nil => rfl
  | cons block first ih =>
      rw [List.cons_append, functionsOfBlocks, functionsOfBlocks, ih, List.append_assoc]

/-
The outline is made by five functions, each of which calls the others, and so there is one theorem
for each of them: for statements, for the statements of a block, for the body of a definition, for
the definition behind decorators and for the clauses of other statements.  Each speaks of the nodes
that its function runs through, and the theorems are proved along with one another.
-/

mutual

/-- The records of a statement are those of the functions at or below its node. -/
theorem Node.functions_statement (node : Node) (hplaced : ∀ inner ∈ node.preorder, inner.IsPlaced)
    (hblock : node.kind ≠ .block) (hmodule : node.kind ≠ .module) :
    (node.statement source).functions = node.records source := by
  have hself := hplaced node node.mem_preorder_self
  have hholds := Node.holdsStatements_eq_false hmodule hblock
  cases node with
  | mk label children =>
      rw [Node.preorder, List.forall_mem_cons] at hplaced
      rw [Node.statement]
      split
      · rename_i hkind
        have hfunction : (Node.mk label children).isFunction = true := decide_eq_true hkind
        have hdefinition : (Node.mk label children).isDefinition = true := by
          rw [Node.isDefinition, Bool.or_eq_true]
          exact .inl hfunction
        obtain ⟨hbody, hfree⟩ := hself.body hdefinition
        -- name, parameters and the rest beside the body have no functions in them
        rw [Node.records_of_isFunction source hfunction, Statement.functions,
          functionsOfAll_bodyStatements children hplaced.2
            (fun _ => hself.isPart_of_isDefinition hdefinition) hbody hfree]
        rfl
      · rename_i hkind
        have hfunction : (Node.mk label children).isFunction = false := by
          rw [Node.isFunction, Node.kind, Node.label, hkind]
          rfl
        have hdefinition : (Node.mk label children).isDefinition = true := by
          rw [Node.isDefinition, Bool.or_eq_true]
          exact .inr (decide_eq_true hkind)
        obtain ⟨hbody, hfree⟩ := hself.body hdefinition
        rw [Node.records_of_not_isFunction source hfunction, Statement.functions,
          functionsOfAll_bodyStatements children hplaced.2
            (fun _ => hself.isPart_of_isDefinition hdefinition) hbody hfree]
        rfl
      · rename_i hkind
        have hfunction : (Node.mk label children).isFunction = false := by
          rw [Node.isFunction, Node.kind, Node.label, hkind]
          rfl
        rw [Node.records_of_not_isFunction source hfunction]
        refine functions_definitionStatement? children _ hplaced.2 ?_ hself.module
          (hself.decorators hkind).1 (hself.decorators hkind).2
        intro child hchild hdecorated
        rw [hself.decorated child hchild hdecorated] at hholds
        exact absurd hholds (by decide)
      · rename_i hkind
        have hpart : (Node.mk label children).IsPart := by
          refine ⟨?_, ?_, hmodule⟩ <;> simp [Node.isDefinition, Node.kind, Node.label, hkind]
        rw [Statement.functions, Node.records_of_isBlockFree source ?_ hpart
          (hself.expression hkind)]
        rw [Node.preorder, List.forall_mem_cons]
        exact hplaced
      · rename_i hfunctionKind hclassKind hdecoratedKind hexpressionKind
        have hfunction : (Node.mk label children).isFunction = false :=
          decide_eq_false hfunctionKind
        have hpart : ∀ child ∈ children, child.IsPart := fun child hchild =>
          hself.isPart_of_mem_children hholds hdecoratedKind hchild
        have hblocks := functionsOfBlocks_blocksAmong children hplaced.2 hpart
        rw [Node.records_of_not_isFunction source hfunction]
        show _ = recordsAmong source children
        rw [← hblocks]
        split
        · rename_i hnil
          rw [hnil]
          rfl
        · rfl

/-- The records of the statements in a block are those of the functions below it. -/
theorem functionsOfAll_statementsAmong (nodes : List Node)
    (hplaced : ∀ inner ∈ preorderAmong nodes, inner.IsPlaced)
    (hblock : ∀ node ∈ nodes, node.kind ≠ .block) (hmodule : ∀ node ∈ nodes, node.kind ≠ .module) :
    functionsOfAll (statementsAmong source nodes) = recordsAmong source nodes := by
  cases nodes with
  | nil => rfl
  | cons node rest =>
      rw [preorderAmong, List.forall_mem_append] at hplaced
      rw [List.forall_mem_cons] at hblock hmodule
      have hrest := functionsOfAll_statementsAmong rest hplaced.2 hblock.2 hmodule.2
      rw [recordsAmong_cons, statementsAmong]
      split
      · rw [functionsOfAll, node.functions_statement hplaced.1 hblock.1 hmodule.1, hrest]
      · -- a comment or a mere token is left out, and there is no function in it
        rename_i hsignificant
        obtain ⟨hdefinition, hdecorated, hfree⟩ :=
          (hplaced.1 node node.mem_preorder_self).token (Bool.not_eq_true _ ▸ hsignificant)
        rw [Node.records_of_isBlockFree source hplaced.1 ⟨hdefinition, hdecorated, hmodule.1⟩ hfree,
          List.nil_append, hrest]

/-- The records of a body are those of the functions below the children of its definition. -/
theorem functionsOfAll_bodyStatements (nodes : List Node)
    (hplaced : ∀ inner ∈ preorderAmong nodes, inner.IsPlaced)
    (hpart : ∀ node ∈ nodes, node.IsPart)
    (hbody : ∀ body ∈ inRole? .body nodes, body.kind = .block)
    (hfree : ∀ other ∈ besideRole .body nodes, other.IsBlockFree) :
    functionsOfAll (bodyStatements source nodes) = recordsAmong source nodes := by
  cases nodes with
  | nil => rfl
  | cons node rest =>
      cases node with
      | mk label children =>
          rw [preorderAmong, List.forall_mem_append, Node.preorder, List.forall_mem_cons] at hplaced
          rw [List.forall_mem_cons] at hpart
          rw [recordsAmong_cons, Node.records_of_not_isFunction source hpart.1.isFunction_eq_false,
            bodyStatements]
          split
          · rename_i hrole
            have hkind : (Node.mk label children).kind = .block :=
              hbody _ (inRole?_cons_of_pos rest hrole)
            rw [besideRole_cons_of_pos rest hrole] at hfree
            rw [recordsAmong_of_isBlockFree source hplaced.2 hpart.2 hfree, List.append_nil]
            exact functionsOfAll_statementsAmong children hplaced.1.2
              (hplaced.1.1.block (Node.holdsStatements_of_block hkind)) hplaced.1.1.module
          · rename_i hrole
            rw [inRole?_cons_of_neg rest hrole] at hbody
            rw [besideRole_cons_of_neg rest hrole, List.forall_mem_cons] at hfree
            have hnone : (Node.mk label children).records source = [] :=
              Node.records_of_isBlockFree source
                (by rw [Node.preorder, List.forall_mem_cons]; exact hplaced.1) hpart.1 hfree.1
            rw [Node.records_of_not_isFunction source hpart.1.isFunction_eq_false] at hnone
            rw [hnone, List.nil_append]
            exact functionsOfAll_bodyStatements rest hplaced.2 hpart.2 hbody hfree.2

theorem functions_definitionStatement? (nodes : List Node) (span : LineSpan)
    (hplaced : ∀ inner ∈ preorderAmong nodes, inner.IsPlaced)
    (hdecorated : ∀ node ∈ nodes, node.kind ≠ .decoratedDefinition)
    (hmodule : ∀ node ∈ nodes, node.kind ≠ .module)
    (hblock : ∀ node ∈ inRole? .definition nodes, node.kind ≠ .block)
    (hfree : ∀ other ∈ besideRole .definition nodes,
      other.isDefinition = false ∧ other.IsBlockFree) :
    ((definitionStatement? source nodes).getD (.simple span)).functions =
      recordsAmong source nodes := by
  cases nodes with
  | nil => rfl
  | cons node rest =>
      rw [preorderAmong, List.forall_mem_append] at hplaced
      rw [List.forall_mem_cons] at hdecorated hmodule
      rw [recordsAmong_cons, definitionStatement?]
      split
      · rename_i hrole
        have hkind : node.kind ≠ .block :=
          hblock _ (inRole?_cons_of_pos rest hrole)
        rw [besideRole_cons_of_pos rest hrole] at hfree
        have hpart : ∀ other ∈ rest, other.IsPart := fun other hother =>
          ⟨(hfree other hother).1, hdecorated.2 other hother, hmodule.2 other hother⟩
        rw [recordsAmong_of_isBlockFree source hplaced.2 hpart fun other hother =>
          (hfree other hother).2, List.append_nil]
        exact node.functions_statement hplaced.1 hkind hmodule.1
      · rename_i hrole
        rw [inRole?_cons_of_neg rest hrole] at hblock
        rw [besideRole_cons_of_neg rest hrole, List.forall_mem_cons] at hfree
        rw [Node.records_of_isBlockFree source hplaced.1 ⟨hfree.1.1, hdecorated.1, hmodule.1⟩
          hfree.1.2, List.nil_append]
        exact functions_definitionStatement? rest span hplaced.2 hdecorated.2 hmodule.2 hblock
          hfree.2

/-- The records of the clauses of a statement are those of the functions below its node. -/
theorem functionsOfBlocks_blocksAmong (nodes : List Node)
    (hplaced : ∀ inner ∈ preorderAmong nodes, inner.IsPlaced)
    (hpart : ∀ node ∈ nodes, node.IsPart) :
    functionsOfBlocks (blocksAmong source nodes) = recordsAmong source nodes := by
  cases nodes with
  | nil => rfl
  | cons node rest =>
      cases node with
      | mk label children =>
          rw [preorderAmong, List.forall_mem_append, Node.preorder, List.forall_mem_cons] at hplaced
          rw [List.forall_mem_cons] at hpart
          have hself := hplaced.1.1
          have hrest := functionsOfBlocks_blocksAmong rest hplaced.2 hpart.2
          rw [recordsAmong_cons, blocksAmong]
          split
          · rename_i hsignificant
            have hfree := (hself.token (Bool.not_eq_true' _ ▸ hsignificant)).2.2
            have hnone : (Node.mk label children).records source = [] :=
              Node.records_of_isBlockFree source
                (by rw [Node.preorder, List.forall_mem_cons]; exact hplaced.1) hpart.1 hfree
            rw [hnone, List.nil_append, hrest]
          · rw [Node.records_of_not_isFunction source hpart.1.isFunction_eq_false]
            split
            · rename_i hkind
              rw [functionsOfBlocks, hrest, functionsOfAll_statementsAmong children hplaced.1.2
                (hself.block (Node.holdsStatements_of_block hkind)) hself.module]
              rfl
            · rename_i hkind
              have hinner : ∀ child ∈ children, child.IsPart := fun child hchild =>
                hself.isPart_of_mem_children
                  (Node.holdsStatements_eq_false hpart.1.not_module hkind) hpart.1.not_decorated
                  hchild
              rw [functionsOfBlocks_append, hrest,
                functionsOfBlocks_blocksAmong children hplaced.1.2 hinner]
              rfl

end

/-! ## The records of a source file -/

/-- A record says what the source text does of a function. -/
structure FunctionRecord.Describes (record : FunctionRecord) (node : Node) : Prop where
  name : ∀ name ∈ node.childByField? .name, record.name = String.ofList (name.text source)
  nameless : node.childByField? .name = none → record.name = "<anonymous>"
  line : record.line = node.label.start.row + 1
  isAsync : record.isAsync = true ↔ ∃ child ∈ node.children, child.kind = .asyncKeyword

theorem Node.describes_record (node : Node) :
    FunctionRecord.Describes source (node.record source) node where
  name := by
    intro name hname
    rw [record, definedName, Option.mem_def.1 hname]
  nameless := by
    intro hnone
    rw [record, definedName, hnone]
  line := rfl
  isAsync := by
    rw [record, hasAsyncKeyword, List.any_eq_true]
    simp only [decide_eq_true_eq]

/-- The records of a source file are those of its functions: there is one for each node that
defines a function, in the order of the source text, however the node is nested in functions,
classes, decorators and the clauses of other statements. -/
theorem describes_functions_outline {root : Node} (hmodule : root.kind = .module)
    (hplaced : ∀ node ∈ root.preorder, node.IsPlaced) :
    List.Forall₂ (FunctionRecord.Describes source) (functionsOfAll (root.outline source))
      (root.preorder.filter Node.isFunction) := by
  have hself := hplaced root root.mem_preorder_self
  have hholds : root.holdsStatements = true := by
    rw [Node.holdsStatements, decide_eq_true hmodule, Bool.true_or]
  have hfunction : root.isFunction = false := by
    rw [Node.isFunction, hmodule]
    rfl
  rw [Node.preorder_eq, List.forall_mem_cons] at hplaced
  have hrecords : functionsOfAll (root.outline source) = root.records source := by
    rw [Node.outline, functionsOfAll_statementsAmong source root.children hplaced.2
      (hself.block hholds) hself.module, Node.records_of_not_isFunction source hfunction]
  rw [hrecords, Node.records, List.forall₂_map_left_iff, List.forall₂_same]
  exact fun node _ => node.describes_record source

theorem kind_syntaxTree : (syntaxTree source).kind = .module := by
  rw [syntaxTree]
  dsimp only
  split <;> rfl

/-- A coroutine behind a decorator, in a class, in the last clause of a statement inside a
function. -/
def nestedSource : List Char :=
  ("\n".intercalate
    ["def outer():",
      "    try:",
      "        pass",
      "    finally:",
      "        class Inner:",
      "            @cached",
      "            async def load(self):",
      "                pass"]).toList

theorem describes_functions_nestedSource :
    List.Forall₂ (FunctionRecord.Describes nestedSource)
      (functionsOfAll ((syntaxTree nestedSource).outline nestedSource))
      ((syntaxTree nestedSource).preorder.filter Node.isFunction) :=
  describes_functions_outline nestedSource (kind_syntaxTree nestedSource) (by decide +kernel)

example :
    (functionsOfAll ((syntaxTree nestedSource).outline nestedSource)).map
        (fun record => (record.name, record.line, record.isAsync)) =
      [("outer", 1, false), ("load", 7, true)] := by
  decide +kernel

end

end Untested.Python
