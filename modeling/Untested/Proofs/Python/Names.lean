/-
# Names are words

The name of a definition is the text of a node that the parser makes of a word, so a name has no
line feed in it, and no blank or punctuation either.  A function has the name of a node of its
tree, wherever the outline has taken its statement from.
-/

import Untested.Proofs.Python.Grammar.Text

namespace Untested.Python

variable {source : List Char}

/-- A definition without a name is called anonymous. -/
theorem definedName_cases {node : Node} (hformed : AreFormed source [node]) :
    node.definedName source = "<anonymous>" ∨ IsWord (node.definedName source).toList := by
  rw [Node.definedName]
  cases hname : node.childByField? .name with
  | none => exact .inl rfl
  | some name =>
      have hmem : name ∈ preorderAmong node.children :=
        mem_preorderAmong.2 ⟨name, List.mem_of_find?_eq_some hname, name.mem_preorder_self⟩
      have hrole := List.find?_some hname
      rw [Node.hasRole, Bool.and_eq_true, decide_eq_true_eq] at hrole
      rw [String.toList_ofList]
      exact .inr (((areFormed_singleton.1 hformed).2 name hmem).name hrole.1)

/-- Behind decorators a node has the function of its definition, and otherwise its own. -/
theorem Node.exists_definedName {node : Node} {record : FunctionRecord}
    (hrecord : (node.statement source).record? = some record) :
    ∃ inner ∈ node.preorder, record.name = inner.definedName source := by
  induction node using forall_of_children with
  | step node ih =>
      cases node with
      | mk label children =>
          rw [statement] at hrecord
          split at hrecord
          · cases hrecord
            exact ⟨_, mem_preorder_self _, rfl⟩
          · cases hrecord
          · rw [definitionStatement?_eq] at hrecord
            cases hchild : inRole? .definition children with
            | none =>
                rw [hchild] at hrecord
                cases hrecord
            | some child =>
                rw [hchild] at hrecord
                have hmem : child ∈ (Node.mk label children).children :=
                  List.mem_of_find?_eq_some hchild
                obtain ⟨inner, hinner, hname⟩ := ih child hmem hrecord
                exact ⟨inner, mem_preorder_of_mem_children hmem hinner, hname⟩
          · cases hrecord
          · split at hrecord <;> cases hrecord

/-- The functions of a well-formed text are called by words, if they have a name at all. -/
theorem name_of_parse {path : String} {body : List Statement} {record : FunctionRecord}
    (hparse : parse path source = .ok body) (hrecord : record ∈ functionsOfAll body) :
    record.name = "<anonymous>" ∨ IsWord record.name.toList := by
  rw [parse] at hparse
  split at hparse
  · split at hparse <;> cases hparse
  · obtain rfl := Except.ok.inj hparse
    rw [functionsOfAll_eq, List.mem_filterMap] at hrecord
    obtain ⟨statement, hstatement, hrecord⟩ := hrecord
    obtain ⟨node, hnode, rfl⟩ := exists_node_of_mem_outline hstatement
    obtain ⟨inner, hinner, hname⟩ := Node.exists_definedName hrecord
    have hmem : inner ∈ preorderAmong [syntaxTree source] :=
      mem_preorderAmong.2 ⟨_, List.mem_singleton_self _, Node.mem_preorder_trans hnode hinner⟩
    rw [hname]
    exact definedName_cases ((areFormed_syntaxTree source).of_mem_preorderAmong hmem)

theorem newline_not_mem_name_of_parse {path : String} {body : List Statement}
    {record : FunctionRecord} (hparse : parse path source = .ok body)
    (hrecord : record ∈ functionsOfAll body) : '\n' ∉ record.name.toList := by
  rcases name_of_parse hparse hrecord with hname | hword
  · rw [hname]
    decide
  · exact hword.newline_not_mem

end Untested.Python
