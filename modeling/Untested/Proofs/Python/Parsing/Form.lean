/-
# The form of the nodes that a parser makes

Few productions of the grammar make nodes whose insides matter to the analysis: string literals,
values in parentheses, the values of an expression that stands as a statement, and the names of
definitions.  What such nodes look like is said here, trivia apart, and it is kept when nodes are
put together to larger ones.
-/

import Untested.Proofs.Python.Parsing.Reading
import Untested.Proofs.Python.Records

namespace Untested.Python

/-- The nodes that are not trivia. -/
def partsOf (nodes : List Node) : List Node :=
  nodes.filter fun node => !node.isTrivia

/-- The children that are not trivia. -/
def Node.parts (node : Node) : List Node :=
  partsOf node.children

/-- A mere token that is written in a given way. -/
structure Node.IsToken (source : List Char) (text : String) (node : Node) : Prop where
  isNamed : node.label.isNamed = false
  text : node.text source = text.toList

/-- What stands behind the first of several values: further ones, each after a comma, and perhaps
a comma at the end. -/
inductive IsContinuation (source : List Char) : List Node → Prop where
  | nil : IsContinuation source []
  | comma {comma : Node} : comma.IsToken source "," → IsContinuation source [comma]
  | value {comma value : Node} {rest : List Node} :
      comma.IsToken source "," → value.isSignificant = true → IsContinuation source rest →
        IsContinuation source (comma :: value :: rest)

/-- Values with commas between them, and perhaps one at the end. -/
def AreValues (source : List Char) (parts : List Node) : Prop :=
  ∃ value rest, parts = value :: rest ∧ value.isSignificant = true ∧ IsContinuation source rest

/-- A node looks as its kind wants it to. -/
structure Node.IsFormed (source : List Char) (node : Node) : Prop where
  /-- A literal begins with letters and a quotation mark. -/
  literal : node.kind = .string → ∃ letters mark, OpensWith (node.text source) letters mark
  /-- Adjacent literals are nothing but literals. -/
  literals : node.kind = .concatenatedString →
    node.parts ≠ [] ∧ ∀ part ∈ node.parts, part.kind = .string ∧ part.isSignificant = true
  /-- One value stands in parentheses. -/
  parenthesized : node.kind = .parenthesized → ∃ left value right,
    node.parts = [left, value, right] ∧ left.IsToken source "(" ∧ value.isSignificant = true ∧
      right.IsToken source ")"
  statement : node.kind = .expressionStatement → AreValues source node.parts
  /-- Behind decorators stands a definition. -/
  definition : node.label.field = some .definition → node.isDefinition = true
  /-- The name of a definition is a word. -/
  name : node.label.field = some .name → IsWord (node.text source)

/-- All nodes at or below some nodes look as their kinds want them to. -/
def AreFormed (source : List Char) (nodes : List Node) : Prop :=
  ∀ node ∈ preorderAmong nodes, node.IsFormed source

/-- There is more than trivia. -/
def HasParts (nodes : List Node) : Prop :=
  partsOf nodes ≠ []

/-- The only node beside trivia is a construct of the language. -/
def IsSole (nodes : List Node) : Prop :=
  ∃ node, partsOf nodes = [node] ∧ node.isSignificant = true

/-- The only node beside trivia is a mere token that is written in a given way. -/
def IsSoleToken (source : List Char) (text : String) (nodes : List Node) : Prop :=
  ∃ token, partsOf nodes = [token] ∧ token.IsToken source text

/-- The last of some nodes is written as a word. -/
def EndsInWord (source : List Char) (nodes : List Node) : Prop :=
  ∃ node, nodes.getLast? = some node ∧ IsWord (node.text source)

/-- The kinds of node whose insides do not matter. -/
@[grind]
def Kind.isPlain : Kind → Bool
  | .string | .concatenatedString | .parenthesized | .expressionStatement => false
  | _ => true

/-- The kinds of node that are not trivia. -/
@[grind]
def Kind.isSubstantial : Kind → Bool
  | .comment | .lineContinuation => false
  | _ => true

section

variable {source : List Char} {nodes first second : List Node} {node : Node} {kind : Kind}

/-! ## Parts -/

@[simp, grind =]
theorem partsOf_nil : partsOf [] = [] :=
  rfl

@[simp]
theorem partsOf_append (first second : List Node) :
    partsOf (first ++ second) = partsOf first ++ partsOf second :=
  List.filter_append ..

theorem partsOf_of_isTrivia (htrivia : ∀ node ∈ nodes, node.isTrivia = true) :
    partsOf nodes = [] :=
  List.filter_eq_nil_iff.2 fun node hnode => by simp [htrivia node hnode]

theorem partsOf_singleton (hnode : node.isTrivia = false) : partsOf [node] = [node] := by
  rw [partsOf, List.filter_singleton, hnode]
  rfl

@[grind =]
theorem hasParts_append : HasParts (first ++ second) ↔ HasParts first ∨ HasParts second := by
  rw [HasParts, partsOf_append, ne_eq, List.append_eq_nil_iff, Classical.not_and_iff_not_or_not]
  rfl

@[grind →]
theorem IsSole.hasParts (hsole : IsSole nodes) : HasParts nodes := by
  obtain ⟨node, hparts, _⟩ := hsole
  simp [HasParts, hparts]

@[grind →]
theorem IsSoleToken.hasParts {text : String} (hsole : IsSoleToken source text nodes) :
    HasParts nodes := by
  obtain ⟨token, hparts, _⟩ := hsole
  simp [HasParts, hparts]

theorem IsSoleToken.isContinuation (hcomma : IsSoleToken source "," nodes) :
    IsContinuation source (partsOf nodes) := by
  obtain ⟨comma, hparts, htoken⟩ := hcomma
  rw [hparts]
  exact .comma htoken

/-- A comma and a value in front of further ones. -/
theorem IsSoleToken.isContinuation_append {comma value rest : List Node}
    (hcomma : IsSoleToken source "," comma) (hvalue : IsSole value)
    (hrest : IsContinuation source (partsOf rest)) :
    IsContinuation source (partsOf (comma ++ value ++ rest)) := by
  obtain ⟨token, hparts, htoken⟩ := hcomma
  obtain ⟨node, hparts', hsignificant⟩ := hvalue
  rw [partsOf_append, partsOf_append, hparts, hparts']
  exact .value htoken hsignificant hrest

theorem IsSole.areValues (hsole : IsSole nodes) : AreValues source (partsOf nodes) := by
  obtain ⟨node, hparts, hsignificant⟩ := hsole
  exact ⟨node, [], hparts, hsignificant, .nil⟩

theorem IsSole.areValues_append {value rest : List Node} (hvalue : IsSole value)
    (hrest : IsContinuation source (partsOf rest)) :
    AreValues source (partsOf (value ++ rest)) := by
  obtain ⟨node, hparts, hsignificant⟩ := hvalue
  refine ⟨node, partsOf rest, ?_, hsignificant, hrest⟩
  rw [partsOf_append, hparts]
  rfl

@[grind →]
theorem AreValues.hasParts (hvalues : AreValues source (partsOf nodes)) : HasParts nodes := by
  obtain ⟨value, rest, hparts, _⟩ := hvalues
  simp [HasParts, hparts]

/-! ## Formed nodes -/

@[grind .]
theorem areFormed_nil : AreFormed source [] :=
  nofun

theorem areFormed_cons :
    AreFormed source (node :: nodes) ↔ AreFormed source [node] ∧ AreFormed source nodes := by
  simp only [AreFormed, preorderAmong, List.append_nil, List.forall_mem_append]

@[simp, grind =]
theorem areFormed_append :
    AreFormed source (first ++ second) ↔ AreFormed source first ∧ AreFormed source second := by
  induction first with
  | nil => simp [AreFormed, preorderAmong]
  | cons node first ih =>
      rw [List.cons_append, areFormed_cons, ih, ← and_assoc, ← areFormed_cons]

theorem areFormed_singleton :
    AreFormed source [node] ↔ node.IsFormed source ∧ AreFormed source node.children := by
  cases node
  simp only [AreFormed, preorderAmong, Node.preorder, List.append_nil, List.forall_mem_cons]
  rfl

theorem AreFormed.of_mem_preorderAmong (hformed : AreFormed source nodes)
    (hnode : node ∈ preorderAmong nodes) : AreFormed source [node] := by
  intro inner hinner
  rw [preorderAmong, preorderAmong, List.append_nil] at hinner
  obtain ⟨outer, houter, hnode⟩ := mem_preorderAmong.1 hnode
  exact hformed inner
    (mem_preorderAmong.2 ⟨outer, houter, Node.mem_preorder_trans hnode hinner⟩)

theorem AreFormed.of_mem (hformed : AreFormed source nodes) (hnode : node ∈ nodes) :
    AreFormed source [node] :=
  hformed.of_mem_preorderAmong (mem_preorderAmong.2 ⟨node, hnode, node.mem_preorder_self⟩)

theorem AreFormed.of_subset (hformed : AreFormed source nodes) (hsubset : first ⊆ nodes) :
    AreFormed source first := by
  intro inner hinner
  obtain ⟨node, hnode, hinner⟩ := mem_preorderAmong.1 hinner
  exact hformed inner (mem_preorderAmong.2 ⟨node, hsubset hnode, hinner⟩)

/-- A node of a plain kind is formed whatever is inside it. -/
theorem Node.IsFormed.of_isPlain (hkind : node.kind.isPlain = true)
    (hfield : node.label.field = none) : node.IsFormed source := by
  constructor
  case definition | name => exact fun hrole => by simp [hfield] at hrole
  all_goals
    intro hother
    rw [hother] at hkind
    cases hkind

/-- A leaf of a plain kind is formed, such as a token or trivia. -/
theorem areFormed_leaf {isNamed : Bool} {start stop : Input} (hkind : kind.isPlain = true) :
    AreFormed source [.leaf kind isNamed start stop] :=
  areFormed_singleton.2 ⟨.of_isPlain hkind rfl, areFormed_nil⟩

theorem Node.isTrivia_of_isSubstantial (hkind : node.kind.isSubstantial = true) :
    node.isTrivia = false := by
  rw [isTrivia]
  cases hnode : node.kind with
  | comment | lineContinuation =>
      rw [hnode] at hkind
      cases hkind
  | _ => rfl

/-! ## Nodes put together -/

theorem head?_dropWhile_isTrivia (nodes : List Node) :
    (nodes.dropWhile Node.isTrivia).head? = (partsOf nodes).head? := by
  rw [partsOf, List.head?_filter]
  induction nodes with
  | nil => rfl
  | cons node nodes ih => cases hnode : node.isTrivia <;> simp [hnode, ih]

theorem partsOf_dropWhile_isTrivia (nodes : List Node) :
    partsOf (nodes.dropWhile Node.isTrivia) = partsOf nodes := by
  induction nodes with
  | nil => rfl
  | cons node nodes ih => cases hnode : node.isTrivia <;> simp [partsOf, hnode] at ih ⊢; assumption

theorem partsOf_reverse (nodes : List Node) : partsOf nodes.reverse = (partsOf nodes).reverse :=
  List.filter_reverse

/-- Where there is nothing but trivia no node is made. -/
theorem wrap_of_partsOf_eq_nil {field : Option Field} (hparts : partsOf nodes = []) :
    wrap kind nodes field = nodes := by
  have hnil : nodes.dropWhile Node.isTrivia = [] := by
    rw [← List.head?_eq_none_iff, head?_dropWhile_isTrivia, hparts]
    rfl
  simp only [wrap, hnil]

/-- A node is made from the first to the last part, and leaves the trivia in front outside. -/
theorem wrap_eq {field : Option Field} (hparts : HasParts nodes) :
    wrap kind nodes field =
      nodes.takeWhile Node.isTrivia ++
        [.mk
          { kind, field
            start := ((partsOf nodes).head hparts).label.start
            stop := ((partsOf nodes).getLast hparts).label.stop }
          (nodes.dropWhile Node.isTrivia)] := by
  have hfirst : (nodes.dropWhile Node.isTrivia).head? = some ((partsOf nodes).head hparts) := by
    exact (head?_dropWhile_isTrivia nodes).trans (List.head?_eq_some_head hparts)
  have hlast : ((nodes.dropWhile Node.isTrivia).reverse.dropWhile Node.isTrivia).head? =
      some ((partsOf nodes).getLast hparts) := by
    rw [head?_dropWhile_isTrivia, partsOf_reverse, partsOf_dropWhile_isTrivia, List.head?_reverse]
    exact List.getLast?_eq_some_getLast hparts
  obtain ⟨inner, hinner⟩ := List.head?_eq_some_iff.1 hfirst
  obtain ⟨earlier, hearlier⟩ := List.head?_eq_some_iff.1 hlast
  rw [hinner] at hearlier
  simp only [wrap, hinner, hearlier]

theorem partsOf_takeWhile_isTrivia (nodes : List Node) :
    partsOf (nodes.takeWhile Node.isTrivia) = [] :=
  partsOf_of_isTrivia fun _ hnode => List.mem_takeWhile_imp hnode

/-- The only part of what is made of nodes with a part is the new node. -/
theorem partsOf_wrap {field : Option Field} (hkind : kind.isSubstantial = true)
    (hparts : HasParts nodes) :
    partsOf (wrap kind nodes field) =
      [.mk
        { kind, field
          start := ((partsOf nodes).head hparts).label.start
          stop := ((partsOf nodes).getLast hparts).label.stop }
        (nodes.dropWhile Node.isTrivia)] := by
  rw [wrap_eq hparts, partsOf_append, partsOf_takeWhile_isTrivia, List.nil_append]
  exact partsOf_singleton (Node.isTrivia_of_isSubstantial hkind)

@[grind .]
theorem isSole_wrap {field : Option Field} (hkind : kind.isSubstantial = true)
    (hparts : HasParts nodes) : IsSole (wrap kind nodes field) := by
  refine ⟨_, partsOf_wrap hkind hparts, ?_⟩
  show (true && !Node.isTrivia _) = true
  rw [Node.isTrivia_of_isSubstantial (by exact hkind)]
  rfl

/-- What is made of formed nodes is formed if the new node is. -/
theorem areFormed_wrap_of {field : Option Field} (hformed : AreFormed source nodes)
    (hself : ∀ node : Node, node.kind = kind → node.label.field = field →
      node.parts = partsOf nodes →
      (∀ first last, (partsOf nodes).head? = some first → (partsOf nodes).getLast? = some last →
        node.label.start = first.label.start ∧ node.label.stop = last.label.stop) →
      node.IsFormed source) :
    AreFormed source (wrap kind nodes field) := by
  by_cases hparts : partsOf nodes = []
  · rw [wrap_of_partsOf_eq_nil hparts]
    exact hformed
  · rw [wrap_eq hparts, areFormed_append, areFormed_singleton]
    refine ⟨hformed.of_subset (List.takeWhile_subset _), ?_,
      hformed.of_subset (List.dropWhile_subset _)⟩
    refine hself _ rfl rfl (partsOf_dropWhile_isTrivia nodes) fun first last hfirst hlast => ?_
    rw [List.head?_eq_some_head hparts, Option.some_inj] at hfirst
    rw [List.getLast?_eq_some_getLast hparts, Option.some_inj] at hlast
    rw [← hfirst, ← hlast]
    exact ⟨rfl, rfl⟩

@[grind .]
theorem areFormed_wrap (hkind : kind.isPlain = true) (hformed : AreFormed source nodes) :
    AreFormed source (wrap kind nodes) :=
  areFormed_wrap_of hformed fun _ hnode hfield _ _ =>
    .of_isPlain (hnode ▸ hkind) hfield

/-- One value in parentheses is formed. -/
theorem areFormed_wrap_parenthesized {opening value closing : List Node}
    (hformed : AreFormed source (opening ++ value ++ closing))
    (hopening : IsSoleToken source "(" opening) (hvalue : IsSole value)
    (hclosing : IsSoleToken source ")" closing) :
    AreFormed source (wrap .parenthesized (opening ++ value ++ closing)) := by
  obtain ⟨left, hleft, hleftToken⟩ := hopening
  obtain ⟨inner, hinner, hsignificant⟩ := hvalue
  obtain ⟨right, hright, hrightToken⟩ := hclosing
  refine areFormed_wrap_of hformed fun node hkind hfield hparts _ => ?_
  constructor
  case parenthesized =>
    refine fun _ => ⟨left, inner, right, ?_, hleftToken, hsignificant, hrightToken⟩
    rw [hparts, partsOf_append, partsOf_append, hleft, hinner, hright]
    rfl
  case definition | name => exact fun hrole => by simp [hfield] at hrole
  all_goals exact fun hother => by simp [hkind] at hother

/-- Several values in parentheses are a tuple, and then the form does not matter. -/
theorem areFormed_wrap_parentheses {opening first rest closing : List Node} {isStarred : Bool}
    (hformed : AreFormed source (opening ++ first ++ rest ++ closing))
    (hopening : IsSoleToken source "(" opening) (hfirst : IsSole first)
    (hclosing : IsSoleToken source ")" closing) :
    AreFormed source
      (wrap (if rest.isEmpty && !isStarred then .parenthesized else .tuple)
        (opening ++ first ++ rest ++ closing)) := by
  split
  case isTrue hsole =>
    rw [Bool.and_eq_true, List.isEmpty_iff] at hsole
    rw [hsole.1, List.append_nil] at hformed ⊢
    exact areFormed_wrap_parenthesized hformed hopening hfirst hclosing
  case isFalse => exact areFormed_wrap rfl hformed

theorem Node.IsFormed.relabel {label : Label} {children : List Node} {field : Option Field}
    (hformed : (Node.mk label children).IsFormed source)
    (hdefinition : field = some .definition → (Node.mk label children).isDefinition = true)
    (hname : field = some .name → IsWord ((Node.mk label children).text source)) :
    (Node.mk { label with field } children).IsFormed source where
  literal := hformed.literal
  literals := hformed.literals
  parenthesized := hformed.parenthesized
  statement := hformed.statement
  definition := hdefinition
  name := hname

end

end Untested.Python
