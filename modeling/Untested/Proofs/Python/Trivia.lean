/-
# Trivia do not count

Comments and explicit line continuations may stand anywhere in a syntax tree, and nodes may end
with them.  A bare tree has no trivia left, and its nodes no longer say where they end, but for
tokens and for nodes whose text is looked at.  Since a tree has the outline of its bare tree,
trees that differ in trivia alone have the same one: with some of the trivia taken out, wherever
they stand, and with nodes that reach further to take in more of them.
-/

import Untested.Proofs.Python.Spans

namespace Untested.Python

/-! ## Bare trees -/

/-- Whether the text of a node is looked at: those of strings and of names are. -/
def Label.isRead (label : Label) : Bool :=
  label.kind = .string || label.field = some .name

/-- The label that a node with the given children has in a bare tree.  It says where the node ends
if it is fixed, and if the node is a token, which has nothing but trivia below it. -/
def Label.bare (fixed : Label → Bool) (label : Label) (children : List Node) : Label :=
  if fixed label || children.all Node.isTrivia then label else { label with stop := label.start }

mutual

/-- The tree without trivia, in which nodes with labels that are not fixed say where they end only
if they are tokens. -/
def Node.bare (fixed : Label → Bool) : Node → Node
  | .mk label children => .mk (label.bare fixed children) (bareAmong fixed children)

/-- The bare trees of the nodes that are not trivia. -/
def bareAmong (fixed : Label → Bool) : List Node → List Node
  | [] => []
  | node :: rest =>
    if node.isTrivia then bareAmong fixed rest else node.bare fixed :: bareAmong fixed rest

end

section

variable (fixed : Label → Bool)

namespace Label

variable (label : Label) (children : List Node)

@[simp] theorem kind_bare : (label.bare fixed children).kind = label.kind := by
  rw [bare]
  split <;> rfl

@[simp] theorem field_bare : (label.bare fixed children).field = label.field := by
  rw [bare]
  split <;> rfl

@[simp] theorem isNamed_bare : (label.bare fixed children).isNamed = label.isNamed := by
  rw [bare]
  split <;> rfl

@[simp] theorem start_bare : (label.bare fixed children).start = label.start := by
  rw [bare]
  split <;> rfl

end Label

namespace Node

variable (node : Node)

theorem label_bare : (node.bare fixed).label = node.label.bare fixed node.children := by
  cases node
  rw [bare]
  rfl

theorem children_bare : (node.bare fixed).children = bareAmong fixed node.children := by
  cases node
  rw [bare]
  rfl

@[simp] theorem kind_bare : (node.bare fixed).kind = node.kind := by
  rw [kind, label_bare, Label.kind_bare]
  rfl

@[simp] theorem isTrivia_bare : (node.bare fixed).isTrivia = node.isTrivia := by
  rw [isTrivia, isTrivia, kind_bare]

@[simp] theorem isSignificant_bare : (node.bare fixed).isSignificant = node.isSignificant := by
  rw [isSignificant, isSignificant, isTrivia_bare, label_bare, Label.isNamed_bare]

@[simp] theorem hasRole_bare (field : Field) :
    (node.bare fixed).hasRole field = node.hasRole field := by
  rw [hasRole, hasRole, isTrivia_bare, label_bare, Label.field_bare]

@[simp] theorem firstLine_bare : (node.bare fixed).firstLine = node.firstLine := by
  rw [firstLine, firstLine, label_bare, Label.start_bare]

variable {fixed node}

theorem text_bare (hfixed : fixed node.label = true) (source : List Char) :
    (node.bare fixed).text source = node.text source := by
  rw [text, text, label_bare, Label.bare, hfixed, Bool.true_or, if_pos rfl]

theorem isSignificant_eq_false (htrivia : node.isTrivia = true) :
    node.isSignificant = false := by
  rw [isSignificant, htrivia, Bool.not_true, Bool.and_false]

theorem hasRole_eq_false (htrivia : node.isTrivia = true) (field : Field) :
    node.hasRole field = false := by
  rw [hasRole, htrivia, Bool.not_true, Bool.and_false]

end Node

/-! ## Spans -/

mutual

theorem Node.lastToken_bare (node : Node) :
    (node.bare fixed).lastToken = node.lastToken.bare fixed := by
  cases node with
  | mk label children =>
      rw [Node.bare, Node.lastToken, Node.lastToken, lastTokenAmong_bareAmong children]
      cases Node.lastTokenAmong children with
      | none => rfl
      | some token => rfl

theorem lastTokenAmong_bareAmong (nodes : List Node) :
    Node.lastTokenAmong (bareAmong fixed nodes) =
      (Node.lastTokenAmong nodes).map (Node.bare fixed) := by
  cases nodes with
  | nil => rfl
  | cons node rest =>
      have hrest := lastTokenAmong_bareAmong rest
      rw [bareAmong, Node.lastTokenAmong]
      split
      case isTrue =>
        rw [hrest]
        cases Node.lastTokenAmong rest with
        | none => rfl
        | some token => rfl
      case isFalse htrivia =>
        rw [Node.lastTokenAmong, hrest]
        cases Node.lastTokenAmong rest with
        | none => simp [htrivia, node.lastToken_bare]
        | some token => rfl

end

namespace Node

/-- A last token has nothing but trivia below it. -/
theorem isTrivia_of_mem_children_lastToken (node : Node) :
    ∀ child ∈ node.lastToken.children, child.isTrivia = true := by
  induction node using forall_of_children with
  | step node ih =>
      rcases node.lastToken_cases with
        ⟨hself, htrivia⟩ | ⟨before, last, after, hchildren, _, _, hlast⟩
      · rwa [hself]
      · rw [hlast]
        exact ih last (by rw [hchildren]; exact List.mem_append_right _ List.mem_cons_self)

theorem endLine_bare {token : Node} (htoken : ∀ child ∈ token.children, child.isTrivia = true) :
    (token.bare fixed).endLine = token.endLine := by
  have hall : token.children.all Node.isTrivia = true := List.all_eq_true.2 htoken
  rw [endLine, endLine, label_bare, Label.bare, hall, Bool.or_true, if_pos rfl]

theorem lastLine_bare (node : Node) : (node.bare fixed).lastLine = node.lastLine := by
  rw [lastLine, lastLine, lastToken_bare,
    endLine_bare fixed node.isTrivia_of_mem_children_lastToken]

/-- A node occupies the same lines in a bare tree, whichever labels are fixed. -/
theorem span_bare (node : Node) : (node.bare fixed).span = node.span := by
  rw [span, span, firstLine_bare, lastLine_bare]

end Node

end

/-! ## Outlines -/

section

variable (source : List Char)

mutual

theorem Node.value_bare (node : Node) :
    (node.bare Label.isRead).value source = node.value source := by
  cases node with
  | mk label children =>
      have hvalues := valuesAmong_bareAmong children
      have htext (hkind : label.kind = .string) :
          ((Node.mk label children).bare Label.isRead).text source =
            (Node.mk label children).text source :=
        Node.text_bare (by simp [Node.label, Label.isRead, hkind]) source
      rw [Node.bare] at htext ⊢
      rw [Node.value, Node.value, Label.kind_bare, hvalues]
      split
      case h_1 => rfl
      case h_2 hkind => rw [htext hkind]
      case h_3 => rfl
      case h_4 => rfl

theorem valuesAmong_bareAmong (nodes : List Node) :
    valuesAmong source (bareAmong Label.isRead nodes) = valuesAmong source nodes := by
  cases nodes with
  | nil => rfl
  | cons node rest =>
      have hrest := valuesAmong_bareAmong rest
      rw [bareAmong, valuesAmong]
      split
      case isTrue htrivia =>
        rw [if_neg (by simp [Node.isSignificant_eq_false htrivia]), hrest]
      case isFalse =>
        rw [valuesAmong, Node.isSignificant_bare, node.value_bare, hrest]

end

theorem childByField?_bare (fixed : Label → Bool) (node : Node) (field : Field) :
    (node.bare fixed).childByField? field = (node.childByField? field).map (Node.bare fixed) := by
  rw [Node.childByField?, Node.childByField?, Node.children_bare]
  induction node.children with
  | nil => rfl
  | cons child rest ih =>
      rw [bareAmong]
      split
      case isTrue htrivia =>
        rw [ih, List.find?_cons_of_neg (by simp [Node.hasRole_eq_false htrivia])]
      case isFalse =>
        rw [List.find?_cons, List.find?_cons, Node.hasRole_bare, ih]
        split <;> rfl

theorem definedName_bare (node : Node) :
    (node.bare Label.isRead).definedName source = node.definedName source := by
  rw [Node.definedName, Node.definedName, childByField?_bare]
  cases hname : node.childByField? .name with
  | none => rfl
  | some name =>
      have hrole := List.find?_some hname
      rw [Node.hasRole, Bool.and_eq_true, decide_eq_true_eq] at hrole
      rw [Option.map_some]
      dsimp only
      rw [Node.text_bare (by simp [Label.isRead, hrole.1]) source]

theorem hasAsyncKeyword_cons (node : Node) (rest : List Node) :
    hasAsyncKeyword (node :: rest) =
      (decide (node.kind = .asyncKeyword) || hasAsyncKeyword rest) :=
  List.any_cons

theorem hasAsyncKeyword_bareAmong (fixed : Label → Bool) (nodes : List Node) :
    hasAsyncKeyword (bareAmong fixed nodes) = hasAsyncKeyword nodes := by
  induction nodes with
  | nil => rfl
  | cons node rest ih =>
      rw [bareAmong, hasAsyncKeyword_cons]
      split
      case isTrue htrivia =>
        have hkind : node.kind ≠ .asyncKeyword := fun hkind => by
          simp [Node.isTrivia, hkind] at htrivia
        rw [ih, decide_eq_false hkind, Bool.false_or]
      case isFalse => rw [hasAsyncKeyword_cons, ih, Node.kind_bare]

/-
Each of the five functions that make the outline runs through a list of nodes or looks at one, and
passes over trivia in its own way, so there is one theorem for each of them.
-/

mutual

theorem Node.statement_bare (node : Node) :
    (node.bare Label.isRead).statement source = node.statement source := by
  cases node with
  | mk label children =>
      have hspan := (Node.mk label children).span_bare Label.isRead
      have hname := definedName_bare source (Node.mk label children)
      rw [Node.bare] at hspan hname ⊢
      rw [Node.statement, Node.statement, Label.kind_bare, hspan, hname,
        hasAsyncKeyword_bareAmong, bodyStatements_bareAmong children,
        definitionStatement?_bareAmong children, valuesAmong_bareAmong,
        blocksAmong_bareAmong children]

theorem statementsAmong_bareAmong (nodes : List Node) :
    statementsAmong source (bareAmong Label.isRead nodes) = statementsAmong source nodes := by
  cases nodes with
  | nil => rfl
  | cons node rest =>
      have hrest := statementsAmong_bareAmong rest
      rw [bareAmong, statementsAmong]
      split
      case isTrue htrivia =>
        rw [if_neg (by simp [Node.isSignificant_eq_false htrivia]), hrest]
      case isFalse =>
        rw [statementsAmong, Node.isSignificant_bare, node.statement_bare, hrest]

theorem bodyStatements_bareAmong (nodes : List Node) :
    bodyStatements source (bareAmong Label.isRead nodes) = bodyStatements source nodes := by
  cases nodes with
  | nil => rfl
  | cons node rest =>
      cases node with
      | mk label children =>
          have hrest := bodyStatements_bareAmong rest
          have hrole := (Node.mk label children).hasRole_bare Label.isRead .body
          rw [bareAmong, bodyStatements]
          split
          case isTrue htrivia =>
            rw [if_neg (by simp [Node.hasRole_eq_false htrivia]), hrest]
          case isFalse =>
            rw [Node.bare] at hrole ⊢
            rw [bodyStatements, hrole, statementsAmong_bareAmong children, hrest]

theorem definitionStatement?_bareAmong (nodes : List Node) :
    definitionStatement? source (bareAmong Label.isRead nodes) =
      definitionStatement? source nodes := by
  cases nodes with
  | nil => rfl
  | cons node rest =>
      have hrest := definitionStatement?_bareAmong rest
      rw [bareAmong, definitionStatement?]
      split
      case isTrue htrivia =>
        rw [if_neg (by simp [Node.hasRole_eq_false htrivia]), hrest]
      case isFalse =>
        rw [definitionStatement?, Node.hasRole_bare, node.statement_bare, hrest]

theorem blocksAmong_bareAmong (nodes : List Node) :
    blocksAmong source (bareAmong Label.isRead nodes) = blocksAmong source nodes := by
  cases nodes with
  | nil => rfl
  | cons node rest =>
      cases node with
      | mk label children =>
          have hrest := blocksAmong_bareAmong rest
          have hsignificant := (Node.mk label children).isSignificant_bare Label.isRead
          rw [bareAmong, blocksAmong]
          split
          case isTrue htrivia =>
            rw [if_pos (by simp [Node.isSignificant_eq_false htrivia]), hrest]
          case isFalse =>
            rw [Node.bare] at hsignificant ⊢
            rw [blocksAmong, hsignificant, Label.kind_bare, statementsAmong_bareAmong children,
              blocksAmong_bareAmong children, hrest]

end

/-- A tree has the outline of its bare tree. -/
theorem outline_bare (root : Node) :
    (root.bare Label.isRead).outline source = root.outline source := by
  rw [Node.outline, Node.outline, Node.children_bare, statementsAmong_bareAmong]

/-- Trees with the same bare tree have the same outline. -/
theorem outline_eq_of_bare_eq {first second : Node}
    (hbare : first.bare Label.isRead = second.bare Label.isRead) :
    first.outline source = second.outline source := by
  rw [← outline_bare source first, hbare, outline_bare source second]

end

/-! ## Taking trivia out -/

mutual

/-- The tree without the trivia at the chosen places, each of them a way from the root to a
node. -/
def Node.deleting (chosen : List Nat → Bool) : Node → Node
  | .mk label children => .mk label (deletingFrom chosen 0 children)

/-- The nodes without the trivia at the chosen places, where the first node has the given
position. -/
def deletingFrom (chosen : List Nat → Bool) (position : Nat) : List Node → List Node
  | [] => []
  | node :: rest =>
    if node.isTrivia && chosen [position] then deletingFrom chosen (position + 1) rest
    else
      node.deleting (fun place => chosen (position :: place)) ::
        deletingFrom chosen (position + 1) rest

end

theorem Node.isTrivia_deleting (chosen : List Nat → Bool) (node : Node) :
    (node.deleting chosen).isTrivia = node.isTrivia := by
  cases node
  rw [deleting]
  rfl

theorem all_isTrivia_deletingFrom (chosen : List Nat → Bool) (position : Nat) (nodes : List Node) :
    (deletingFrom chosen position nodes).all Node.isTrivia = nodes.all Node.isTrivia := by
  induction nodes generalizing position with
  | nil => rfl
  | cons node rest ih =>
      rw [deletingFrom, List.all_cons]
      split
      case isTrue hdeleted =>
        rw [Bool.and_eq_true] at hdeleted
        rw [ih, hdeleted.1, Bool.true_and]
      case isFalse => rw [List.all_cons, ih, Node.isTrivia_deleting]

section

variable (fixed : Label → Bool)

mutual

/-- Deleting trivia makes no difference to the bare tree. -/
theorem Node.bare_deleting (chosen : List Nat → Bool) (node : Node) :
    (node.deleting chosen).bare fixed = node.bare fixed := by
  cases node with
  | mk label children =>
      rw [Node.deleting, Node.bare, Node.bare, bareAmong_deletingFrom chosen 0 children,
        Label.bare, Label.bare, all_isTrivia_deletingFrom]

theorem bareAmong_deletingFrom (chosen : List Nat → Bool) (position : Nat) (nodes : List Node) :
    bareAmong fixed (deletingFrom chosen position nodes) = bareAmong fixed nodes := by
  cases nodes with
  | nil => rfl
  | cons node rest =>
      have hrest := bareAmong_deletingFrom chosen (position + 1) rest
      rw [deletingFrom]
      split
      case isTrue hdeleted =>
        rw [Bool.and_eq_true] at hdeleted
        rw [hrest, bareAmong, if_pos hdeleted.1]
      case isFalse =>
        rw [bareAmong, bareAmong, Node.isTrivia_deleting, Node.bare_deleting _ node, hrest]

end

end

/-! ## Taking trivia in -/

/-- A tree of which some nodes have taken in further trivia at their ends, and may reach further
for it.  Tokens do not reach further, and neither do nodes with labels that are fixed. -/
inductive Node.Grows (fixed : Label → Bool) : Node → Node → Prop
  | grow {label : Label} {stop : Position} {children grown trivia : List Node} :
      List.Forall₂ (Grows fixed) children grown → (∀ node ∈ trivia, node.isTrivia = true) →
      (stop = label.stop ∨ fixed label = false ∧ ∃ child ∈ children, child.isTrivia = false) →
      Grows fixed (.mk label children) (.mk { label with stop := stop } (grown ++ trivia))

section

variable {fixed : Label → Bool}

theorem Node.Grows.isTrivia_eq {node grown : Node} (hgrows : node.Grows fixed grown) :
    grown.isTrivia = node.isTrivia := by
  cases hgrows
  rfl

theorem bareAmong_append (first second : List Node) :
    bareAmong fixed (first ++ second) = bareAmong fixed first ++ bareAmong fixed second := by
  induction first with
  | nil => rfl
  | cons node rest ih =>
      rw [List.cons_append, bareAmong, bareAmong, ih]
      split <;> rfl

theorem bareAmong_of_isTrivia {nodes : List Node} (htrivia : ∀ node ∈ nodes, node.isTrivia = true) :
    bareAmong fixed nodes = [] := by
  induction nodes with
  | nil => rfl
  | cons node rest ih =>
      rw [List.forall_mem_cons] at htrivia
      rw [bareAmong, if_pos htrivia.1, ih htrivia.2]

theorem bareAmong_eq_of_forall₂ {nodes grown : List Node}
    (hgrows : List.Forall₂ (Node.Grows fixed) nodes grown)
    (hbare : ∀ node ∈ nodes, ∀ grown, node.Grows fixed grown → grown.bare fixed = node.bare fixed) :
    bareAmong fixed grown = bareAmong fixed nodes := by
  induction hgrows with
  | nil => rfl
  | cons hfirst _ ih =>
      rw [List.forall_mem_cons] at hbare
      rw [bareAmong, bareAmong, hfirst.isTrivia_eq, hbare.1 _ hfirst, ih hbare.2]

theorem all_isTrivia_of_forall₂ {nodes grown : List Node}
    (hgrows : List.Forall₂ (Node.Grows fixed) nodes grown) :
    grown.all Node.isTrivia = nodes.all Node.isTrivia := by
  induction hgrows with
  | nil => rfl
  | cons hfirst _ ih => rw [List.all_cons, List.all_cons, hfirst.isTrivia_eq, ih]

/-- Growing makes no difference to the bare tree, as long as labels are not fixed for the places
where their nodes end. -/
theorem Node.Grows.bare_eq {node grown : Node} (hgrows : node.Grows fixed grown)
    (hfixed : ∀ (label : Label) stop, fixed { label with stop := stop } = fixed label) :
    grown.bare fixed = node.bare fixed := by
  induction node using Node.forall_of_children generalizing grown with
  | step node ih =>
      cases hgrows with
      | @grow label stop children grown trivia hchildren htrivia hstop =>
          have hbare := bareAmong_eq_of_forall₂ hchildren fun child hchild grown => ih child hchild
          have hall : (grown ++ trivia).all Node.isTrivia = children.all Node.isTrivia := by
            rw [List.all_append, all_isTrivia_of_forall₂ hchildren, List.all_eq_true.2 htrivia,
              Bool.and_true]
          have hlabel : { label with stop := stop }.bare fixed (grown ++ trivia) =
              label.bare fixed children := by
            rw [Label.bare, Label.bare, hall, hfixed]
            rcases hstop with rfl | ⟨hfree, child, hchild, hsubstantial⟩
            · rfl
            · have hsome : children.all Node.isTrivia = false :=
                List.all_eq_false.2 ⟨child, hchild, by simp [hsubstantial]⟩
              rw [hfree, hsome]
              rfl
          rw [Node.bare, Node.bare, hlabel, bareAmong_append, bareAmong_of_isTrivia htrivia, hbare,
            List.append_nil]

end

/-! ## The ends of spans -/

/-- A node ends in a token if that is the last thing below it, trivia apart: it is reached
through last children and has nothing but trivia below it. -/
inductive Node.EndsIn : Node → Node → Prop
  | token {label : Label} {before after : List Node} {token : Node} :
      token.isTrivia = false → (∀ node ∈ after, node.isTrivia = true) →
      (∀ node ∈ token.children, node.isTrivia = true) →
      EndsIn (.mk label (before ++ token :: after)) token
  | inner {label : Label} {before after : List Node} {last token : Node} :
      last.isTrivia = false → (∀ node ∈ after, node.isTrivia = true) → EndsIn last token →
      EndsIn (.mk label (before ++ last :: after)) token

namespace Node

theorem lastTokenAmong_of_isTrivia {nodes : List Node}
    (htrivia : ∀ node ∈ nodes, node.isTrivia = true) : lastTokenAmong nodes = none := by
  induction nodes with
  | nil => rfl
  | cons node rest ih =>
      rw [List.forall_mem_cons] at htrivia
      rw [lastTokenAmong, ih htrivia.2]
      exact if_pos htrivia.1

/-- The last token of a node is that of its last child, trivia apart. -/
theorem lastToken_of_last {label : Label} {before after : List Node} {last : Node}
    (hlast : last.isTrivia = false) (hafter : ∀ node ∈ after, node.isTrivia = true) :
    (mk label (before ++ last :: after)).lastToken = last.lastToken := by
  have hamong : lastTokenAmong (before ++ last :: after) = some last.lastToken := by
    induction before with
    | nil =>
        rw [List.nil_append, lastTokenAmong, lastTokenAmong_of_isTrivia hafter]
        exact if_neg (by simp [hlast])
    | cons node before ih => rw [List.cons_append, lastTokenAmong, ih]
  rw [lastToken, hamong]
  rfl

theorem lastToken_of_isTrivia {token : Node}
    (htoken : ∀ child ∈ token.children, child.isTrivia = true) : token.lastToken = token := by
  cases token with
  | mk label children =>
      have hnone : lastTokenAmong children = none := lastTokenAmong_of_isTrivia htoken
      rw [lastToken, hnone]
      rfl

theorem EndsIn.lastToken_eq {node token : Node} (hends : node.EndsIn token) :
    node.lastToken = token := by
  induction hends with
  | token hsubstantial hafter htoken =>
      rw [lastToken_of_last hsubstantial hafter, lastToken_of_isTrivia htoken]
  | inner hlast hafter _ ih => rw [lastToken_of_last hlast hafter, ih]

/-- A node with more than trivia below it ends in a token. -/
theorem exists_endsIn (node : Node) (hchild : ∃ child ∈ node.children, child.isTrivia = false) :
    ∃ token, node.EndsIn token := by
  induction node using forall_of_children with
  | step node ih =>
      cases node with
      | mk label children =>
          rcases lastTokenAmong_cases children with
            ⟨-, hall⟩ | ⟨before, last, after, rfl, hlast, hafter, -⟩
          · obtain ⟨child, hmem, hsubstantial⟩ := hchild
            rw [hall child hmem] at hsubstantial
            cases hsubstantial
          · by_cases hbelow : ∃ child ∈ last.children, child.isTrivia = false
            · obtain ⟨token, htoken⟩ :=
                ih last (List.mem_append_right _ List.mem_cons_self) hbelow
              exact ⟨token, .inner hlast hafter htoken⟩
            · refine ⟨last, .token hlast hafter fun child hmem => ?_⟩
              by_contra htrivia
              exact hbelow ⟨child, hmem, Bool.not_eq_true _ ▸ htrivia⟩

/-- The definition behind the decorators of a node. -/
def definition? (node : Node) : Option Node :=
  if node.kind = .decoratedDefinition then node.childByField? .definition else none

section

variable (source : List Char) {node : Node}

theorem statement_of_definition {definition : Node}
    (hdefinition : node.definition? = some definition) :
    node.statement source = definition.statement source := by
  rw [definition?] at hdefinition
  split at hdefinition
  case isTrue hkind =>
    cases node with
    | mk label children =>
        rw [kind, Node.label] at hkind
        rw [statement, hkind]
        dsimp only
        rw [definitionStatement?_eq]
        have hchild : inRole? .definition children = some definition := hdefinition
        rw [hchild]
        rfl
  case isFalse => cases hdefinition

/-- Any other statement occupies the lines of its node. -/
theorem span_statement_of_definition?_eq_none (hnone : node.definition? = none) :
    (node.statement source).span = node.span := by
  cases node with
  | mk label children =>
      rw [definition?, kind, Node.label] at hnone
      rw [statement]
      split
      case h_1 => rfl
      case h_2 => rfl
      case h_3 hkind =>
        rw [if_pos hkind] at hnone
        have hchild : inRole? .definition children = none := hnone
        rw [definitionStatement?_eq, hchild]
        rfl
      case h_4 => rfl
      case h_5 => split <;> rfl

end

end Node

/-! ## Independence of trivia -/

/-- Trivia have no influence on an outline.  It stays the same when any of them are taken out,
wherever they stand, and when nodes take in further ones and reach further for them, except that
the text of a string or of a name must stay the same.  A statement ends on the line on which the
last token of its node ends, or on the line before if the token ends at the very beginning of a
later line; what else the node has at its end, and where it ends itself, does not matter. -/
theorem outline_without_trivia (source : List Char) {root : Node}
    (hlaid : ∀ node ∈ root.preorder, node.IsLaidOut) :
    (∀ chosen, (root.deleting chosen).outline source = root.outline source) ∧
    (∀ grown, root.Grows Label.isRead grown → grown.outline source = root.outline source) ∧
    ∀ node ∈ root.preorder,
      (∀ definition, node.definition? = some definition →
        node.statement source = definition.statement source) ∧
      (node.definition? = none → (node.statement source).span = node.span) ∧
      ((∃ child ∈ node.children, child.isTrivia = false) → ∃ token, node.EndsIn token) ∧
      (∀ token, node.EndsIn token → node.span.stop =
        if token.label.stop.column = 0 ∧ token.label.start.row < token.label.stop.row then
          token.label.stop.row
        else token.label.stop.row + 1) ∧
      ∀ grown, node.Grows (fun _ => false) grown → grown.span = node.span := by
  refine ⟨fun chosen => ?_, fun grown hgrows => ?_, fun node hnode => ?_⟩
  · exact outline_eq_of_bare_eq source (root.bare_deleting _ chosen)
  · exact outline_eq_of_bare_eq source (hgrows.bare_eq fun _ _ => rfl)
  · refine ⟨fun definition => Node.statement_of_definition source,
      Node.span_statement_of_definition?_eq_none source, node.exists_endsIn, ?_, ?_⟩
    · intro token hends
      have hbelow : ∀ inner ∈ node.preorder, inner.IsLaidOut := fun inner hinner =>
        hlaid inner (Node.mem_preorder_trans hnode hinner)
      rw [(Node.span_eq hbelow).2, Node.lastLine, hends.lastToken_eq, Node.endLine]
      simp only [Bool.and_eq_true, decide_eq_true_eq]
    · intro grown hgrows
      rw [← node.span_bare fun _ => false, ← hgrows.bare_eq fun _ _ => rfl, Node.span_bare]

theorem outline_without_trivia_commentedSource :
    ((syntaxTree commentedSource).deleting fun _ => true).size < (syntaxTree commentedSource).size ∧
    ((syntaxTree commentedSource).deleting fun _ => true).outline commentedSource =
      (syntaxTree commentedSource).outline commentedSource ∧
    ∀ node ∈ (syntaxTree commentedSource).preorder, ∀ token, node.EndsIn token → node.span.stop =
      if token.label.stop.column = 0 ∧ token.label.start.row < token.label.stop.row then
        token.label.stop.row
      else token.label.stop.row + 1 := by
  have hlaid : ∀ node ∈ (syntaxTree commentedSource).preorder, node.IsLaidOut := by
    decide +kernel
  obtain ⟨hdeleting, -, hnodes⟩ := outline_without_trivia commentedSource hlaid
  exact ⟨by decide +kernel, hdeleting _, fun node hnode => (hnodes node hnode).2.2.2.1⟩

end Untested.Python
