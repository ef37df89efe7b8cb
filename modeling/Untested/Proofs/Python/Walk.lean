/-
# A walk meets every node once

A cursor has the nodes at and below it ahead, then those at and below its later siblings, and then
the same for each node above it.  Each step of the walk takes the node under the cursor off this
list, so the walk that begins at the root of a tree goes through all its nodes in the order of the
source text.  A node is found by its place, a path of positions from the root.  The places ascend
along the walk, so no node is met twice.

Nodes that come later in this order start later, or at the same place.  The first one that marks a
malformed place is therefore one that no other starts before.
-/

import Untested.Proofs.Python.Spans

namespace Untested.Python

theorem preorderAmong_eq (nodes : List Node) :
    preorderAmong nodes = nodes.flatMap Node.preorder := by
  induction nodes with
  | nil => rfl
  | cons node rest ih => rw [preorderAmong, ih, List.flatMap_cons]

namespace Cursor

/-! ## Steps -/

/-- Going up is a loop: on to the next sibling if there is one, and from the parent if not. -/
theorem climb?_eq (cursor : Cursor) :
    cursor.climb? = cursor.nextSibling?.or (cursor.parent?.bind climb?) := by
  obtain ⟨focus, later, above⟩ := cursor
  cases later <;> cases above <;> rfl

/-- The nodes that come behind a node and those below it. -/
def nodesBehind (later : List Node) (above : List (Node × List Node)) : List Node :=
  preorderAmong later ++ above.flatMap fun level => preorderAmong level.2

/-- The nodes that a walk from the cursor has to meet. -/
def nodesAhead (cursor : Cursor) : List Node :=
  cursor.focus.preorder ++ nodesBehind cursor.later cursor.above

/-- Going up leads to the first of the nodes behind, if there are any. -/
theorem nodesBehind_eq (cursor : Cursor) :
    nodesBehind cursor.later cursor.above = (cursor.climb?.map nodesAhead).getD [] := by
  obtain ⟨focus, later, above⟩ := cursor
  induction above generalizing focus later with
  | nil =>
      rw [climb?_eq]
      cases later with
      | nil => rfl
      | cons sibling rest => exact List.append_assoc ..
  | cons level above ih =>
      rw [climb?_eq]
      cases later with
      | nil => exact ih level.1 level.2
      | cons sibling rest => exact List.append_assoc ..

/-- A step takes the node under the cursor off the nodes ahead. -/
theorem nodesAhead_eq (cursor : Cursor) :
    cursor.nodesAhead = cursor.focus :: (cursor.next?.map nodesAhead).getD [] := by
  rw [nodesAhead, Node.preorder_eq, List.cons_append, next?, firstChild?]
  cases hchildren : cursor.focus.children with
  | nil => exact congrArg (cursor.focus :: ·) cursor.nodesBehind_eq
  | cons child rest =>
      simp [nodesAhead, nodesBehind, preorderAmong]

theorem walk_cons (cursor : Cursor) :
    cursor.walk = cursor.focus :: (cursor.next?.map walk).getD [] := by
  rw [walk]
  split
  · rename_i hnone
    rw [hnone]
    rfl
  · rename_i following hfollowing
    simp only [hfollowing, Option.map_some, Option.getD_some]

/-- The walk from a cursor meets the nodes ahead of it, in their order. -/
theorem walk_eq_nodesAhead (cursor : Cursor) : cursor.walk = cursor.nodesAhead := by
  rw [walk_cons, nodesAhead_eq]
  cases hnext : cursor.next? with
  | none => rfl
  | some following =>
      have := ahead_lt_of_next?_eq_some hnext
      exact congrArg (cursor.focus :: ·) (walk_eq_nodesAhead following)
termination_by cursor.ahead

/-- Where a walk is after some steps, unless it is over. -/
def after (cursor : Cursor) : Nat → Option Cursor
  | 0 => some cursor
  | count + 1 => cursor.next?.bind fun following => following.after count

/-- Step by step the walk meets one node after the other, and it is over behind the last one. -/
theorem map_focus_after (cursor : Cursor) (count : Nat) :
    (cursor.after count).map focus = cursor.walk[count]? := by
  induction count generalizing cursor with
  | zero => rw [walk_cons]; rfl
  | succ count ih =>
      rw [after, walk_cons, List.getElem?_cons_succ]
      cases cursor.next? with
      | none => rfl
      | some following => exact ih following

end Cursor

namespace Node

theorem descendants_eq_preorder (node : Node) : node.descendants = node.preorder := by
  rw [descendants, Cursor.walk_eq_nodesAhead]
  exact List.append_nil _

/-! ## Places -/

/-- The node at a place, which leads from a node to its children. -/
def at? (node : Node) : List Nat → Option Node
  | [] => some node
  | position :: place => node.children[position]?.bind fun child => child.at? place

mutual

/-- A node and the nodes below it, each with the way that leads to it from there. -/
def placed : Node → List (List Nat × Node)
  | .mk label children => ([], .mk label children) :: placedFrom 0 children

/-- The nodes at or below those of a list, whose positions are counted from a given one. -/
def placedFrom (position : Nat) : List Node → List (List Nat × Node)
  | [] => []
  | node :: rest =>
    node.placed.map (Prod.map (position :: ·) id) ++ placedFrom (position + 1) rest

end

theorem placed_eq (node : Node) : node.placed = ([], node) :: placedFrom 0 node.children := by
  cases node
  rw [placed]
  rfl

mutual

/-- Without the places, the list has the nodes in the order of the source text. -/
theorem map_snd_placed (node : Node) : node.placed.map Prod.snd = node.preorder := by
  cases node with
  | mk label children =>
      rw [placed, preorder, List.map_cons, map_snd_placedFrom 0 children]

theorem map_snd_placedFrom (position : Nat) (nodes : List Node) :
    (placedFrom position nodes).map Prod.snd = preorderAmong nodes := by
  cases nodes with
  | nil => rfl
  | cons node rest =>
      rw [placedFrom, preorderAmong, List.map_append, List.map_map,
        map_snd_placedFrom (position + 1) rest, ← map_snd_placed node]
      rfl

end

theorem mem_placedFrom_iff {position : Nat} {place : List Nat} {inner : Node}
    {nodes : List Node} :
    (place, inner) ∈ placedFrom position nodes ↔
      ∃ count rest node, place = (position + count) :: rest ∧ nodes[count]? = some node ∧
        (rest, inner) ∈ node.placed := by
  induction nodes generalizing position with
  | nil => simp [placedFrom]
  | cons node nodes ih =>
      rw [placedFrom, List.mem_append, ih, List.mem_map]
      constructor
      · rintro (⟨⟨rest, other⟩, hmem, heq⟩ | ⟨count, rest, outer, rfl, hcount, hmem⟩)
        · obtain ⟨rfl, rfl⟩ := Prod.mk.inj heq
          exact ⟨0, rest, node, rfl, rfl, hmem⟩
        · exact ⟨count + 1, rest, outer, by rw [Nat.add_assoc, Nat.add_comm 1], hcount, hmem⟩
      · rintro ⟨count, rest, outer, rfl, hcount, hmem⟩
        cases count with
        | zero =>
            obtain rfl := Option.some.inj hcount
            exact .inl ⟨(rest, inner), hmem, rfl⟩
        | succ count =>
            exact .inr ⟨count, rest, outer, by rw [Nat.add_assoc, Nat.add_comm 1], hcount, hmem⟩

/-- The list has every node of the tree with its place, and nothing else. -/
theorem mem_placed_iff {place : List Nat} {inner node : Node} :
    (place, inner) ∈ node.placed ↔ node.at? place = some inner := by
  induction place generalizing node with
  | nil =>
      rw [placed_eq, List.mem_cons]
      constructor
      · rintro (heq | hmem)
        · rw [(Prod.mk.inj heq).2]
          rfl
        · obtain ⟨_, _, _, heq, -⟩ := mem_placedFrom_iff.1 hmem
          cases heq
      · intro hat
        obtain rfl := Option.some.inj hat
        exact .inl rfl
  | cons position place ih =>
      rw [placed_eq, List.mem_cons, mem_placedFrom_iff, at?, Option.bind_eq_some_iff]
      constructor
      · rintro (heq | ⟨count, rest, child, hplace, hcount, hmem⟩)
        · cases heq
        · rw [Nat.zero_add] at hplace
          obtain ⟨rfl, rfl⟩ := List.cons.inj hplace
          exact ⟨child, hcount, ih.1 hmem⟩
      · rintro ⟨child, hposition, hat⟩
        exact .inr ⟨position, place, child, by rw [Nat.zero_add], hposition, ih.2 hat⟩

mutual

/-- The places ascend. -/
theorem pairwise_placed (node : Node) :
    node.placed.Pairwise fun first second => first.1 < second.1 := by
  cases node with
  | mk label children =>
      rw [placed, List.pairwise_cons]
      refine ⟨fun other hother => ?_, pairwise_placedFrom 0 children⟩
      obtain ⟨place, inner⟩ := other
      obtain ⟨_, _, _, rfl, -⟩ := mem_placedFrom_iff.1 hother
      exact List.Lex.nil

theorem pairwise_placedFrom (position : Nat) (nodes : List Node) :
    (placedFrom position nodes).Pairwise fun first second => first.1 < second.1 := by
  cases nodes with
  | nil => exact .nil
  | cons node rest =>
      rw [placedFrom, List.pairwise_append, List.pairwise_map]
      refine ⟨(pairwise_placed node).imp fun hlt => List.Lex.cons hlt,
        pairwise_placedFrom (position + 1) rest, ?_⟩
      intro first hfirst second hsecond
      obtain ⟨inner, -, rfl⟩ := List.mem_map.1 hfirst
      obtain ⟨place, other⟩ := second
      obtain ⟨count, _, _, rfl, -⟩ := mem_placedFrom_iff.1 hsecond
      exact List.Lex.rel (by omega)

end

/-- A node is at some place of a tree when it is one of its nodes. -/
theorem exists_at?_iff {inner node : Node} :
    (∃ place, node.at? place = some inner) ↔ inner ∈ node.preorder := by
  simp only [← mem_placed_iff, ← map_snd_placed, List.mem_map, Prod.exists, exists_eq_right]

end Node

/-! ## The order of the source text -/

namespace Position

variable {first second third : Position}

theorem le_def : first ≤ second ↔
    first.row < second.row ∨ first.row = second.row ∧ first.column ≤ second.column :=
  Iff.rfl

theorem le_refl (position : Position) : position ≤ position :=
  .inr ⟨rfl, Nat.le_refl _⟩

theorem le_trans (hfirst : first ≤ second) (hsecond : second ≤ third) : first ≤ third := by
  rw [le_def] at *
  omega

end Position

namespace Node

variable {node inner : Node}

/-- A node of a tree lies where the tree does. -/
theorem bounds_of_mem_preorder (hlaid : ∀ inner ∈ node.preorder, inner.IsLaidOut)
    (hinner : inner ∈ node.preorder) :
    node.label.start ≤ inner.label.start ∧ inner.label.stop ≤ node.label.stop := by
  induction node using forall_of_children with
  | step node ih =>
      rcases mem_preorder_iff.1 hinner with rfl | ⟨child, hchild, hinner⟩
      · exact ⟨Position.le_refl _, Position.le_refl _⟩
      · have hbounds := ih child hchild
          (fun other hother => hlaid other (mem_preorder_of_mem_children hchild hother)) hinner
        have hinside := (hlaid node node.mem_preorder_self).inside child hchild
        exact ⟨Position.le_trans hinside.1 hbounds.1, Position.le_trans hbounds.2 hinside.2⟩

/-- Nodes that are listed later start later, or at the same place. -/
theorem pairwise_start_preorder (hlaid : ∀ inner ∈ node.preorder, inner.IsLaidOut) :
    node.preorder.Pairwise fun first second => first.label.start ≤ second.label.start := by
  induction node using forall_of_children with
  | step node ih =>
      have hself := hlaid node node.mem_preorder_self
      have hbelow (child : Node) (hchild : child ∈ node.children) :
          ∀ inner ∈ child.preorder, inner.IsLaidOut :=
        fun other hother => hlaid other (mem_preorder_of_mem_children hchild hother)
      rw [preorder_eq, List.pairwise_cons, preorderAmong_eq, List.pairwise_flatMap]
      refine ⟨fun inner hinner => ?_, fun child hchild => ih child hchild (hbelow child hchild),
        hself.apart.imp_of_mem fun {earlier later} hearlier hlater hapart => ?_⟩
      · rw [← preorderAmong_eq] at hinner
        exact (bounds_of_mem_preorder hlaid
          (mem_preorder_iff.2 (.inr (mem_preorderAmong.1 hinner)))).1
      · intro first hfirst second hsecond
        have hstart := (hbelow earlier hearlier first hfirst).start_le_stop
        have hstop := (bounds_of_mem_preorder (hbelow earlier hearlier) hfirst).2
        have hnext := (bounds_of_mem_preorder (hbelow later hlater) hsecond).1
        exact Position.le_trans (Position.le_trans hstart hstop) (Position.le_trans hapart hnext)

/-! ## Malformed places -/

mutual

theorem hasFault_eq_any (node : Node) : node.hasFault = node.preorder.any isFault := by
  cases node with
  | mk label children => rw [hasFault, preorder, List.any_cons, anyHasFault_eq_any children]

theorem anyHasFault_eq_any (nodes : List Node) :
    anyHasFault nodes = (preorderAmong nodes).any isFault := by
  cases nodes with
  | nil => rfl
  | cons node rest =>
      rw [anyHasFault, preorderAmong, List.any_append, hasFault_eq_any node,
        anyHasFault_eq_any rest]

end

/-- A tree has a malformed place when one of its nodes marks it. -/
theorem hasFault_iff : node.hasFault = true ↔ ∃ inner ∈ node.preorder, inner.isFault = true := by
  rw [hasFault_eq_any, List.any_eq_true]

theorem firstFault?_eq (node : Node) : node.firstFault? = node.preorder.find? isFault := by
  rw [firstFault?, descendants_eq_preorder]

/-- The walk finds a node that marks a malformed place if there is one. -/
theorem exists_firstFault? (hfault : node.hasFault = true) :
    ∃ first, node.firstFault? = some first := by
  rw [← Option.isSome_iff_exists, firstFault?_eq, List.find?_isSome]
  exact hasFault_iff.1 hfault

theorem mem_of_firstFault? {first : Node} (hfirst : node.firstFault? = some first) :
    first ∈ node.preorder ∧ first.isFault = true := by
  rw [firstFault?_eq] at hfirst
  exact ⟨List.mem_of_find?_eq_some hfirst, List.find?_some hfirst⟩

/-- No other node that marks a malformed place starts before the one that is found. -/
theorem start_le_of_firstFault? {first : Node} (hlaid : ∀ inner ∈ node.preorder, inner.IsLaidOut)
    (hfirst : node.firstFault? = some first) (hinner : inner ∈ node.preorder)
    (hfault : inner.isFault = true) : first.label.start ≤ inner.label.start := by
  rw [firstFault?_eq] at hfirst
  obtain ⟨-, before, after, hsplit, hbefore⟩ := List.find?_eq_some_iff_append.1 hfirst
  have hordered := pairwise_start_preorder hlaid
  rw [hsplit, List.pairwise_append, List.pairwise_cons] at hordered
  rw [hsplit, List.mem_append, List.mem_cons] at hinner
  rcases hinner with hinner | rfl | hinner
  · have := hbefore inner hinner
    rw [hfault] at this
    cases this
  · exact Position.le_refl _
  · exact hordered.2.1.1 inner hinner

end Node

/-! ## Malformed texts -/

theorem isFault_malformedNode (source : List Char) (place : Position) :
    (malformedNode source place).isFault = true := by
  rw [malformedNode]
  split
  · rename_i repair _
    -- where nothing is put in, a stretch is left out
    cases htext : repair.text.isEmpty <;>
      simp [Repair.node, htext, Node.isFault, Node.kind, Node.label]
  · rfl

/-- A text at which the parser fails has a malformed place. -/
theorem hasFault_syntaxTree {source : List Char}
    (hrun : ((topLevelStatements (rulesWithin (nestingBound source)) (nestingBound source)).run
      (.start source)).isOk = false) : (syntaxTree source).hasFault = true := by
  rw [syntaxTree]
  split
  · rename_i hok
    rw [hok] at hrun
    cases hrun
  · rename_i place _
    refine Node.hasFault_iff.2 ⟨malformedNode source place, ?_, isFault_malformedNode source place⟩
    exact Node.mem_preorder_of_mem_children List.mem_cons_self (Node.mem_preorder_self _)

/-- The fault of a malformed text tells where the first node that marks a malformed place starts. -/
theorem parse_of_firstFault? {source : List Char} {first : Node} (path : String)
    (hfirst : (syntaxTree source).firstFault? = some first) :
    parse path source = .error (.malformedSource path (first.label.start.row + 1)
      (first.label.start.column + 1)) := by
  have hfault : (syntaxTree source).hasFault = true :=
    Node.hasFault_iff.2 ⟨first, Node.mem_of_firstFault? hfirst⟩
  rw [parse, if_pos hfault, hfirst]

/-- The walk from a node ends, and it meets what is at or below that node and nothing else: each
place of the tree once, in ascending order.  If some node of the tree marks a malformed place, the
walk finds such a node, and when the nodes lie within one another and follow one another, no other
one of them starts before it.  It is where the fault of a malformed text says that the text is
malformed, which is never for lack of a node. -/
theorem walk_meets_first_fault (node : Node) :
    (∀ count, (({ focus := node } : Cursor).after count).map Cursor.focus =
      node.descendants[count]?) ∧
    (∃ placed : List (List Nat × Node), placed.map Prod.snd = node.descendants ∧
      (placed.Pairwise fun first second => first.1 < second.1) ∧
      ∀ place inner, (place, inner) ∈ placed ↔ node.at? place = some inner) ∧
    (node.hasFault = true ↔ ∃ place inner, node.at? place = some inner ∧ inner.isFault = true) ∧
    (node.hasFault = true → ∃ first, node.firstFault? = some first ∧ first.isFault = true ∧
      (∃ place, node.at? place = some first) ∧
      ((∀ inner ∈ node.preorder, inner.IsLaidOut) → ∀ place inner, node.at? place = some inner →
        inner.isFault = true → first.label.start ≤ inner.label.start) ∧
      ∀ path source, syntaxTree source = node → parse path source =
        .error (.malformedSource path (first.label.start.row + 1)
          (first.label.start.column + 1))) := by
  refine ⟨Cursor.map_focus_after _, ⟨node.placed, ?_, node.pairwise_placed, ?_⟩, ?_, ?_⟩
  · rw [node.map_snd_placed, node.descendants_eq_preorder]
  · exact fun place inner => Node.mem_placed_iff
  · rw [Node.hasFault_iff, exists_comm]
    simp only [← Node.exists_at?_iff, exists_and_right]
  · intro hfault
    obtain ⟨first, hfirst⟩ := Node.exists_firstFault? hfault
    obtain ⟨hmem, hmark⟩ := Node.mem_of_firstFault? hfirst
    refine ⟨first, hfirst, hmark, Node.exists_at?_iff.2 hmem, ?_, ?_⟩
    · intro hlaid place inner hinner
      exact Node.start_le_of_firstFault? hlaid hfirst (Node.exists_at?_iff.1 ⟨place, hinner⟩)
    · rintro path source rfl
      exact parse_of_firstFault? path hfirst

/-- A tree in which a token is missing in front of a stretch of text that fits no construct. -/
def brokenTree : Node :=
  let token (kind : Kind) (start stop : Position) : Node := .mk { kind, start, stop } []
  .mk { kind := .module, start := {}, stop := ⟨19, 2, 0⟩ }
    [token .comment ⟨0, 0, 0⟩ ⟨5, 0, 5⟩,
      .mk { kind := .functionDefinition, start := ⟨6, 1, 0⟩, stop := ⟨14, 1, 8⟩ }
        [token .other ⟨6, 1, 0⟩ ⟨9, 1, 3⟩,
          .mk { kind := .identifier, isMissing := true, start := ⟨9, 1, 3⟩, stop := ⟨9, 1, 3⟩ } [],
          .mk { kind := .error, start := ⟨10, 1, 4⟩, stop := ⟨14, 1, 8⟩ }
            [token .other ⟨10, 1, 4⟩ ⟨11, 1, 5⟩]],
      token .error ⟨15, 1, 9⟩ ⟨18, 1, 12⟩]

/-- A text in which a bracket is not closed. -/
def unclosedSource : List Char :=
  "def f(:\n    pass\n".toList

theorem walk_meets_first_fault_brokenTree :
    (brokenTree.hasFault = true ∧ (∀ inner ∈ brokenTree.preorder, inner.IsLaidOut) ∧
      ∃ first, brokenTree.firstFault? = some first ∧ first.label.start = ⟨9, 1, 3⟩ ∧
        ∀ place inner, brokenTree.at? place = some inner → inner.isFault = true →
          first.label.start ≤ inner.label.start) ∧
    (syntaxTree unclosedSource).hasFault = true ∧
    ∃ first, (syntaxTree unclosedSource).firstFault? = some first ∧
      parse "a.py" unclosedSource = .error (.malformedSource "a.py" (first.label.start.row + 1)
        (first.label.start.column + 1)) := by
  have hlaid : ∀ inner ∈ brokenTree.preorder, inner.IsLaidOut := by decide +kernel
  have hfault : brokenTree.hasFault = true := by decide +kernel
  have hunclosed : (syntaxTree unclosedSource).hasFault = true :=
    hasFault_syntaxTree (by decide +kernel)
  have hstart : (brokenTree.preorder.find? Node.isFault).map (·.label.start) =
      some ⟨9, 1, 3⟩ := by decide +kernel
  obtain ⟨first, hfirst, -, -, hleast, -⟩ := (walk_meets_first_fault brokenTree).2.2.2 hfault
  obtain ⟨bracket, hbracket, -, -, -, hparse⟩ :=
    (walk_meets_first_fault (syntaxTree unclosedSource)).2.2.2 hunclosed
  rw [← Node.firstFault?_eq, hfirst] at hstart
  exact ⟨⟨hfault, hlaid, first, hfirst, Option.some.inj hstart, hleast hlaid⟩, hunclosed, bracket,
    hbracket, hparse "a.py" unclosedSource rfl⟩

end Untested.Python
