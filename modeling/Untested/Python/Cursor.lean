/-
# Walking a tree

A cursor stands on one node of a tree and knows the way back to the node it started from.  It
moves to the first child, to the next sibling or to the parent, and it cannot leave the tree it
started on.  Walking on from a node means: to its first child if it has one, and otherwise to the
next sibling of the nearest node above that has one, the node itself included.  Each such step
leaves fewer nodes ahead, so the walk ends.
-/

import Untested.Python.Node

namespace Untested.Python

/-- A node of a tree together with its surroundings. -/
structure Cursor where
  /-- The node under the cursor. -/
  focus : Node
  /-- The siblings behind it. -/
  later : List Node := []
  /-- The nodes above, the nearest first, each with the siblings behind it. -/
  above : List (Node × List Node) := []

namespace Cursor

def firstChild? (cursor : Cursor) : Option Cursor :=
  match cursor.focus.children with
  | [] => none
  | child :: rest =>
    some { focus := child, later := rest, above := (cursor.focus, cursor.later) :: cursor.above }

def nextSibling? (cursor : Cursor) : Option Cursor :=
  match cursor.later with
  | [] => none
  | sibling :: rest => some { cursor with focus := sibling, later := rest }

/-- The cursor on the node above. -/
def parent? (cursor : Cursor) : Option Cursor :=
  match cursor.above with
  | [] => none
  | (node, later) :: above => some { focus := node, later, above }

/-- The number of nodes behind a node: below its later siblings and those of the nodes above. -/
def behind (later : List Node) (above : List (Node × List Node)) : Nat :=
  Node.sizeAll later + above.foldr (fun level count => Node.sizeAll level.2 + count) 0

/-- The number of nodes ahead: those at or below the cursor and those behind it. -/
def ahead (cursor : Cursor) : Nat :=
  cursor.focus.size + behind cursor.later cursor.above

/-- Goes up until there is a next sibling, and on to it. -/
def climb? (cursor : Cursor) : Option Cursor :=
  go cursor.later cursor.above
where
  /-- The same, from the later siblings of the current node and the nodes above it. -/
  go : List Node → List (Node × List Node) → Option Cursor
    | sibling :: rest, above => some { focus := sibling, later := rest, above }
    | [], [] => none
    | [], (_, siblings) :: above => go siblings above

/-- The node that follows in the walk. -/
def next? (cursor : Cursor) : Option Cursor :=
  match cursor.firstChild? with
  | some child => some child
  | none => cursor.climb?

theorem size_eq (node : Node) : node.size = Node.sizeAll node.children + 1 := by
  cases node
  simp [Node.size, Node.children]

theorem ahead_le_of_go_eq_some {later : List Node} {above : List (Node × List Node)}
    {cursor : Cursor} (h : climb?.go later above = some cursor) :
    cursor.ahead ≤ behind later above := by
  induction above generalizing later with
  | nil =>
    cases later with
    | nil => simp [climb?.go] at h
    | cons sibling rest =>
      simp only [climb?.go, Option.some.injEq] at h
      subst h
      simp only [ahead, behind, Node.sizeAll]
      omega
  | cons level above ih =>
    cases later with
    | nil =>
      have hle := ih (by simpa [climb?.go] using h)
      simp only [behind, Node.sizeAll, List.foldr_cons] at hle ⊢
      omega
    | cons sibling rest =>
      simp only [climb?.go, Option.some.injEq] at h
      subst h
      simp only [ahead, behind, Node.sizeAll]
      omega

/-- Each step of the walk leaves fewer nodes ahead. -/
theorem ahead_lt_of_next?_eq_some {cursor following : Cursor}
    (h : cursor.next? = some following) : following.ahead < cursor.ahead := by
  have hsize := size_eq cursor.focus
  unfold next? at h
  split at h
  · rename_i child hchild
    obtain rfl := Option.some.inj h
    unfold firstChild? at hchild
    split at hchild
    · contradiction
    · rename_i first rest hchildren
      obtain rfl := Option.some.inj hchild
      rw [hchildren] at hsize
      simp only [Node.sizeAll] at hsize
      simp only [ahead, behind, List.foldr_cons]
      omega
  · have := ahead_le_of_go_eq_some h
    simp only [ahead] at this ⊢
    omega

/-- The nodes met by walking on from the cursor, the one under it first. -/
def walk (cursor : Cursor) : List Node :=
  match h : cursor.next? with
  | none => [cursor.focus]
  | some following =>
    have := ahead_lt_of_next?_eq_some h
    cursor.focus :: walk following
termination_by cursor.ahead

end Cursor

namespace Node

/-- The nodes at or below a node, each before the nodes below it. -/
def descendants (node : Node) : List Node :=
  ({ focus := node } : Cursor).walk

/-- The first node that marks a malformed place. -/
def firstFault? (node : Node) : Option Node :=
  node.descendants.find? isFault

mutual

/-- Whether some node at or below a node marks a malformed place. -/
def hasFault : Node → Bool
  | node@(mk _ children) => node.isFault || anyHasFault children

/-- Whether some node at or below one of the nodes marks a malformed place. -/
def anyHasFault : List Node → Bool
  | [] => false
  | node :: rest => hasFault node || anyHasFault rest

end

end Node

end Untested.Python
