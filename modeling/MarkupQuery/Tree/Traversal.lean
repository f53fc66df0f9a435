import MarkupQuery.Tree.Basic

/-!
# Walks along the links of a tree

Children, siblings and ancestors lie on chains of one kind of link.  The descendants of a node come
in preorder without a stack: from a node the walk goes to its first child, else to the next sibling
of the nearest node on the way up that has one, and it ends when the way up reaches the node that
it started from.  No walk visits more nodes than the tree has, so that number bounds every walk.
-/

namespace MarkupQuery.Tree

/-- At most `bound` nodes from `start` on along a link. -/
def chainUpTo (t : Tree) (link : Node → Option NodeId) :
    (bound : Nat) → (start : Option NodeId) → List NodeId
  | _, none => []
  | 0, some _ => []
  | bound + 1, some id =>
    match t.get? id with
    | none => []
    | some node => id :: t.chainUpTo link bound (link node)

/-- The nodes from `start` on along a link. -/
def chain (t : Tree) (link : Node → Option NodeId) (start : Option NodeId) : List NodeId :=
  t.chainUpTo link t.size start

/-- The parent of an attached node. -/
def parent? (t : Tree) (id : NodeId) : Option NodeId :=
  (t.get? id).bind Node.parent

/-- The children of a node, in order. -/
def children (t : Tree) (id : NodeId) : List NodeId :=
  t.chain Node.nextSibling ((t.get? id).bind Node.firstChild)

/-- The siblings after a node, in order. -/
def followingSiblings (t : Tree) (id : NodeId) : List NodeId :=
  t.chain Node.nextSibling ((t.get? id).bind Node.nextSibling)

/-- The siblings before a node, the nearest first. -/
def precedingSiblings (t : Tree) (id : NodeId) : List NodeId :=
  t.chain Node.previousSibling ((t.get? id).bind Node.previousSibling)

/-- The ancestors of a node, the nearest first. -/
def ancestors (t : Tree) (id : NodeId) : List NodeId :=
  t.chain Node.parent (t.parent? id)

/-- The next sibling of a node or of the nearest of its ancestors below `top` that has one. -/
def nextAbove (t : Tree) (top : NodeId) : (bound : Nat) → Node → Option NodeId
  | 0, _ => none
  | bound + 1, node =>
    match node.nextSibling with
    | some next => some next
    | none =>
      if node.parent = some top then none
      else
        match node.parent.bind t.get? with
        | none => none
        | some parent => t.nextAbove top bound parent

/-- The node after `node` in the preorder of the nodes below `top`. -/
def nextBelow (t : Tree) (top : NodeId) (node : Node) : Option NodeId :=
  match node.firstChild with
  | some child => some child
  | none => t.nextAbove top t.size node

/-- The nodes below a node in preorder, the node itself left out. -/
def descendants (t : Tree) (id : NodeId) : List NodeId :=
  t.chain (t.nextBelow id) ((t.get? id).bind Node.firstChild)

end MarkupQuery.Tree
