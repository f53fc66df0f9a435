import MarkupQuery.Tree.Traversal

/-!
# Document order

The nodes attached under the document come first, in preorder, and the detached ones follow in the
order of their creation.  The rank of a node is its place in this order.  Ranks are computed on
first use and kept in the tree until its shape changes.
-/

namespace MarkupQuery.Tree

/-- All nodes of a tree in document order. -/
def documentOrder (t : Tree) : List NodeId :=
  let attached := root :: t.descendants root
  let marks := attached.foldl (fun marks id => marks.setIfInBounds id true)
    (Array.replicate t.size false)
  attached ++ (List.range t.size).filter fun id => !marks.getD id false

/-- The rank of every node, computed from the links. -/
def freshRanks (t : Tree) : Array Nat :=
  t.documentOrder.zipIdx.foldl (fun ranks entry => ranks.setIfInBounds entry.1 entry.2)
    (Array.replicate t.size 0)

/-- The ranks that are kept, or fresh ones. -/
def currentRanks (t : Tree) : Array Nat := t.ranks.getD t.freshRanks

/-- The tree with its ranks kept. -/
def rankNodes (t : Tree) : Tree := { t with ranks := some t.currentRanks }

/-- The rank of a node; a number without a node has none. -/
def rank? (t : Tree) (id : NodeId) : Option Nat := t.currentRanks[id]?

/-- Asks for a rank, and keeps all of them for the next question. -/
def askRank (t : Tree) (id : NodeId) : Option Nat × Tree :=
  let t := t.rankNodes
  (t.rank? id, t)

theorem rankNodes_rankNodes (t : Tree) : t.rankNodes.rankNodes = t.rankNodes := rfl

theorem askRank_fst (t : Tree) (id : NodeId) : (t.askRank id).1 = t.rank? id := rfl

end MarkupQuery.Tree
