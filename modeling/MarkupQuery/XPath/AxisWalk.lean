import MarkupQuery.XPath.Value

/-!
# Nodes on an axis

The nodes that each axis leads to from a node, in the order in which positions count them: away
from the node.  Attributes have their element as parent and neither children nor siblings.
-/

namespace MarkupQuery.XPath

namespace NodeRef

/-- The parent of a node, the element of an attribute. -/
def parent? (t : Tree) : NodeRef → Option NodeRef
  | tree id => (t.parent? id).map tree
  | .attribute owner _ => some (tree owner)

/-- The ancestors of a node, the nearest first. -/
def ancestors (t : Tree) : NodeRef → List NodeRef
  | tree id => (t.ancestors id).map tree
  | .attribute owner _ => (owner :: t.ancestors owner).map tree

end NodeRef

/-- The nodes after a node that are not below it: the later siblings of the node and of its
ancestors, each with what is below it. -/
def followingNodes (t : Tree) (id : NodeId) : List NodeId :=
  (id :: t.ancestors id).flatMap fun level =>
    (t.followingSiblings level).flatMap fun sibling => sibling :: t.descendants sibling

/-- The nodes of the document before a node that are not above it, the nearest first. -/
def precedingNodes (t : Tree) (id : NodeId) : List NodeId :=
  let above := t.ancestors id
  (((t.descendants Tree.root).takeWhile (· != id)).filter fun d => !above.contains d).reverse

/-- The nodes on an axis. -/
def Axis.nodes (t : Tree) (axis : Axis) (node : NodeRef) : List NodeRef :=
  match axis, node with
  | .self, _ => [node]
  | .child, .tree id => (t.children id).map .tree
  | .descendant, .tree id => (t.descendants id).map .tree
  | .descendantOrSelf, .tree id => node :: (t.descendants id).map .tree
  | .descendantOrSelf, .attribute .. => [node]
  | .parent, _ => (node.parent? t).toList
  | .ancestor, _ => node.ancestors t
  | .ancestorOrSelf, _ => node :: node.ancestors t
  | .followingSibling, .tree id => (t.followingSiblings id).map .tree
  | .precedingSibling, .tree id => (t.precedingSiblings id).map .tree
  | .following, .tree id => (followingNodes t id).map .tree
  | .following, .attribute owner _ => (t.descendants owner ++ followingNodes t owner).map .tree
  | .preceding, _ => (precedingNodes t node.nodeId).map .tree
  | .attribute, .tree id =>
    (List.range (t.attributeList id).length).map (.attribute id)
  | .child, .attribute .. | .descendant, .attribute .. | .followingSibling, .attribute ..
  | .precedingSibling, .attribute .. | .attribute, .attribute .. => []

/-- Whether a node on an axis passes a node test.  Attributes pass on their own axis only, unless
any node will do; no node of the tree is on that axis. -/
def NodeTest.admits (t : Tree) (axis : Axis) (test : NodeTest) : NodeRef → Bool
  | .attribute owner index =>
    match (t.attributeList owner)[index]? with
    | none => false
    | some a =>
      match test with
      | .node => true
      | .anyName => axis == .attribute
      | .name called => axis == .attribute && t.resolve a.name == called
      | _ => false
  | .tree id =>
    axis != .attribute &&
      match test, (t.get? id).map Node.content with
      | _, none => false
      | .node, some _ => true
      | .anyName, some (.element ..) => true
      | .name called, some (.element tag _) => t.resolve tag == called
      | .text, some (.text _) => true
      | .comment, some (.comment _) => true
      | .instruction target, some (.instruction target' _) =>
        target.all (t.resolve target' == ·)
      | _, _ => false

end MarkupQuery.XPath
