import MarkupQuery.Html.Node
import MarkupQuery.Text.Blank
import MarkupQuery.Tree.Basic

/-!
# Trees of read markup

The nodes of a markup text are entered into a tree in document order, so that a node comes right
before what is below it and the numbers of nodes follow the text.  The nodes still to be entered
wait on a stack, each with its parent, so that deep markup needs no deep calls.  Texts made of
nothing but blanks may be left out.
-/

namespace MarkupQuery

namespace Tree

/-- Sets attributes one after another. -/
def setAttributes (t : Tree) (element : NodeId) (attributes : List (String × String)) : Tree :=
  attributes.foldl (fun t a => t.setAttribute element a.1 a.2) t

end Tree

namespace Html

/-- Whether a text is made of nothing but blanks. -/
def isBlankText (value : String) : Bool := value.toList.all Text.isMarkupBlank

/-- Makes the node of a tree that a read node becomes, still detached, and gives its number.
Nothing is made of a text that is left out. -/
def createNode (keepBlank : Bool) (t : Tree) : Node → Option (NodeId × Tree)
  | .doctype name publicId systemId => some (t.createDoctype name publicId systemId)
  | .element tag attributes _ =>
    let (id, t) := t.createElement tag
    some (id, t.setAttributes id attributes)
  | .text value => if !keepBlank && isBlankText value then none else some (t.createText value)
  | .comment value => some (t.createComment value)
  | .instruction target data => some (t.createInstruction target data)

/-- Enters the nodes of a stack, each as the last child of the parent it is kept with.  What is
below a node comes before what was on the stack already.  Every node on the stack or below one takes
one step. -/
def enterAll (keepBlank : Bool) : (bound : Nat) → List (NodeId × Node) → Tree → Tree
  | 0, _, t => t
  | _ + 1, [], t => t
  | bound + 1, (parent, node) :: rest, t =>
    match createNode keepBlank t node with
    | none => enterAll keepBlank bound rest t
    | some (id, t) =>
      enterAll keepBlank bound (node.children.map (id, ·) ++ rest) (t.appendChild parent id)

/-- The tree of a document with the given nodes. -/
def treeOfNodes (keepBlank : Bool) (nodes : List Node) : Tree :=
  enterAll keepBlank (countAll nodes) (nodes.map (Tree.root, ·)) .empty

end Html

end MarkupQuery
