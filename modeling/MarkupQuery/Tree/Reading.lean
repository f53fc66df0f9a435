import MarkupQuery.Tree.Traversal

/-!
# Names, attributes and text of nodes

What the nodes of a tree say once the numbers of names are spelled out.
-/

namespace MarkupQuery.Tree

/-- The tag of an element. -/
def tagName? (t : Tree) (id : NodeId) : Option String :=
  ((t.get? id).bind Node.tag?).map t.resolve

/-- The attributes of an element with their names as numbers, none for other nodes. -/
def attributeList (t : Tree) (id : NodeId) : List Attribute :=
  ((t.get? id).map Node.attributes).getD []

/-- The attributes of an element by name, in the order in which they were first set. -/
def attributes (t : Tree) (id : NodeId) : List (String × String) :=
  (t.attributeList id).map fun a => (t.resolve a.name, a.value)

/-- The value of an attribute.  A name outside the table is on no element. -/
def attribute? (t : Tree) (id : NodeId) (name : String) : Option String := do
  let name ← t.names.lookup? name
  let found ← (t.attributeList id).find? (·.name == name)
  return found.value

/-- The text nodes below a node, one after another. -/
def descendantText (t : Tree) (id : NodeId) : String :=
  String.join ((t.descendants id).filterMap fun d => (t.get? d).bind Node.text?)

/-- The text of a node: its own for texts, comments and processing instructions, that of the text
nodes below for elements and the document, none for a doctype. -/
def textContent (t : Tree) (id : NodeId) : String :=
  match t.get? id with
  | none => ""
  | some node =>
    match node.content with
    | .text value => value
    | .comment value => value
    | .instruction _ data => data
    | .doctype .. => ""
    | .element .. => t.descendantText id
    | .document => t.descendantText id

end MarkupQuery.Tree
