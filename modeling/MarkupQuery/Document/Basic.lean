import MarkupQuery.Config
import MarkupQuery.Error
import MarkupQuery.Html.Parser
import MarkupQuery.Html.Serializer
import MarkupQuery.Text.Quoted
import MarkupQuery.Tree.Order
import MarkupQuery.XPath.Value

/-!
# Documents and their items

A document is a tree with the configuration it was read under.  Its items are what searches find:
elements, texts and comments.  An item knows its document, so that it can be asked for its
surroundings, its text and its markup.
-/

namespace MarkupQuery

/-- A document that was read from markup. -/
structure Document where
  /-- Tells documents apart: two documents are the same when their numbers are. -/
  number : Nat
  tree : Tree
  config : Config
  deriving Inhabited

/-- The document of read nodes. -/
def Document.ofNodes (number : Nat) (nodes : List Html.Node) (config : Config := {}) : Document :=
  { number, tree := (Html.treeOfNodes config.keepBlankText nodes).rankNodes, config }

/-- The document of a markup text. -/
def Document.ofMarkup (number : Nat) (markup : String) (config : Config := {}) : Document :=
  ofNodes number (Html.readNodes markup) config

/-- The kinds of item. -/
inductive ItemKind where
  | element
  | text
  | comment
  deriving DecidableEq, Repr, Inhabited

/-- The kind of item that a kind of node makes, if any. -/
def ItemKind.ofNodeKind? : NodeKind → Option ItemKind
  | .element => some .element
  | .text => some .text
  | .comment => some .comment
  | .document | .doctype | .instruction => none

def ItemKind.toNodeKind : ItemKind → NodeKind
  | element => .element
  | text => .text
  | comment => .comment

/-- An element, a text or a comment of a document. -/
structure Item where
  document : Document
  kind : ItemKind
  id : NodeId
  deriving Inhabited

/-- Items are equal when they are the same node of the same document. -/
instance : BEq Item where
  beq a b := a.document.number == b.document.number && a.kind == b.kind && a.id == b.id

/-- What a node stands in: an element, or the document itself. -/
inductive Parent where
  | element (item : Item)
  | document (document : Document)

instance : BEq Parent where
  beq a b :=
    match a, b with
    | .element x, .element y => x == y
    | .document x, .document y => x.number == y.number
    | _, _ => false

namespace Document

/-- The item of a node. -/
def item (d : Document) (id : NodeId) : Except Error Item :=
  match d.tree.get? id with
  | none => .error (.unknownNodeKind .dangling)
  | some node =>
    match ItemKind.ofNodeKind? node.kind with
    | some kind => .ok ⟨d, kind, id⟩
    | none => .error (.unknownNodeKind (.kind node.kind))

/-- The item of a node that a query has found; attributes are no items. -/
def classify (d : Document) : XPath.NodeRef → Except Error Item
  | .tree id => d.item id
  | .attribute .. => .error (.unknownNodeKind .attribute)

/-- The items among the children of a node, in order. -/
def childItems (d : Document) (id : NodeId) : List Item :=
  (d.tree.children id).filterMap fun child => (d.item child).toOption

/-- What a node stands in. -/
def parentOf (d : Document) (id : NodeId) : Parent :=
  match (d.tree.parent? id).filter fun parent => (d.tree.get? parent).any Node.isElement with
  | some parent => .element ⟨d, .element, parent⟩
  | none => .document d

/-- The element of the whole document. -/
def rootElement? (d : Document) : Option Item :=
  ((d.tree.children Tree.root).find? fun id => (d.tree.get? id).any Node.isElement).map
    (⟨d, .element, ·⟩)

/-- The text of the whole document without the white space around it. -/
def text (d : Document) : String := Text.trim (d.tree.textContent Tree.root)

def toHtml (d : Document) : String := Html.documentMarkup d.tree

end Document

namespace Item

def tree (item : Item) : Tree := item.document.tree

def isElement (item : Item) : Bool := item.kind == .element

/-- The tag of an element. -/
def tagName (item : Item) : String := (item.tree.tagName? item.id).getD ""

/-- The attributes of an element in order, none for other items. -/
def attributes (item : Item) : List (String × String) := item.tree.attributes item.id

def attribute? (item : Item) (name : String) : Option String :=
  item.tree.attribute? item.id name

def parent (item : Item) : Parent := item.document.parentOf item.id

/-- The items inside an element, in order. -/
def children (item : Item) : List Item := item.document.childItems item.id

/-- The content of a text or comment. -/
def content? (item : Item) : Option String :=
  match item.kind with
  | .element => none
  | .text => some (((item.tree.get? item.id).bind Node.text?).getD "")
  | .comment => some (((item.tree.get? item.id).bind Node.comment?).getD "")

/-- Whether an item is a text of nothing but white space. -/
def isWhiteText (item : Item) : Bool :=
  item.kind == .text && (Text.trim (item.content?.getD "")).isEmpty

/-- The text or comment that an item consists of: the item itself unless it is an element, and of an
element its only child, where texts of white space do not count. -/
def ownString? (item : Item) : Option Item :=
  match item.kind with
  | .element =>
    match item.children.filter (!·.isWhiteText) with
    | [only] => if only.isElement then none else some only
    | _ => none
  | .text | .comment => some item

/-- The text of an item: all text inside an element without the white space around it, and the
content of another item as it stands. -/
def ownText (item : Item) : String :=
  match item.content? with
  | some content => content
  | none => Text.trim (item.tree.textContent item.id)

/-- The content of the text or comment that an item consists of, or else its text. -/
def stringValue (item : Item) : String :=
  (item.ownString?.bind content?).getD item.ownText

/-- The markup of an item. -/
def toHtml (item : Item) : String := Html.outerMarkup item.tree item.id

/-- The markup inside an element. -/
def innerHtml (item : Item) : String := Html.innerMarkup item.tree item.id

/-- An item as text: the markup of an element, and the content of another item. -/
def display (item : Item) : String := item.content?.getD item.toHtml

/-- A description of an item for diagnosis. -/
def describe (item : Item) : String :=
  let content := Text.quoted (item.content?.getD "")
  match item.kind with
  | .element =>
    "Element \x7b id: NodeId(" ++ toString item.id ++ "), tag: " ++ Text.quoted item.tagName ++
      " \x7d"
  | .text => "TextNode(" ++ content ++ ")"
  | .comment => "CommentNode(" ++ content ++ ")"

end Item

/-- A description of what a node stands in. -/
def Parent.describe : Parent → String
  | element item => item.describe
  | document _ => "[document]"

end MarkupQuery
