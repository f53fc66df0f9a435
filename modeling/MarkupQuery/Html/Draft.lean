import MarkupQuery.Html.Node

/-!
# Trees under construction

While markup is read, nodes are added behind others and before them, and taken from one parent to
another.  A draft keeps them in an array, each with its parent and its children.  Text that is added
next to a text becomes part of it.  At the end `Draft.toNodes` reads off the finished tree.
-/

namespace MarkupQuery.Html

/-- The languages that an element can belong to. -/
inductive Namespace where
  | html
  | svg
  | mathml
  deriving DecidableEq, Repr, Inhabited

/-- The place of a node in a draft. -/
abbrev DraftId := Nat

/-- What a node of a draft is. -/
inductive DraftContent where
  | document
  /-- The root of nodes that are kept apart from the document. -/
  | fragment
  | doctype (name publicId systemId : String)
  | element (space : Namespace) (tag : String) (attributes : List (String × String))
  | text (value : String)
  | comment (value : String)
  deriving Repr, Inhabited

structure DraftNode where
  content : DraftContent
  parent : Option DraftId := none
  children : Array DraftId := #[]
  /-- The fragment that holds what is written inside, for the elements that have one. -/
  fragment : Option DraftId := none
  deriving Repr, Inhabited

/-- A node with a character more, if it is a text. -/
def DraftNode.addChar (c : Char) : DraftNode → DraftNode
  | { content := .text value, parent, children, fragment } =>
    { content := .text (value.push c), parent, children, fragment }
  | node => node

structure Draft where
  nodes : Array DraftNode
  deriving Inhabited

/-- Where a node is to be put. -/
inductive Place where
  | lastChild (parent : DraftId)
  | before (sibling : DraftId)
  deriving DecidableEq, Repr

namespace Draft

def documentId : DraftId := 0

/-- The draft of a document without nodes. -/
def empty : Draft := ⟨#[{ content := .document }]⟩

def get (d : Draft) (id : DraftId) : DraftNode := d.nodes.getD id default

def modify (d : Draft) (id : DraftId) (f : DraftNode → DraftNode) : Draft :=
  ⟨d.nodes.modify id f⟩

/-- Adds a node without a parent. -/
def create (d : Draft) (content : DraftContent) : DraftId × Draft :=
  (d.nodes.size, ⟨d.nodes.push { content }⟩)

/-- The namespace and the tag of an element. -/
def element? (d : Draft) (id : DraftId) : Option (Namespace × String) :=
  match (d.get id).content with
  | .element space tag _ => some (space, tag)
  | _ => none

/-- The attributes of an element, none for other nodes. -/
def attributes (d : Draft) (id : DraftId) : List (String × String) :=
  match (d.get id).content with
  | .element _ _ attributes => attributes
  | _ => []

/-- Gives an element those of the attributes whose names it has not. -/
def addMissingAttributes (d : Draft) (id : DraftId) (new : List (String × String)) : Draft :=
  d.modify id fun node =>
    match node.content with
    | .element space tag attributes =>
      let missing := new.filter fun a => !(attributes.map Prod.fst).contains a.1
      { node with content := .element space tag (attributes ++ missing) }
    | _ => node

/-- Takes a node from its parent. -/
def detach (d : Draft) (id : DraftId) : Draft :=
  match (d.get id).parent with
  | none => d
  | some parent =>
    let d := d.modify parent fun node => { node with children := node.children.erase id }
    d.modify id fun node => { node with parent := none }

/-- Makes a node without a parent the last child of another. -/
def append (d : Draft) (parent child : DraftId) : Draft :=
  let d := d.modify parent fun node => { node with children := node.children.push child }
  d.modify child fun node => { node with parent := some parent }

/-- Puts a node without a parent before a node that has one. -/
def insertBefore (d : Draft) (sibling child : DraftId) : Draft :=
  match (d.get sibling).parent with
  | none => d
  | some parent =>
    let d := d.modify parent fun node =>
      let (front, back) := node.children.toList.span (· != sibling)
      { node with children := (front ++ child :: back).toArray }
    d.modify child fun node => { node with parent := some parent }

/-- Puts a node at a place, away from where it was. -/
def put (d : Draft) (place : Place) (child : DraftId) : Draft :=
  let d := d.detach child
  match place with
  | .lastChild parent => d.append parent child
  | .before sibling => d.insertBefore sibling child

/-- Takes the children of a node to the end of another's. -/
def moveChildren (d : Draft) (source target : DraftId) : Draft :=
  (d.get source).children.foldl (fun d child => d.put (.lastChild target) child) d

/-- The node before a place. -/
def previous? (d : Draft) : Place → Option DraftId
  | .lastChild parent => (d.get parent).children.back?
  | .before sibling => do
    let parent ← (d.get sibling).parent
    ((d.get parent).children.toList.takeWhile (· != sibling)).getLast?

/-- The text before a place, if what stands there is a text. -/
def previousText? (d : Draft) (place : Place) : Option DraftId :=
  (d.previous? place).filter fun id =>
    match (d.get id).content with
    | .text _ => true
    | _ => false

/-- Adds a character at a place, to the text before it if there is one. -/
def addChar (d : Draft) (place : Place) (c : Char) : Draft :=
  match d.previousText? place with
  | some text => d.modify text (DraftNode.addChar c)
  | none =>
    let (id, d) := d.create (.text (String.singleton c))
    d.put place id

/-- The finished nodes of at most `depth` levels. -/
def nodesTo (d : Draft) : (depth : Nat) → List DraftId → List Node
  | 0, _ => []
  | depth + 1, ids =>
    ids.filterMap fun id =>
      let node := d.get id
      match node.content with
      | .document | .fragment => none
      | .doctype name publicId systemId => some (.doctype name publicId systemId)
      | .element _ tag attributes =>
        some (.element tag attributes (d.nodesTo depth node.children.toList))
      | .text value => some (.text value)
      | .comment value => some (.comment value)

/-- The finished nodes of the document. -/
def toNodes (d : Draft) : List Node :=
  d.nodesTo d.nodes.size (d.get documentId).children.toList

end Draft

end MarkupQuery.Html
