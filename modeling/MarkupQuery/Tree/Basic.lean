import MarkupQuery.Tree.NameTable

/-!
# Trees of markup nodes

A tree is an arena: nodes are numbered in the order of their creation, node 0 is the document, and
the shape is kept in links from node to node.  A node is created detached and is attached at most
once, as the last child of its parent.  Names are numbers in the tree's own name table.
-/

namespace MarkupQuery

/-- The place of a node in its tree. -/
abbrev NodeId := Nat

/-- An attribute of an element. -/
structure Attribute where
  name : NameId
  value : String
  deriving DecidableEq, Repr, Inhabited

/-- Gives an attribute its value: in place when the name is there, behind the others when not. -/
def Attribute.assign (name : NameId) (value : String) : List Attribute → List Attribute
  | [] => [⟨name, value⟩]
  | a :: rest => if a.name = name then ⟨name, value⟩ :: rest else a :: assign name value rest

/-- The kinds of node. -/
inductive NodeKind where
  | document
  | doctype
  | element
  | text
  | comment
  | instruction
  deriving DecidableEq, Repr

/-- The word for a kind of node in messages. -/
def NodeKind.name : NodeKind → String
  | document => "document"
  | doctype => "doctype"
  | element => "element"
  | text => "text"
  | comment => "comment"
  | instruction => "processing-instruction"

/-- What a node holds besides its place in the tree. -/
inductive Content where
  | document
  | doctype (name : NameId) (publicId systemId : String)
  | element (tag : NameId) (attributes : List Attribute)
  | text (value : String)
  | comment (value : String)
  | instruction (target : NameId) (data : String)
  deriving DecidableEq, Repr, Inhabited

def Content.kind : Content → NodeKind
  | document => .document
  | doctype .. => .doctype
  | element .. => .element
  | text _ => .text
  | comment _ => .comment
  | instruction .. => .instruction

/-- A node: its content, and its links to the nodes around it. -/
structure Node where
  content : Content
  parent : Option NodeId := none
  firstChild : Option NodeId := none
  lastChild : Option NodeId := none
  previousSibling : Option NodeId := none
  nextSibling : Option NodeId := none
  deriving DecidableEq, Repr, Inhabited

namespace Node

def kind (node : Node) : NodeKind := node.content.kind

def isElement (node : Node) : Bool := node.kind == .element

def isText (node : Node) : Bool := node.kind == .text

/-- The content of a text node. -/
def text? (node : Node) : Option String :=
  match node.content with
  | .text value => some value
  | _ => none

/-- The content of a comment. -/
def comment? (node : Node) : Option String :=
  match node.content with
  | .comment value => some value
  | _ => none

/-- The tag of an element. -/
def tag? (node : Node) : Option NameId :=
  match node.content with
  | .element tag _ => some tag
  | _ => none

/-- The attributes of an element, none for other nodes. -/
def attributes (node : Node) : List Attribute :=
  match node.content with
  | .element _ attributes => attributes
  | _ => []

/-- The node with an attribute set, if it is an element. -/
def setAttribute (node : Node) (name : NameId) (value : String) : Node :=
  match node.content with
  | .element tag attributes =>
    { node with content := .element tag (Attribute.assign name value attributes) }
  | _ => node

end Node

/-- An arena of nodes with the names they use.  `ranks` holds the place of every node in document
order once it has been asked for, until the next change of shape. -/
structure Tree where
  nodes : Array Node
  names : NameTable
  ranks : Option (Array Nat)

namespace Tree

/-- The document node. -/
def root : NodeId := 0

/-- The tree with nothing but its document node. -/
def empty : Tree := ⟨#[{ content := .document }], .common, none⟩

instance : Inhabited Tree := ⟨empty⟩

def size (t : Tree) : Nat := t.nodes.size

def isEmpty (t : Tree) : Bool := t.nodes.isEmpty

def get? (t : Tree) (id : NodeId) : Option Node := t.nodes[id]?

/-- The spelling of a name. -/
def resolve (t : Tree) (name : NameId) : String := t.names.resolve name

/-! ## Construction -/

/-- Enters a name into the tree's table. -/
def intern (t : Tree) (name : String) : NameId × Tree :=
  let (id, names) := t.names.intern name
  (id, { t with names })

/-- Adds a detached node; its number is the former size. -/
def push (t : Tree) (content : Content) : NodeId × Tree :=
  (t.size, { t with nodes := t.nodes.push { content }, ranks := none })

def createElement (t : Tree) (tag : String) : NodeId × Tree :=
  let (tag, t) := t.intern tag
  t.push (.element tag [])

def createText (t : Tree) (value : String) : NodeId × Tree :=
  t.push (.text value)

def createComment (t : Tree) (value : String) : NodeId × Tree :=
  t.push (.comment value)

def createDoctype (t : Tree) (name publicId systemId : String) : NodeId × Tree :=
  let (name, t) := t.intern name
  t.push (.doctype name publicId systemId)

def createInstruction (t : Tree) (target data : String) : NodeId × Tree :=
  let (target, t) := t.intern target
  t.push (.instruction target data)

/-- Sets an attribute of an element.  The name is entered in any case; on another node, or a number
without a node, nothing else happens. -/
def setAttribute (t : Tree) (element : NodeId) (name value : String) : Tree :=
  let (name, t) := t.intern name
  { t with nodes := t.nodes.modify element fun node => node.setAttribute name value }

/-- Makes a detached node the last child of another.  Nothing happens when the two are one node or
when either number has no node. -/
def appendChild (t : Tree) (parent child : NodeId) : Tree :=
  if parent = child then t
  else
    match t.get? parent, t.get? child with
    | some p, some _ =>
      let nodes := t.nodes.modify child fun node =>
        { node with parent := some parent, previousSibling := p.lastChild, nextSibling := none }
      let nodes :=
        match p.lastChild with
        | some last => nodes.modify last fun node => { node with nextSibling := some child }
        | none => nodes.modify parent fun node => { node with firstChild := some child }
      let nodes := nodes.modify parent fun node => { node with lastChild := some child }
      { t with nodes, ranks := none }
    | _, _ => t

theorem size_push (t : Tree) (content : Content) : (t.push content).2.size = t.size + 1 := by
  simp [push, size]

theorem size_appendChild (t : Tree) (parent child : NodeId) :
    (t.appendChild parent child).size = t.size := by
  unfold appendChild
  split
  · rfl
  · split
    · simp only [size, Array.size_modify]
      split <;> simp
    · rfl

end Tree

end MarkupQuery
