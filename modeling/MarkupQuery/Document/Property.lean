import MarkupQuery.Document.Search

/-!
# Properties by name

Documents and items answer to names: some stand for a property, and for a document or an element
any other name is a tag, of which the first element inside is given.
-/

namespace MarkupQuery

/-- The value of a property. -/
inductive Property where
  | name (name : String)
  /-- What a node stands in; a document stands in nothing. -/
  | parent (parent : Option Parent)
  | children (items : List Item)
  | string (item : Option Item)
  | text (text : String)
  | attributes (attributes : List (String × String))
  /-- The first element of a tag. -/
  | found (item : Option Item)

/-- The property of a document. -/
def Document.property (d : Document) (name : String) : Except Error Property :=
  match name with
  | "name" => .ok (.name "[document]")
  | "parent" => .ok (.parent none)
  | "string" => .ok (.string none)
  | "text" => .ok (.text d.text)
  | tag => do return .found (← d.find (.tag tag))

namespace Item

/-- The property of an element. -/
def elementProperty (item : Item) (name : String) : Except Error Property :=
  match name with
  | "name" | "tag_name" => .ok (.name item.tagName)
  | "parent" => .ok (.parent (some item.parent))
  | "children" | "contents" => .ok (.children item.children)
  | "string" | "own_string" => .ok (.string item.ownString?)
  | "text" | "own_text" => .ok (.text item.ownText)
  | "attrs" | "attributes" => .ok (.attributes item.attributes)
  | tag => do return .found (← item.find (.tag tag))

/-- The property of a text or comment. -/
def leafProperty (item : Item) (name : String) : Except Error Property :=
  match name with
  | "parent" => .ok (.parent (some item.parent))
  | "string" => .ok (.string (some item))
  | "text" => .ok (.text item.ownText)
  | other => .error (.unsupportedOperation (.property other) item.kind.toNodeKind)

/-- The property of an item. -/
def property (item : Item) (name : String) : Except Error Property :=
  if item.isElement then item.elementProperty name else item.leafProperty name

end Item

end MarkupQuery
