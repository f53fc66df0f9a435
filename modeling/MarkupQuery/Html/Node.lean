/-!
# Read markup

The nodes that a markup text stands for, as a plain tree.  Only elements have nodes below them.
-/

namespace MarkupQuery.Html

/-- A node of a markup text. -/
inductive Node where
  | doctype (name publicId systemId : String)
  | element (tag : String) (attributes : List (String × String)) (children : List Node)
  | text (value : String)
  | comment (value : String)
  | instruction (target data : String)
  deriving Repr, Inhabited

/-- The nodes right below a node. -/
def Node.children : Node → List Node
  | element _ _ children => children
  | _ => []

mutual

/-- The number of nodes that a node consists of: itself and what is below it. -/
def Node.count : Node → Nat
  | .element _ _ children => countAll children + 1
  | _ => 1

/-- The number of nodes that a list of nodes consists of. -/
def countAll : List Node → Nat
  | [] => 0
  | node :: rest => node.count + countAll rest

end

end MarkupQuery.Html
