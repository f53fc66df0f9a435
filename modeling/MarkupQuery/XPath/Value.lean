import MarkupQuery.Text.Blank
import MarkupQuery.Decimal.Notation
import MarkupQuery.Tree.Order
import MarkupQuery.Tree.Reading
import MarkupQuery.XPath.Expr

/-!
# Values of expressions

A value is a set of nodes or an atom: a truth value, a number or a string.  A node-set is a list in
document order without repetitions.  Attributes are no nodes of the tree; they are referred to by
their element and their place in its list of attributes.
-/

namespace MarkupQuery.XPath

/-- A node of a tree or an attribute of one of its elements. -/
inductive NodeRef where
  | tree (id : NodeId)
  | attribute (owner : NodeId) (index : Nat)
  deriving DecidableEq, Repr

namespace NodeRef

/-- The node itself, or the element of an attribute. -/
def nodeId : NodeRef → NodeId
  | tree id => id
  | .attribute owner _ => owner

/-- The place in document order: an element comes before its attributes, and they come before its
children.  A number without a node comes last. -/
def orderKey (t : Tree) : NodeRef → Nat × Nat
  | tree id => ((t.rank? id).getD t.size, 0)
  | .attribute owner index => ((t.rank? owner).getD t.size, index + 1)

/-- Whether the first node does not come after the second. -/
def notAfter (t : Tree) (a b : NodeRef) : Bool :=
  let (ra, ia) := a.orderKey t
  let (rb, ib) := b.orderKey t
  ra < rb || (ra == rb && ia ≤ ib)

/-- The text of a node, or the value of an attribute. -/
def stringValue (t : Tree) : NodeRef → String
  | tree id => t.textContent id
  | .attribute owner index => (((t.attributeList owner)[index]?).map Attribute.value).getD ""

/-- The name of an element or an attribute and the target of a processing instruction; other nodes
have no name. -/
def name (t : Tree) : NodeRef → String
  | tree id =>
    match (t.get? id).map Node.content with
    | some (.element tag _) => t.resolve tag
    | some (.instruction target _) => t.resolve target
    | _ => ""
  | .attribute owner index =>
    (((t.attributeList owner)[index]?).map fun a => t.resolve a.name).getD ""

end NodeRef

/-- Nodes in document order, each once. -/
def inDocumentOrder (t : Tree) (nodes : List NodeRef) : List NodeRef :=
  (nodes.mergeSort (NodeRef.notAfter t)).eraseReps

/-! ## Numbers and text -/

/-- A number as the text that it converts to. -/
def numberToText (x : Float) : String := Decimal.Layout.plain.write x

/-- The number that a text stands for: an optional minus and decimal digits, with at most one point
among them, between blanks.  Any other text is no number. -/
def numberOfText (s : String) : Float :=
  let cs := Text.strip Text.isBlank s.toList
  let (negative, digits) :=
    match cs with
    | '-' :: rest => (true, rest)
    | _ => (false, cs)
  let whole := digits.takeWhile (· != '.')
  let places := (digits.dropWhile (· != '.')).drop 1
  if whole.all Char.isDigit && places.all Char.isDigit && !(whole.isEmpty && places.isEmpty) then
    let size := Decimal.ofDigits whole places
    if negative then -size else size
  else Decimal.notANumber

/-- Whether a text occurs in another. -/
def occursIn (part : List Char) : List Char → Bool
  | [] => part.isEmpty
  | c :: rest => part.isPrefixOf (c :: rest) || occursIn part rest

theorem occursIn_iff {part text : List Char} : occursIn part text = true ↔ part <:+: text := by
  induction text with
  | nil => simp [occursIn]
  | cons c rest ih =>
    rw [occursIn, Bool.or_eq_true, ih, List.isPrefixOf_iff_prefix, List.infix_cons_iff]

/-! ## Values -/

/-- A value that is no node-set. -/
inductive Atom where
  | boolean (value : Bool)
  | number (value : Float)
  | string (value : String)

namespace Atom

def toBoolean : Atom → Bool
  | boolean b => b
  | number x => x != 0 && !x.isNaN
  | string s => !s.isEmpty

def toNumber : Atom → Float
  | boolean b => if b then 1 else 0
  | number x => x
  | string s => numberOfText s

def toText : Atom → String
  | boolean b => if b then "true" else "false"
  | number x => numberToText x
  | string s => s

/-- Equality of atoms: as truth values if one of them is one, else as numbers if one of them is
one, and else as strings. -/
def equals (a b : Atom) : Bool :=
  match a, b with
  | boolean _, _ | _, boolean _ => a.toBoolean == b.toBoolean
  | number _, _ | _, number _ => a.toNumber == b.toNumber
  | string s, string s' => s == s'

/-- Comparison of atoms; all but equality compares numbers. -/
def compare (relation : Relation) (a b : Atom) : Bool :=
  match relation with
  | .equal => a.equals b
  | .notEqual => !a.equals b
  | .less => a.toNumber < b.toNumber
  | .lessEqual => a.toNumber ≤ b.toNumber
  | .greater => a.toNumber > b.toNumber
  | .greaterEqual => a.toNumber ≥ b.toNumber

end Atom

/-- What an expression evaluates to. -/
inductive Value where
  | nodeSet (nodes : List NodeRef)
  | atom (atom : Atom)

namespace Value

def boolean (b : Bool) : Value := atom (.boolean b)

def number (x : Float) : Value := atom (.number x)

def string (s : String) : Value := atom (.string s)

/-- The nodes of a node-set. -/
def nodes? : Value → Option (List NodeRef)
  | nodeSet nodes => some nodes
  | atom _ => none

/-- A node-set is true when it has a node. -/
def toBoolean : Value → Bool
  | nodeSet nodes => !nodes.isEmpty
  | atom a => a.toBoolean

/-- A node-set has the text of its first node. -/
def toText (t : Tree) : Value → String
  | nodeSet nodes => (nodes.head?.map (NodeRef.stringValue t)).getD ""
  | atom a => a.toText

def toNumber (t : Tree) : Value → Float
  | nodeSet nodes => numberOfText ((nodeSet nodes).toText t)
  | atom a => a.toNumber

/-- Whether a predicate with this value keeps the node at a position: a number names a position. -/
def keepsPosition (position : Nat) : Value → Bool
  | atom (.number x) => x == Float.ofNat position
  | value => value.toBoolean

/-- Comparison of values.  A node-set compares through the text of its members and holds when one of
them does, except that against a truth value it counts as one. -/
def compare (t : Tree) (relation : Relation) : Value → Value → Bool
  | nodeSet l, nodeSet r =>
    l.any fun a => r.any fun b =>
      Atom.compare relation (.string (a.stringValue t)) (.string (b.stringValue t))
  | nodeSet l, atom (.boolean b) => Atom.compare relation (.boolean !l.isEmpty) (.boolean b)
  | atom (.boolean b), nodeSet r => Atom.compare relation (.boolean b) (.boolean !r.isEmpty)
  | nodeSet l, atom b => l.any fun a => Atom.compare relation (.string (a.stringValue t)) b
  | atom a, nodeSet r => r.any fun b => Atom.compare relation a (.string (b.stringValue t))
  | atom a, atom b => Atom.compare relation a b

end Value

end MarkupQuery.XPath
