/-!
# Path expressions

The expression tree: operators, calls of the sixteen known functions, location paths made of steps,
and primary expressions with predicates and a path behind them.
-/

namespace MarkupQuery.XPath

/-- The directions in which a step can go from a node. -/
inductive Axis where
  | child
  | descendant
  | descendantOrSelf
  | self
  | parent
  | ancestor
  | ancestorOrSelf
  | followingSibling
  | precedingSibling
  | following
  | preceding
  | attribute
  deriving DecidableEq, Repr

namespace Axis

def name : Axis → String
  | child => "child"
  | descendant => "descendant"
  | descendantOrSelf => "descendant-or-self"
  | self => "self"
  | parent => "parent"
  | ancestor => "ancestor"
  | ancestorOrSelf => "ancestor-or-self"
  | followingSibling => "following-sibling"
  | precedingSibling => "preceding-sibling"
  | following => "following"
  | preceding => "preceding"
  | .attribute => "attribute"

def all : List Axis :=
  [child, descendant, descendantOrSelf, self, parent, ancestor, ancestorOrSelf, followingSibling,
   precedingSibling, following, preceding, .attribute]

/-- The axis of a name. -/
def ofName? (name : String) : Option Axis :=
  all.find? (·.name == name)

/-- Whether positions on the axis count from the context node backwards. -/
def isReverse : Axis → Bool
  | parent | ancestor | ancestorOrSelf | precedingSibling | preceding => true
  | _ => false

theorem ofName?_name (axis : Axis) : ofName? axis.name = some axis := by
  cases axis <;> decide +kernel

end Axis

/-- What a step asks of the nodes on its axis. -/
inductive NodeTest where
  /-- An element, or on the attribute axis an attribute, of this name. -/
  | name (name : String)
  /-- Any element, or on the attribute axis any attribute. -/
  | anyName
  | node
  | text
  | comment
  /-- A processing instruction, of this target if one is given. -/
  | instruction (target : Option String)
  deriving DecidableEq, Repr

/-- The relations that two values are compared by. -/
inductive Relation where
  | equal
  | notEqual
  | less
  | lessEqual
  | greater
  | greaterEqual
  deriving DecidableEq, Repr

inductive Arithmetic where
  | add
  | subtract
  | multiply
  | div
  | mod
  deriving DecidableEq, Repr

/-- The operators between two operands, other than the union of node-sets. -/
inductive BinaryOp where
  | or
  | and
  | relation (relation : Relation)
  | arithmetic (op : Arithmetic)
  deriving DecidableEq, Repr

namespace BinaryOp

def isComparison : BinaryOp → Bool
  | relation _ => true
  | _ => false

/-- The spelling of an operator. -/
def text : BinaryOp → String
  | or => "or"
  | and => "and"
  | relation .equal => "="
  | relation .notEqual => "!="
  | relation .less => "<"
  | relation .lessEqual => "<="
  | relation .greater => ">"
  | relation .greaterEqual => ">="
  | arithmetic .add => "+"
  | arithmetic .subtract => "-"
  | arithmetic .multiply => "*"
  | arithmetic .div => "div"
  | arithmetic .mod => "mod"

end BinaryOp

/-- How many arguments a function takes. -/
structure Arity where
  least : Nat
  /-- No bound when absent. -/
  most : Option Nat
  deriving DecidableEq, Repr

/-- Whether a number of arguments is allowed. -/
def Arity.admits (arity : Arity) (count : Nat) : Bool :=
  arity.least ≤ count && arity.most.all (count ≤ ·)

/-- The allowed numbers in words. -/
def Arity.text (arity : Arity) : String :=
  match arity.most with
  | none => s!"at least {arity.least}"
  | some most => if arity.least = most then s!"{most}" else s!"{arity.least} or {most}"

/-- The functions that can be called. -/
inductive Function where
  | last
  | position
  | count
  | nameOf
  | localName
  | string
  | concat
  | contains
  | startsWith
  | normalizeSpace
  | stringLength
  | boolean
  | not
  | alwaysTrue
  | alwaysFalse
  | number
  deriving DecidableEq, Repr

namespace Function

def name : Function → String
  | last => "last"
  | position => "position"
  | count => "count"
  | nameOf => "name"
  | localName => "local-name"
  | string => "string"
  | concat => "concat"
  | contains => "contains"
  | startsWith => "starts-with"
  | normalizeSpace => "normalize-space"
  | stringLength => "string-length"
  | boolean => "boolean"
  | not => "not"
  | alwaysTrue => "true"
  | alwaysFalse => "false"
  | number => "number"

def all : List Function :=
  [last, position, count, nameOf, localName, string, concat, contains, startsWith, normalizeSpace,
   stringLength, boolean, not, alwaysTrue, alwaysFalse, number]

/-- The function of a name. -/
def ofName? (name : String) : Option Function :=
  all.find? (·.name == name)

/-- How many arguments a function takes.  Where one may be left out, the context node stands in
for it. -/
def arity : Function → Arity
  | last | position | alwaysTrue | alwaysFalse => ⟨0, some 0⟩
  | count | boolean | not => ⟨1, some 1⟩
  | nameOf | localName | string | normalizeSpace | stringLength | number => ⟨0, some 1⟩
  | contains | startsWith => ⟨2, some 2⟩
  | concat => ⟨2, none⟩

theorem ofName?_name (function : Function) : ofName? function.name = some function := by
  cases function <;> decide +kernel

end Function

mutual

/-- A path expression. -/
inductive Expr where
  | number (value : Float)
  | literal (text : String)
  | binary (op : BinaryOp) (left right : Expr)
  | negate (operand : Expr)
  | call (function : Function) (arguments : List Expr)
  /-- A location path, from the document node when absolute and else from the context node. -/
  | path (absolute : Bool) (steps : List Step)
  /-- A primary expression with predicates and a relative path behind it. -/
  | filter (primary : Expr) (predicates : List Expr) (steps : List Step)
  | union (left right : Expr)

/-- One step of a location path. -/
inductive Step where
  | mk (axis : Axis) (test : NodeTest) (predicates : List Expr)

end

namespace Step

def axis : Step → Axis
  | mk axis _ _ => axis

def test : Step → NodeTest
  | mk _ test _ => test

def predicates : Step → List Expr
  | mk _ _ predicates => predicates

/-- The step that `//` stands for: to any node at or below the context node. -/
def anywhere : Step := mk .descendantOrSelf .node []

end Step

instance : Inhabited Expr := ⟨.path true []⟩

end MarkupQuery.XPath
