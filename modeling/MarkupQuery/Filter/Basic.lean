import MarkupQuery.Filter.Ordered

/-!
# Filters

A filter collects the loosely typed arguments of a search: a tag or several, constraints on
attributes and text, and how far to look.  `Filter.normalize` turns them into a `Filter.Spec`, a
closed form in which each way to say one thing has become one; it accepts every filter.
-/

namespace MarkupQuery

/-- The tag argument. -/
inductive NameArgument where
  | omitted
  | flag (value : Bool)
  | name (name : String)
  | names (names : List String)
  deriving DecidableEq, Repr

/-- The text argument. -/
inductive TextArgument where
  | omitted
  | flag (value : Bool)
  | value (text : String)
  | values (texts : List String)
  deriving DecidableEq, Repr

/-- What is asked of one attribute. -/
inductive AttributeValue where
  | absent
  | flag (value : Bool)
  | text (text : String)
  | number (value : Int)
  | list (items : List AttributeValue)
  deriving Repr, Inhabited

/-- The argument for all attributes: constraints by name, or values that any attribute may have. -/
inductive AttributesArgument where
  | map (entries : List (String × AttributeValue))
  | value (value : String)
  | values (values : List String)
  deriving Repr

/-- The arguments of a search. -/
structure Filter where
  name : NameArgument := .omitted
  attributes : AttributesArgument := .map []
  /-- Constraints given attribute by attribute, which come before those of `attributes`. -/
  named : List (String × AttributeValue) := []
  text : TextArgument := .omitted
  /-- Whether to look below the children too. -/
  recursive : Bool := true
  /-- The greatest number of results, none at zero. -/
  limit : Nat := 0
  deriving Repr, Inhabited

namespace Filter

/-- The filter for one tag. -/
def tag (name : String) : Filter := { name := .name name }

/-- Constrains an attribute; the last constraint of a name counts. -/
def withAttribute (filter : Filter) (name : String) (value : AttributeValue) : Filter :=
  { filter with named := putEntry name value filter.named }

/-! ## The normal form -/

/-- Which elements are looked for. -/
inductive NameTest where
  /-- None by name: the search may be for text alone. -/
  | unspecified
  | any
  | oneOf (names : List String)
  deriving DecidableEq, Repr

inductive TextTest where
  | unspecified
  | any
  | oneOf (texts : List String)
  deriving DecidableEq, Repr

inductive AttributeTest where
  | absent
  | present
  | exact (value : String)
  | oneOf (values : List String)
  deriving DecidableEq, Repr

/-- What is asked of the attributes of an element. -/
inductive AttributesTest where
  /-- Constraints by attribute, all of which have to hold. -/
  | named (constraints : List (String × AttributeTest))
  /-- Values of which some attribute has to have one, and constraints by attribute. -/
  | wildcard (values : List String) (constraints : List (String × AttributeTest))
  deriving DecidableEq, Repr

namespace AttributesTest

/-- The constraints by attribute. -/
def constraints : AttributesTest → List (String × AttributeTest)
  | named constraints | wildcard _ constraints => constraints

/-- Whether attributes are left free. -/
def isEmpty : AttributesTest → Bool
  | named constraints => constraints.isEmpty
  | wildcard values constraints => values.isEmpty && constraints.isEmpty

end AttributesTest

/-- A filter in normal form. -/
structure Spec where
  name : NameTest := .unspecified
  attributes : AttributesTest := .named []
  text : TextTest := .unspecified
  recursive : Bool := true
  limit : Nat := 0
  deriving DecidableEq, Repr, Inhabited

end Filter

namespace AttributeValue

mutual

/-- Whether a value is `true` or holds it at some depth. -/
def holdsTrue : AttributeValue → Bool
  | flag value => value
  | list items => someHoldsTrue items
  | _ => false

def someHoldsTrue : List AttributeValue → Bool
  | [] => false
  | first :: rest => first.holdsTrue || someHoldsTrue rest

end

mutual

/-- The texts and numbers of a value, at any depth and in order. -/
def texts : AttributeValue → List String
  | text s => [s]
  | number value => [toString value]
  | list items => allTexts items
  | _ => []

def allTexts : List AttributeValue → List String
  | [] => []
  | first :: rest => first.texts ++ allTexts rest

end

/-- The constraint that a value stands for.  A list asks for one of its texts, unless `true` in it
asks for any value at all. -/
def test : AttributeValue → Filter.AttributeTest
  | absent => .absent
  | flag value => if value then .present else .absent
  | text s => .exact s
  | number value => .exact (toString value)
  | list items => if someHoldsTrue items then .present else .oneOf (allTexts items).eraseDups

end AttributeValue

namespace Filter

/-- The normal form of a filter. -/
def normalize (filter : Filter) : Spec :=
  let text : TextTest :=
    match filter.text with
    | .omitted | .flag false => .unspecified
    | .flag true => .any
    | .value text => .oneOf [text]
    | .values texts => .oneOf texts.eraseDups
  let name : NameTest :=
    match filter.name with
    | .omitted | .flag false => if text = .unspecified then .any else .unspecified
    | .flag true => .any
    | .name name => .oneOf [name]
    | .names names => .oneOf names.eraseDups
  let (entries, values) : List (String × AttributeValue) × List String :=
    match filter.attributes with
    | .map entries => (entries, [])
    | .value value => ([], [value])
    | .values values => ([], values.eraseDups)
  let constraints := (putEntries entries filter.named).map fun entry => (entry.1, entry.2.test)
  { name
    attributes := if values.isEmpty then .named constraints else .wildcard values constraints
    text
    recursive := filter.recursive
    limit := filter.limit }

end Filter

end MarkupQuery
