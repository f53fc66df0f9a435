import MarkupQuery.Config
import MarkupQuery.Error
import MarkupQuery.Filter.Basic
import MarkupQuery.Text.Blank
import MarkupQuery.Text.Letter
import MarkupQuery.XPath.Literal

/-!
# Filters as queries

A normal form as the text of a path expression: each constraint becomes a predicate on one step,
and alternative tags become a union of steps.  Names that the language could not read as names are
compared as strings.
-/

namespace MarkupQuery

/-- Where a search starts. -/
inductive Scope where
  | document
  | node (id : NodeId)
  deriving DecidableEq, Repr

/-- The context node for a query, none for the document. -/
def Scope.nodeId? : Scope → Option NodeId
  | document => none
  | node id => some id

namespace Filter

open XPath (literalText)

/-- The query that finds nothing: the parent of the document. -/
def emptyQuery : String := "/.."

/-- Whether a name can stand in a query as it is. -/
def isPlainName (name : String) : Bool :=
  match name.toList with
  | [] => false
  | c :: cs =>
    (c == '_' || Text.isAlphabetic c) &&
      cs.all fun d => Text.isAlphanumeric d || d == '-' || d == '.' || d == '_'

/-- The node test for a tag. -/
def tagQuery (name : String) : String :=
  if isPlainName name then name else "*[name()=" ++ literalText name ++ "]"

/-- The path to an attribute. -/
def attributeQuery (name : String) : String :=
  if isPlainName name then "@" ++ name else "@*[name()=" ++ literalText name ++ "]"

/-- The condition that an attribute has a value.  A list attribute has to hold the words of the
value one after another; the condition asks for the attribute too, because no words at all would
also be found where there is no attribute. -/
def valueCondition (config : Config) (name value : String) : String :=
  let path := attributeQuery name
  if config.isListAttribute name then
    path ++ " and contains(concat(\" \", normalize-space(" ++ path ++ "), \" \"), " ++
      literalText (" " ++ Text.normalizeSpace value ++ " ") ++ ")"
  else path ++ "=" ++ literalText value

/-- Alternatives as one condition. -/
def anyOf (conditions : List String) : String :=
  " or ".intercalate conditions

/-- The condition on one attribute. -/
def attributeCondition (config : Config) (name : String) : AttributeTest → String
  | .absent => "not(" ++ attributeQuery name ++ ")"
  | .present => attributeQuery name
  | .exact value => valueCondition config name value
  | .oneOf values =>
    if values.isEmpty then "false()" else anyOf (values.map (valueCondition config name))

/-- A condition as a predicate. -/
def bracketed (condition : String) : String := "[" ++ condition ++ "]"

/-- The predicates for constraints by attribute. -/
def constraintPredicates (config : Config) (constraints : List (String × AttributeTest)) : String :=
  String.join (constraints.map fun entry => bracketed (attributeCondition config entry.1 entry.2))

/-- The predicate for values that any attribute may have, none when there are no values. -/
def valuesPredicate (values : List String) : String :=
  if values.isEmpty then ""
  else bracketed (anyOf (values.map fun value => "@*=" ++ literalText value))

/-- The predicates for what is asked of attributes. -/
def attributePredicates (config : Config) : AttributesTest → String
  | .named constraints => constraintPredicates config constraints
  | .wildcard values constraints =>
    valuesPredicate values ++ constraintPredicates config constraints

/-- The predicate for the constraint on the text of an element. -/
def textPredicate : TextTest → String
  | .unspecified => ""
  | .any => "[text() or comment()]"
  | .oneOf texts =>
    if texts.isEmpty then "[false()]"
    else
      let condition (text : String) : String :=
        ".//text()=" ++ literalText text ++ " or .//comment()=" ++ literalText text
      bracketed (anyOf (texts.map condition))

/-- Alternatives as one query. -/
def unionOf (queries : List String) : String :=
  " | ".intercalate queries

/-- The query for texts and comments. -/
def textQuery (start : String) : TextTest → Except Error String
  | .unspecified => .error .emptyFilter
  | .any => .ok (unionOf [start ++ "text()", start ++ "comment()"])
  | .oneOf texts =>
    if texts.isEmpty then .ok emptyQuery
    else
      let members (text : String) : String :=
        let predicate := bracketed (".=" ++ literalText text)
        unionOf [start ++ "text()" ++ predicate, start ++ "comment()" ++ predicate]
      .ok (unionOf (texts.map members))

/-- The query for elements. -/
def elementQuery (config : Config) (start : String) (spec : Spec) : String :=
  let predicates := attributePredicates config spec.attributes ++ textPredicate spec.text
  let step (test : String) : String := start ++ test ++ predicates
  match spec.name with
  | .unspecified | .any => step "*"
  | .oneOf names =>
    if names.isEmpty then emptyQuery else unionOf (names.map fun name => step (tagQuery name))

/-- How a query starts that goes through all that is below the scope, or through its children. -/
def queryStart (recursive : Bool) (scope : Scope) : String :=
  match recursive, scope with
  | false, _ => ""
  | true, .document => "//"
  | true, .node _ => ".//"

/-- The query for a normal form, before its limit. -/
def Spec.unlimitedQuery (config : Config) (spec : Spec) (scope : Scope) : Except Error String :=
  let start := queryStart spec.recursive scope
  if spec.name = .unspecified && spec.attributes.isEmpty then textQuery start spec.text
  else .ok (elementQuery config start spec)

/-- The query for a normal form. -/
def Spec.query (config : Config) (spec : Spec) (scope : Scope) : Except Error String := do
  let query ← spec.unlimitedQuery config scope
  return if 0 < spec.limit then "(" ++ query ++ ")[position() <= " ++ toString spec.limit ++ "]"
    else query

end Filter

end MarkupQuery
