import MarkupQuery.Tree.Basic
import MarkupQuery.XPath.Error

/-!
# Errors of searches

Why a search or a request for a property has no answer.
-/

namespace MarkupQuery

/-- What a query can find that is neither an element nor a text nor a comment. -/
inductive Unclassified where
  | attribute
  /-- A number without a node. -/
  | dangling
  | kind (kind : NodeKind)
  deriving DecidableEq, Repr

def Unclassified.name : Unclassified → String
  | .attribute => "attribute"
  | .dangling => "dangling"
  | .kind other => other.name

/-- What can be asked of a node and is refused by texts and comments. -/
inductive Operation where
  | find
  | findAll
  | query
  | property (name : String)
  deriving DecidableEq, Repr

def Operation.text : Operation → String
  | find => "find"
  | findAll => "find_all"
  | query => "query"
  | property name => "property `" ++ name ++ "`"

inductive Error where
  | unknownNodeKind (node : Unclassified)
  | unsupportedOperation (operation : Operation) (node : NodeKind)
  /-- A filter that constrains neither tags nor attributes nor text. -/
  | emptyFilter
  | query (error : XPath.Error)

def Error.message : Error → String
  | unknownNodeKind node => s!"unknown node kind: {node.name}"
  | unsupportedOperation operation node =>
    s!"{operation.text} is not supported on a {node.name} node"
  | emptyFilter => "invalid filter combination: no tag name, attribute or text constraint"
  | query error => s!"query rejected: {error.message}"

end MarkupQuery
