import MarkupQuery.Document.ResultSet
import MarkupQuery.Filter.Query
import MarkupQuery.XPath.Query

/-!
# Searches

A search runs in a whole document or inside an element of it, with a filter or with a path
expression.  Texts and comments have nothing inside and refuse to be searched.
-/

namespace MarkupQuery

namespace Document

/-- The items that a query finds, in document order. -/
def run (d : Document) (query : String) (scope : Scope) : Except Error ResultSet := do
  let nodes ← (XPath.select d.tree query scope.nodeId?).mapError Error.query
  return .ofList (← nodes.mapM d.classify)

/-- The items that a normal form of a filter finds. -/
def search (d : Document) (scope : Scope) (spec : Filter.Spec) : Except Error ResultSet := do
  d.run (← spec.query d.config scope) scope

/-- All items that a filter finds in a scope. -/
def findAllIn (d : Document) (scope : Scope) (filter : Filter) : Except Error ResultSet :=
  d.search scope filter.normalize

/-- The first item that a filter finds in a scope, whatever its limit. -/
def findIn (d : Document) (scope : Scope) (filter : Filter) : Except Error (Option Item) := do
  return (← d.search scope { filter.normalize with limit := 1 }).first?

def find (d : Document) (filter : Filter) : Except Error (Option Item) :=
  d.findIn .document filter

def findAll (d : Document) (filter : Filter) : Except Error ResultSet :=
  d.findAllIn .document filter

/-- The items that a path expression finds. -/
def query (d : Document) (path : String) : Except Error ResultSet :=
  d.run path .document

end Document

namespace Item

/-- The scope of a search inside an item. -/
def scope (item : Item) (operation : Operation) : Except Error Scope :=
  if item.isElement then .ok (.node item.id)
  else .error (.unsupportedOperation operation item.kind.toNodeKind)

def find (item : Item) (filter : Filter) : Except Error (Option Item) := do
  item.document.findIn (← item.scope .find) filter

def findAll (item : Item) (filter : Filter) : Except Error ResultSet := do
  item.document.findAllIn (← item.scope .findAll) filter

/-- The items that a path expression finds from an element. -/
def query (item : Item) (path : String) : Except Error ResultSet := do
  item.document.run path (← item.scope .query)

end Item

end MarkupQuery
