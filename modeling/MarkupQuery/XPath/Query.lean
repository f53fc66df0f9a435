import MarkupQuery.XPath.Eval
import MarkupQuery.XPath.Parser

/-!
# Queries

An expression with the text it was read from, ready to be run on any tree from any node.
-/

namespace MarkupQuery.XPath

structure Query where
  source : String
  expr : Expr

namespace Query

/-- Reads a query. -/
def compile (source : String) : Except Error Query := do
  let expr ← parse source
  return ⟨source, expr⟩

/-- The value of a query for a node. -/
def evaluate (query : Query) (t : Tree) (node : NodeId) : Except Error Value :=
  query.expr.evaluate t node

/-- The nodes that a query finds from a node, in document order. -/
def select (query : Query) (t : Tree) (node : NodeId) : Except Error (List NodeRef) := do
  (← query.evaluate t node).nodes

end Query

/-- Reads a query and evaluates it, from the document node when no scope is given. -/
def evaluate (t : Tree) (source : String) (scope : Option NodeId) : Except Error Value := do
  (← Query.compile source).evaluate t (scope.getD Tree.root)

/-- Reads a query and finds its nodes, from the document node when no scope is given. -/
def select (t : Tree) (source : String) (scope : Option NodeId) : Except Error (List NodeRef) := do
  (← Query.compile source).select t (scope.getD Tree.root)

end MarkupQuery.XPath
