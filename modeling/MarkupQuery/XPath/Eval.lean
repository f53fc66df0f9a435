import MarkupQuery.XPath.AxisWalk
import MarkupQuery.XPath.Error

/-!
# Evaluation

The value of an expression in a context: a node, its position among the nodes that a predicate is
asked for, and their number.  A path goes step by step from all nodes at once; after each step the
nodes are put in document order.  Predicates count positions among the nodes that one context node
leads to, and a later predicate counts those that the earlier ones kept.
-/

namespace MarkupQuery.XPath

structure Context where
  node : NodeRef
  position : Nat
  size : Nat

/-- The context of a whole expression. -/
def Context.alone (node : NodeRef) : Context := ⟨node, 1, 1⟩

/-- The elements of a list for which a test holds; the first failure of a test is the failure of
the whole. -/
def sift {ε α : Type} (holds : α → Except ε Bool) : List α → Except ε (List α)
  | [] => .ok []
  | a :: rest => do
    let keep ← holds a
    let kept ← sift holds rest
    return if keep then a :: kept else kept

/-- The nodes of a value that has to be a node-set. -/
def Value.nodes (value : Value) : Except Error (List NodeRef) :=
  match value with
  | .nodeSet nodes => .ok nodes
  | .atom _ => .error .notANodeSet

/-- The name of the first node of a node-set. -/
def firstName (t : Tree) (nodes : List NodeRef) : String :=
  (nodes.head?.map (NodeRef.name t)).getD ""

/-- The value of a call of the function with a name.  The context node stands in for an argument
that is left out, by its text or its name; a truth value that is left out is false. -/
def callNamed (t : Tree) (context : Context) (name : String) (arguments : List Value) :
    Except Error Value :=
  let text (index : Nat) : String :=
    (arguments[index]?.map (Value.toText t)).getD (context.node.stringValue t)
  match name with
  | "last" => .ok (.number (Float.ofNat context.size))
  | "position" => .ok (.number (Float.ofNat context.position))
  | "count" =>
    match arguments.head? with
    | none => .error .notANodeSet
    | some value => do return .number (Float.ofNat (← value.nodes).length)
  | "name" | "local-name" =>
    match arguments.head? with
    | none => .ok (.string (context.node.name t))
    | some value => do return .string (firstName t (← value.nodes))
  | "string" => .ok (.string (text 0))
  | "concat" => .ok (.string (String.join (arguments.map (Value.toText t))))
  | "contains" => .ok (.boolean (occursIn (text 1).toList (text 0).toList))
  | "starts-with" => .ok (.boolean ((text 1).toList.isPrefixOf (text 0).toList))
  | "normalize-space" => .ok (.string (Text.normalizeSpace (text 0)))
  | "string-length" => .ok (.number (Float.ofNat (text 0).length))
  | "boolean" => .ok (.boolean (arguments.head?.any Value.toBoolean))
  | "not" => .ok (.boolean !(arguments.head?.any Value.toBoolean))
  | "true" => .ok (.boolean true)
  | "false" => .ok (.boolean false)
  | "number" =>
    match arguments.head? with
    | none => .ok (.number (numberOfText (context.node.stringValue t)))
    | some value => .ok (.number (value.toNumber t))
  | _ => .error (.unknownFunction name)

/-- The result of an arithmetic operator. -/
def Arithmetic.apply (op : Arithmetic) (x y : Float) : Float :=
  match op with
  | add => x + y
  | subtract => x - y
  | multiply => x * y
  | div => x / y
  | mod => Decimal.remainder x y

mutual

/-- The value of an expression in a context. -/
def Expr.eval (t : Tree) : Expr → Context → Except Error Value
  | .number value, _ => .ok (.number value)
  | .literal text, _ => .ok (.string text)
  | .negate operand, context => do
    let value ← operand.eval t context
    return .number (-(value.toNumber t))
  | .binary .or left right, context => do
    let value ← left.eval t context
    if value.toBoolean then return .boolean true
    else return .boolean (← right.eval t context).toBoolean
  | .binary .and left right, context => do
    let value ← left.eval t context
    if value.toBoolean then return .boolean (← right.eval t context).toBoolean
    else return .boolean false
  | .binary (.relation relation) left right, context => do
    let l ← left.eval t context
    let r ← right.eval t context
    return .boolean (l.compare t relation r)
  | .binary (.arithmetic op) left right, context => do
    let l ← left.eval t context
    let r ← right.eval t context
    return .number (op.apply (l.toNumber t) (r.toNumber t))
  | .call function arguments, context => do
    callNamed t context function.name (← Expr.evalAll t arguments context)
  | .path absolute steps, context => do
    let start := if absolute then .tree Tree.root else context.node
    return .nodeSet (← Step.walk t steps [start])
  | .filter primary predicates steps, context => do
    let nodes ← (← primary.eval t context).nodes
    let kept ← Expr.keep t predicates nodes
    return .nodeSet (← Step.walk t steps kept)
  | .union left right, context => do
    let l ← (← left.eval t context).nodes
    let r ← (← right.eval t context).nodes
    return .nodeSet (inDocumentOrder t (l ++ r))

/-- The values of the arguments of a call, in order. -/
def Expr.evalAll (t : Tree) : List Expr → Context → Except Error (List Value)
  | [], _ => .ok []
  | first :: rest, context => do
    let value ← first.eval t context
    let values ← Expr.evalAll t rest context
    return value :: values

/-- The nodes that all predicates keep, each predicate counting those that are left to it. -/
def Expr.keep (t : Tree) : List Expr → List NodeRef → Except Error (List NodeRef)
  | [], nodes => .ok nodes
  | predicate :: rest, nodes => do
    let kept ← sift (fun entry : NodeRef × Nat => do
      let value ← predicate.eval t ⟨entry.1, entry.2, nodes.length⟩
      return value.keepsPosition entry.2) (nodes.zipIdx 1)
    Expr.keep t rest (kept.map Prod.fst)

/-- The nodes that a step leads to from one node. -/
def Step.select (t : Tree) : Step → NodeRef → Except Error (List NodeRef)
  | .mk axis test predicates, node =>
    Expr.keep t predicates ((axis.nodes t node).filter (test.admits t axis))

/-- The nodes that a path leads to from a list of nodes. -/
def Step.walk (t : Tree) : List Step → List NodeRef → Except Error (List NodeRef)
  | [], nodes => .ok nodes
  | step :: rest, nodes => do
    let reached ← nodes.mapM (fun node => step.select t node)
    Step.walk t rest (inDocumentOrder t reached.flatten)

end

/-- The value of an expression for a node of a tree. -/
def Expr.evaluate (expr : Expr) (t : Tree) (node : NodeId) : Except Error Value :=
  expr.eval t.rankNodes (.alone (.tree node))

end MarkupQuery.XPath
