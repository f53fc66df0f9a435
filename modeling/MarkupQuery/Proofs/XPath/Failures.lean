import Mathlib.Data.List.Forall2
import MarkupQuery.Proofs.XPath.Parts
import MarkupQuery.Proofs.XPath.Spelling

/-!
# Failures of evaluation

An expression fails for one reason only: an atom stands where nodes have to stand.  The names that
the parser knows are names that evaluation knows, and the numbers of arguments that the parser lets
through leave no argument to a default where a function needs it.
-/

namespace MarkupQuery.XPath

/-- The computation has a result, or an atom stood in it where nodes had to stand. -/
def FailsByType {α : Type} (x : Except Error α) : Prop := (∃ a, x = .ok a) ∨ x = .error .notANodeSet

namespace FailsByType

variable {α β : Type}

theorem ok (a : α) : FailsByType (.ok a) := .inl ⟨a, rfl⟩

theorem bind {x : Except Error α} {f : α → Except Error β} (hx : FailsByType x)
    (hf : ∀ a, FailsByType (f a)) : FailsByType (x >>= f) := by
  rcases hx with ⟨a, rfl⟩ | rfl
  · exact hf a
  · exact .inr rfl

theorem mapM {f : α → Except Error β} (hf : ∀ a, FailsByType (f a)) (l : List α) :
    FailsByType (l.mapM f) := by
  induction l with
  | nil => exact ok []
  | cons a l ih =>
    rw [List.mapM_cons]
    exact (hf a).bind fun b => ih.bind fun bs => ok (b :: bs)

theorem sift {holds : α → Except Error Bool} (h : ∀ a, FailsByType (holds a)) (l : List α) :
    FailsByType (XPath.sift holds l) := by
  induction l with
  | nil => exact ok []
  | cons a l ih => exact (h a).bind fun keep => ih.bind fun kept => ok _

theorem nodes (value : Value) : FailsByType value.nodes := by
  cases value with
  | nodeSet nodes => exact ok nodes
  | atom a => exact .inr rfl

/-- Such computations are equal when they have the same results. -/
theorem ext {x y : Except Error α} (hx : FailsByType x) (hy : FailsByType y)
    (h : ∀ a, x = .ok a ↔ y = .ok a) : x = y := by
  rcases hx with ⟨a, rfl⟩ | rfl
  · exact ((h a).1 rfl).symm
  · rcases hy with ⟨a, rfl⟩ | rfl
    · exact (h a).2 rfl
    · rfl

end FailsByType

/-! ## Calls -/

variable {t : Tree}

/-- Evaluation knows every function that the parser knows. -/
theorem callNamed_failsByType (function : Function) (context : Context) (arguments : List Value) :
    FailsByType (callNamed t context function.name arguments) := by
  cases function
  case count =>
    simp only [Function.name, callNamed]
    split
    · exact .inr rfl
    · exact (FailsByType.nodes _).bind fun nodes => .ok _
  case nameOf | localName =>
    simp only [Function.name, callNamed]
    split
    · exact .ok _
    · exact (FailsByType.nodes _).bind fun nodes => .ok _
  case number =>
    simp only [Function.name, callNamed]
    split <;> exact .ok _
  all_goals exact .ok _

/-- The functions that need their arguments. -/
def Function.needy : List Function := [.contains, .startsWith, .concat, .count, .boolean, .not]

/-- What a call of a function that needs its arguments makes of them. -/
inductive Computes (t : Tree) : Function → List Value → Except Error Value → Prop where
  | contains (text part : Value) : Computes t .contains [text, part]
      (.ok (.boolean (occursIn (part.toText t).toList (text.toText t).toList)))
  | startsWith (text part : Value) : Computes t .startsWith [text, part]
      (.ok (.boolean ((part.toText t).toList.isPrefixOf (text.toText t).toList)))
  | concat (first second : Value) (others : List Value) :
      Computes t .concat (first :: second :: others)
        (.ok (.string (String.join ((first :: second :: others).map (Value.toText t)))))
  | count (value : Value) : Computes t .count [value]
      (do return .number (Float.ofNat (← value.nodes).length))
  | boolean (value : Value) : Computes t .boolean [value] (.ok (.boolean value.toBoolean))
  | not (value : Value) : Computes t .not [value] (.ok (.boolean !value.toBoolean))

theorem eq_of_admits {count n : Nat} (h : Arity.admits ⟨n, some n⟩ count = true) : count = n := by
  simp only [Arity.admits, Option.all_some, Bool.and_eq_true, decide_eq_true_eq] at h
  omega

theorem computes_callNamed {function : Function} (hneedy : function ∈ Function.needy)
    (context : Context) {arguments : List Value}
    (harity : function.arity.admits arguments.length = true) :
    Computes t function arguments (callNamed t context function.name arguments) := by
  simp only [Function.needy, List.mem_cons, List.not_mem_nil, or_false] at hneedy
  rcases hneedy with rfl | rfl | rfl | rfl | rfl | rfl
  · obtain ⟨text, part, rfl⟩ := List.length_eq_two.1 (eq_of_admits harity)
    exact .contains text part
  · obtain ⟨text, part, rfl⟩ := List.length_eq_two.1 (eq_of_admits harity)
    exact .startsWith text part
  · match arguments with
    | [] | [_] => cases harity
    | first :: second :: others => exact .concat first second others
  · obtain ⟨value, rfl⟩ := List.length_eq_one_iff.1 (eq_of_admits harity)
    exact .count value
  · obtain ⟨value, rfl⟩ := List.length_eq_one_iff.1 (eq_of_admits harity)
    exact .boolean value
  · obtain ⟨value, rfl⟩ := List.length_eq_one_iff.1 (eq_of_admits harity)
    exact .not value

/-! ## Parts of an evaluation -/

-- the cases are those of the evaluation
mutual

theorem Expr.eval_failsByType : ∀ (e : Expr) (context : Context), FailsByType (e.eval t context)
  | .number value, context => by
    rw [Expr.eval]
    exact .ok _
  | .literal text, context => by
    rw [Expr.eval]
    exact .ok _
  | .negate operand, context => by
    rw [Expr.eval]
    exact (operand.eval_failsByType context).bind fun value => .ok _
  | .binary .or left right, context | .binary .and left right, context => by
    rw [Expr.eval]
    refine (left.eval_failsByType context).bind fun value => ?_
    split
    all_goals first
      | exact .ok _
      | exact (right.eval_failsByType context).bind fun value => .ok _
  | .binary (.relation _) left right, context | .binary (.arithmetic _) left right, context => by
    rw [Expr.eval]
    refine (left.eval_failsByType context).bind fun l => ?_
    exact (right.eval_failsByType context).bind fun r => .ok _
  | .call function arguments, context => by
    rw [Expr.eval]
    refine (Expr.evalAll_failsByType arguments context).bind fun values => ?_
    exact callNamed_failsByType function context values
  | .path absolute steps, context => by
    rw [Expr.eval]
    exact (Step.walk_failsByType steps _).bind fun nodes => .ok _
  | .filter primary predicates steps, context => by
    rw [Expr.eval]
    refine (primary.eval_failsByType context).bind fun value => (FailsByType.nodes value).bind ?_
    refine fun found => (Expr.keep_failsByType predicates found).bind fun kept => ?_
    exact (Step.walk_failsByType steps kept).bind fun nodes => .ok _
  | .union left right, context => by
    rw [Expr.eval]
    refine (left.eval_failsByType context).bind fun l => (FailsByType.nodes l).bind fun lnodes => ?_
    refine (right.eval_failsByType context).bind fun r => ?_
    exact (FailsByType.nodes r).bind fun rnodes => .ok _

theorem Expr.evalAll_failsByType : ∀ (arguments : List Expr) (context : Context),
    FailsByType (Expr.evalAll t arguments context)
  | [], context => by
    rw [Expr.evalAll]
    exact .ok []
  | first :: rest, context => by
    rw [Expr.evalAll]
    refine (first.eval_failsByType context).bind fun value => ?_
    exact (Expr.evalAll_failsByType rest context).bind fun values => .ok _

theorem Expr.keep_failsByType : ∀ (predicates : List Expr) (nodes : List NodeRef),
    FailsByType (Expr.keep t predicates nodes)
  | [], nodes => by
    rw [Expr.keep]
    exact .ok nodes
  | predicate :: rest, nodes => by
    rw [Expr.keep]
    refine FailsByType.bind (.sift (fun entry => ?_) _) fun kept => Expr.keep_failsByType rest _
    exact (predicate.eval_failsByType _).bind fun value => .ok _

theorem Step.select_failsByType : ∀ (s : Step) (node : NodeRef), FailsByType (s.select t node)
  | .mk axis test predicates, node => by
    rw [Step.select]
    exact Expr.keep_failsByType predicates _

theorem Step.walk_failsByType : ∀ (steps : List Step) (nodes : List NodeRef),
    FailsByType (Step.walk t steps nodes)
  | [], nodes => by
    rw [Step.walk]
    exact .ok nodes
  | step :: rest, nodes => by
    rw [Step.walk]
    refine FailsByType.bind (.mapM (fun node => ?_) nodes) fun reached =>
      Step.walk_failsByType rest _
    exact step.select_failsByType node

end

theorem eval_call {function : Function} {arguments : List Expr} {context : Context}
    {values : List Value}
    (h : List.Forall₂ (fun a v => a.eval t context = .ok v) arguments values) :
    (Expr.call function arguments).eval t context =
      callNamed t context function.name values := by
  have hvalues : Expr.evalAll t arguments context = .ok values := by
    induction h with
    | nil => rw [Expr.evalAll]
    | cons hfirst _ ih =>
      rw [Expr.evalAll, hfirst, bind_ok, ih]
      rfl
  rw [Expr.eval, hvalues, bind_ok]

/-- A query that was read has a value from every node of every tree, or an atom stood where nodes
had to stand; and every call in it has the arguments that its function needs, and computes with
them. -/
theorem query_fails_by_type {source : String} {query : Query}
    (hcompile : Query.compile source = .ok query) :
    (∀ t node, ((∃ value, query.evaluate t node = .ok value) ∨
        query.evaluate t node = .error .notANodeSet) ∧
      ((∃ nodes, query.select t node = .ok nodes) ∨
        query.select t node = .error .notANodeSet)) ∧
    ∀ function arguments, (Expr.call function arguments).Within query.expr →
      function.arity.admits arguments.length = true ∧
      (function ∈ Function.needy → ∀ t context values,
        List.Forall₂ (fun a v => a.eval t context = .ok v) arguments values →
          Computes t function values ((Expr.call function arguments).eval t context)) := by
  have hproper {part : Expr} (hpart : part.Within query.expr) : part.Proper :=
    Query.proper_of_compile hcompile hpart
  refine ⟨fun t node => ?_, fun function arguments hcall => ?_⟩
  · have hevaluate : FailsByType (query.evaluate t node) := query.expr.eval_failsByType _
    exact ⟨hevaluate, hevaluate.bind fun value => .nodes value⟩
  · cases hproper hcall with
    | call harity _ =>
      refine ⟨harity, fun hneedy t context values hvalues => ?_⟩
      rw [eval_call hvalues]
      rw [hvalues.length_eq] at harity
      exact computes_callNamed hneedy context harity

theorem compile_notTrue : Query.compile "not(true())" =
    .ok ⟨"not(true())", .call .not [.call .alwaysTrue []]⟩ := by
  have hargument := (Phrase.Spells.callNone .alwaysTrue rfl).expr_of_primary
  have hspells : Phrase.primary.Spells "not(true())".toList (.call .not [.call .alwaysTrue []]) :=
    Phrase.Spells.call .not hargument.lastArgument rfl
  rw [Query.compile, parse_of_spells hspells.expr_of_primary]
  rfl

/-- A negation is evaluated, and computes with its argument. -/
theorem query_fails_by_type_notTrue : ∃ query, Query.compile "not(true())" = .ok query ∧
    ((∃ value, query.evaluate Tree.empty Tree.root = .ok value) ∨
      query.evaluate Tree.empty Tree.root = .error .notANodeSet) ∧
    Computes Tree.empty .not [.boolean true]
      (query.expr.eval Tree.empty (.alone (.tree Tree.root))) := by
  obtain ⟨hevaluates, hcalls⟩ := query_fails_by_type compile_notTrue
  have hargument : (Expr.call .alwaysTrue []).eval Tree.empty (.alone (.tree Tree.root)) =
      .ok (.boolean true) := eval_call .nil
  refine ⟨_, compile_notTrue, (hevaluates Tree.empty Tree.root).1, ?_⟩
  exact (hcalls .not _ .refl).2 (by decide) _ _ _ (.cons hargument .nil)

end MarkupQuery.XPath
