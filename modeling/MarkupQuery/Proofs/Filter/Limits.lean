import MarkupQuery.Proofs.Decimal.Integers
import MarkupQuery.Proofs.Filter.Selection

/-!
# Limits

A limit is a predicate behind the query in parentheses: it keeps the nodes whose position, counted
in document order, is no greater.  The comparison is one of floating-point numbers.
-/

namespace MarkupQuery.Filter

open XPath

/-- The members of a list whose position is kept. -/
def keepPositions {α : Type} (holds : Nat → Bool) (l : List α) : List α :=
  ((l.zipIdx 1).filter fun entry => holds entry.2).map Prod.fst

/-- Whether a limit keeps a position. -/
def withinLimit (limit position : Nat) : Bool :=
  decide (Float.ofNat position ≤ Decimal.ofDigits (Nat.toDigits 10 limit) [])

/-- What a limit leaves of a list; there is none at zero. -/
def limited {α : Type} (limit : Nat) (l : List α) : List α :=
  if 0 < limit then keepPositions (withinLimit limit) l else l

theorem sublist_keepPositions {α : Type} (holds : Nat → Bool) (l : List α) :
    (keepPositions holds l).Sublist l := by
  have hsub :=
    (List.filter_sublist (p := fun entry => holds entry.2) (l := l.zipIdx 1)).map Prod.fst
  rwa [List.zipIdx_map_fst] at hsub

theorem sublist_limited {α : Type} (limit : Nat) (l : List α) : (limited limit l).Sublist l := by
  unfold limited
  split
  · exact sublist_keepPositions _ l
  · exact List.Sublist.refl l

theorem keepPositions_map {α β : Type} (holds : Nat → Bool) (f : α → β) (l : List α) :
    keepPositions holds (l.map f) = (keepPositions holds l).map f := by
  rw [keepPositions, keepPositions, List.zipIdx_map, List.filter_map, List.map_map, List.map_map]
  rfl

theorem limited_map {α β : Type} (limit : Nat) (f : α → β) (l : List α) :
    limited limit (l.map f) = (limited limit l).map f := by
  unfold limited
  split
  · exact keepPositions_map _ f l
  · rfl

/-- Keeping the places up to a number takes as many members. -/
theorem filter_zipIdx_eq_take {α : Type} {holds : Nat → Bool} {n : Nat} (l : List α) (k : Nat)
    (h : ∀ position < k + l.length, holds position = decide (position ≤ n)) :
    ((l.zipIdx k).filter fun entry => holds entry.2).map Prod.fst = l.take (n + 1 - k) := by
  induction l generalizing k with
  | nil => simp
  | cons a l ih =>
    have hrest := ih (k + 1) fun position hposition => h position (by simp at hposition ⊢; omega)
    have hfirst : holds k = decide (k ≤ n) := h k (by simp)
    rw [List.zipIdx_cons, List.filter_cons, hfirst]
    by_cases hk : k ≤ n
    · rw [if_pos (by simpa using hk), List.map_cons, hrest,
        show n + 1 - k = n + 1 - (k + 1) + 1 by omega, List.take_succ_cons]
    · rw [if_neg (by simpa using hk), hrest, show n + 1 - (k + 1) = 0 by omega,
        show n + 1 - k = 0 by omega, List.take_zero, List.take_zero]

/-- A limit takes the first members of a list of any size that fits in memory. -/
theorem limited_eq_take {α : Type} {limit : Nat} {l : List α} (hlimit : 0 < limit)
    (hl : l.length < 2 ^ 53) : limited limit l = l.take limit := by
  rw [limited, if_pos hlimit]
  refine filter_zipIdx_eq_take l 1 fun position hposition => ?_
  have hposition : position < 2 ^ 53 := by omega
  rw [withinLimit, decide_eq_decide, Decimal.ofDigits_toDigits,
    Decimal.ofNat_le_ofScientific_iff hposition]

/-! ## The query with its limit -/

/-- The condition that the position is within a limit. -/
def limitCondition (limit : Nat) : Expr :=
  .binary (.relation .lessEqual) (.call .position [])
    (.number (Decimal.ofDigits (Nat.toDigits 10 limit) []))

theorem spells_limitCondition (limit : Nat) :
    Phrase.expr.Spells ("position() <= ".toList ++ Nat.toDigits 10 limit)
      (limitCondition limit) := by
  have hdigits : ∀ d ∈ Nat.toDigits 10 limit, d.isDigit = true := fun d hd =>
    Nat.isDigit_of_mem_toDigits (by decide) (by decide) hd
  have hnumber := Phrase.Spells.number Nat.toDigits_ne_nil hdigits
  have hcall := Phrase.Spells.callNone .position rfl
  have hcompare := hcall.path_of_primary.level_of_path.binary
    hnumber.path_of_primary.operand_of_path    separates_lessEqual .lessEqual
  have htext : "position() <= ".toList ++ Nat.toDigits 10 limit =
      (Function.position.name ++ "()").toList ++ [' ', '<', '=', ' '] ++ Nat.toDigits 10 limit := by
    simp [Function.name]
  rw [htext]
  exact hcompare.expr_of_relational

theorem keep_limitCondition (t : Tree) (limit : Nat) (nodes : List NodeRef) :
    Expr.keep t [limitCondition limit] nodes =
      .ok (keepPositions (withinLimit limit) nodes) := by
  rw [keep_cons nodes (p := fun entry => withinLimit limit entry.2) [] fun entry _ => ?_]
  · rw [Expr.keep]
    rfl
  · refine ⟨.boolean (withinLimit limit entry.2), ?_, rfl⟩
    simp only [limitCondition, Expr.eval, Expr.evalAll, bind_ok, Function.name, callNamed,
      Value.compare, Value.number, Atom.compare, Atom.toNumber]
    rfl

theorem spells_limited {a : List Char} {e : Expr} (limit : Nat) (h : Phrase.union.Spells a e) :
    Phrase.path.Spells ("(".toList ++ a ++ ")[position() <= ".toList ++ Nat.toDigits 10 limit ++
      "]".toList) (.filter e [limitCondition limit] []) := by
  have hpredicate := SpellsPredicates.cons (spells_limitCondition limit) spellsPredicates_nil
  have hfiltered := h.expr_of_union.group.filtered hpredicate (List.cons_ne_nil _ _)
  simpa using hfiltered

/-- A limit is applied to what the query in the parentheses finds. -/
theorem evaluate_limited {t : Tree} {e : Expr} {id : NodeId} {nodes : List NodeRef} (limit : Nat)
    (heval : e.evaluate t id = .ok (.nodeSet nodes)) :
    (Expr.filter e [limitCondition limit] []).evaluate t id =
      .ok (.nodeSet (keepPositions (withinLimit limit) nodes)) := by
  rw [Expr.evaluate] at heval ⊢
  rw [Expr.eval, heval, bind_ok, Value.nodes, bind_ok, keep_limitCondition, bind_ok, Step.walk]
  rfl

/-- The expression of a query with its limit. -/
def limitedExpr (limit : Nat) (e : Expr) : Expr :=
  if 0 < limit then .filter e [limitCondition limit] [] else e

theorem exists_query_limited {config : Config} {spec : Spec} {scope : Scope} {query : String}
    {e : Expr} (hquery : spec.unlimitedQuery config scope = .ok query)
    (hspells : Phrase.union.Spells query.toList e) (limit : Nat) :
    ∃ text, ({ spec with limit } : Spec).query config scope = .ok text ∧
      Phrase.expr.Spells text.toList (limitedExpr limit e) := by
  have hunlimited : ({ spec with limit } : Spec).unlimitedQuery config scope = .ok query := hquery
  by_cases hlimit : 0 < limit
  · refine ⟨"(" ++ query ++ ")[position() <= " ++ toString limit ++ "]", ?_, ?_⟩
    · rw [Spec.query, hunlimited, bind_ok, if_pos hlimit]
      rfl
    · have hlimited := (spells_limited limit hspells).expr_of_path
      rw [limitedExpr, if_pos hlimit]
      simpa only [String.toList_append, Nat.toString_eq_repr, Nat.toList_repr] using hlimited
  · have hzero : limit = 0 := by omega
    refine ⟨query, query_of_limit_eq_zero hzero hunlimited, ?_⟩
    rw [limitedExpr, if_neg hlimit]
    exact hspells.expr_of_union

/-- The query of a normal form with a limit finds what the limit leaves of what the query without
it finds. -/
theorem select_limited {t : Tree} {config : Config} {spec : Spec} {scope : Scope} {query : String}
    {e : Expr} {nodes : List NodeRef} (hquery : spec.unlimitedQuery config scope = .ok query)
    (hspells : Phrase.union.Spells query.toList e)
    (heval : e.evaluate t scope.start = .ok (.nodeSet nodes)) (limit : Nat) :
    ∃ text e', ({ spec with limit } : Spec).query config scope = .ok text ∧
      Phrase.expr.Spells text.toList e' ∧
      e'.evaluate t scope.start = .ok (.nodeSet (limited limit nodes)) := by
  obtain ⟨text, htext, hlimited⟩ := exists_query_limited hquery hspells limit
  refine ⟨text, limitedExpr limit e, htext, hlimited, ?_⟩
  unfold limitedExpr limited
  split
  · exact evaluate_limited limit heval
  · exact heval

end MarkupQuery.Filter
