import MarkupQuery.Filter.Query
import MarkupQuery.Proofs.XPath.Merging
import MarkupQuery.Proofs.XPath.Operands

/-!
# Unions

A union has the nodes of both operands, in document order and each once.  Since such lists are told
by their members, unions have the laws of the union of sets.
-/

namespace MarkupQuery.XPath

variable {t : Tree} {x y z : Expr} {context : Context} {l m : List NodeRef}

/-! ## Nodes of both operands -/

theorem eval_union_eq_ok {value : Value} : (Expr.union x y).eval t context = .ok value ↔
    ∃ l m, x.eval t context = .ok (.nodeSet l) ∧ y.eval t context = .ok (.nodeSet m) ∧
      value = .nodeSet (inDocumentOrder t (l ++ m)) := by
  rw [Expr.eval]
  simp only [bind_eq_ok, pure_eq_ok]
  constructor
  · rintro ⟨u, hu, l, hl, v, hv, m, hm, rfl⟩
    rw [nodes_eq_ok hl] at hu
    rw [nodes_eq_ok hm] at hv
    exact ⟨l, m, hu, hv, rfl⟩
  · rintro ⟨l, m, hx, hy, rfl⟩
    exact ⟨_, hx, l, rfl, _, hy, m, rfl, rfl⟩

/-- The value of a union is told by the members of its operands. -/
theorem eval_union_of_mem_iff (ht : t.Assembled) (hx : x.Proper) (hy : y.Proper)
    (hl : x.eval t context = .ok (.nodeSet l)) (hm : y.eval t context = .ok (.nodeSet m))
    {found : List NodeRef} (hfound : InOrder t found) (hmem : ∀ n, n ∈ found ↔ n ∈ l ∨ n ∈ m) :
    (Expr.union x y).eval t context = .ok (.nodeSet found) := by
  have hvalid : ∀ n ∈ l ++ m, n.Valid t := fun n hn =>
    (List.mem_append.1 hn).elim ((hx.eval_inOrder ht hl).valid n) ((hy.eval_inOrder ht hm).valid n)
  refine eval_union_eq_ok.2 ⟨l, m, hl, hm, ?_⟩
  rw [hfound.eq_of_mem_iff (inOrder_inDocumentOrder ht hvalid) fun n => ?_]
  rw [mem_inDocumentOrder, List.mem_append, hmem]

theorem exists_eval_union (ht : t.Assembled) (hx : x.Proper) (hy : y.Proper)
    (hl : x.eval t context = .ok (.nodeSet l)) (hm : y.eval t context = .ok (.nodeSet m)) :
    ∃ found, (Expr.union x y).eval t context = .ok (.nodeSet found) ∧ InOrder t found ∧
      ∀ n, n ∈ found ↔ n ∈ l ∨ n ∈ m := by
  have hunion : (Expr.union x y).eval t context = .ok (.nodeSet (inDocumentOrder t (l ++ m))) :=
    eval_union_eq_ok.2 ⟨l, m, hl, hm, rfl⟩
  exact ⟨_, hunion, (Expr.Proper.union hx hy).eval_inOrder ht hunion, fun n => by
    rw [mem_inDocumentOrder, List.mem_append]⟩

/-! ## Laws -/

theorem eval_union_comm (ht : t.Assembled) (hx : x.Proper) (hy : y.Proper) (context : Context) :
    (Expr.union x y).eval t context = (Expr.union y x).eval t context := by
  refine (Expr.eval_failsByType _ context).ext (Expr.eval_failsByType _ context) fun value => ?_
  have turn {x y : Expr} (hx : x.Proper) (hy : y.Proper)
      (h : (Expr.union x y).eval t context = .ok value) :
      (Expr.union y x).eval t context = .ok value := by
    obtain ⟨l, m, hl, hm, rfl⟩ := eval_union_eq_ok.1 h
    refine eval_union_of_mem_iff ht hy hx hm hl ((hx.union hy).eval_inOrder ht h) fun n => ?_
    rw [mem_inDocumentOrder, List.mem_append, or_comm]
  exact ⟨turn hx hy, turn hy hx⟩

theorem eval_union_assoc (ht : t.Assembled) (hx : x.Proper) (hy : y.Proper) (hz : z.Proper)
    (context : Context) : (Expr.union (.union x y) z).eval t context =
      (Expr.union x (.union y z)).eval t context := by
  refine (Expr.eval_failsByType _ context).ext (Expr.eval_failsByType _ context) fun value => ?_
  constructor
  · intro h
    obtain ⟨left, k, hleft, hk, rfl⟩ := eval_union_eq_ok.1 h
    obtain ⟨l, m, hl, hm, heq⟩ := eval_union_eq_ok.1 hleft
    cases heq
    obtain ⟨right, hright, -, hmem⟩ := exists_eval_union ht hy hz hm hk
    refine eval_union_of_mem_iff ht hx (hy.union hz) hl hright
      (((hx.union hy).union hz).eval_inOrder ht h) fun n => ?_
    simp only [mem_inDocumentOrder, List.mem_append, hmem, or_assoc]
  · intro h
    obtain ⟨l, right, hl, hright, rfl⟩ := eval_union_eq_ok.1 h
    obtain ⟨m, k, hm, hk, heq⟩ := eval_union_eq_ok.1 hright
    cases heq
    obtain ⟨left, hleft, -, hmem⟩ := exists_eval_union ht hx hy hl hm
    refine eval_union_of_mem_iff ht (hx.union hy) hz hleft hk
      ((hx.union (hy.union hz)).eval_inOrder ht h) fun n => ?_
    simp only [mem_inDocumentOrder, List.mem_append, hmem, or_assoc]

theorem eval_union_self (ht : t.Assembled) (hx : x.Proper)
    (hl : x.eval t context = .ok (.nodeSet l)) :
    (Expr.union x x).eval t context = .ok (.nodeSet l) :=
  eval_union_of_mem_iff ht hx hx hl hl (hx.eval_inOrder ht hl) fun n => by rw [or_self]

theorem parse_emptyQuery : parse Filter.emptyQuery = .ok (.path true [.mk .parent .node []]) :=
  parse_of_spells Phrase.Spells.parentOfRoot.expr_of_path

theorem eval_emptyQuery (hroot : t.parent? Tree.root = none) (context : Context) :
    (Expr.path true [.mk .parent .node []]).eval t context = .ok (.nodeSet []) := by
  have hselect : (Step.mk .parent .node []).select t (.tree Tree.root) = .ok [] := by
    simp [Step.select, Expr.keep, Axis.nodes, NodeRef.parent?, hroot]
  rw [Expr.eval, if_pos rfl, walk_singleton, hselect, bind_ok, Step.walk, inDocumentOrder,
    List.mergeSort_nil]
  rfl

/-- A union has no value when one of its operands has none that is a node-set. -/
theorem eval_union_eq_error_iff : (Expr.union x y).eval t context = .error .notANodeSet ↔
    (∀ l, x.eval t context ≠ .ok (.nodeSet l)) ∨ ∀ m, y.eval t context ≠ .ok (.nodeSet m) := by
  rw [(Expr.eval_failsByType _ context).eq_error_iff]
  simp only [eval_union_eq_ok]
  constructor
  · intro h
    by_contra hboth
    simp only [not_or, not_forall, not_not] at hboth
    obtain ⟨⟨l, hl⟩, m, hm⟩ := hboth
    exact h ⟨_, l, m, hl, hm, rfl⟩
  · rintro (h | h) ⟨value, l, m, hl, hm, -⟩
    · exact h l hl
    · exact h m hm

/-- The laws of unions of the values of three texts in a context.  The query that matches nothing
adds nothing, where the document has no parent. -/
structure UnionLaws (t : Tree) (context : Context) (a b c : String) : Prop where
  comm : valueIn t (operation a "|" b) context = valueIn t (operation b "|" a) context
  assoc : valueIn t (operation (operation a "|" b) "|" c) context =
    valueIn t (operation a "|" (operation b "|" c)) context
  idem : ∀ l, valueIn t a context = .ok (.nodeSet l) →
    valueIn t (operation a "|" a) context = .ok (.nodeSet l)
  identity : t.parent? Tree.root = none → ∀ l, valueIn t a context = .ok (.nodeSet l) →
    valueIn t (operation a "|" Filter.emptyQuery) context = .ok (.nodeSet l) ∧
    valueIn t (operation Filter.emptyQuery "|" a) context = .ok (.nodeSet l)
  members : ∀ l m, valueIn t a context = .ok (.nodeSet l) → valueIn t b context = .ok (.nodeSet m) →
    ∃ found, valueIn t (operation a "|" b) context = .ok (.nodeSet found) ∧ InOrder t found ∧
      ∀ n, n ∈ found ↔ n ∈ l ∨ n ∈ m
  error_iff : valueIn t (operation a "|" b) context = .error .notANodeSet ↔
    (∀ l, valueIn t a context ≠ .ok (.nodeSet l)) ∨ ∀ m, valueIn t b context ≠ .ok (.nodeSet m)

/-- Unions of three expressions in parentheses have the laws of unions of sets. -/
theorem unions_join (ht : t.Assembled) {a b c : String} (hx : parse a = .ok x)
    (hy : parse b = .ok y) (hz : parse c = .ok z) (context : Context) :
    UnionLaws t context a b c := by
  have hxy := parse_union hx hy
  have hempty := parse_emptyQuery
  have hpx := proper_of_parse hx
  have hpy := proper_of_parse hy
  have hpz := proper_of_parse hz
  constructor
  · rw [valueIn_of_parse hxy, valueIn_of_parse (parse_union hy hx)]
    exact eval_union_comm ht hpx hpy context
  · rw [valueIn_of_parse (parse_union hxy hz),
      valueIn_of_parse (parse_union hx (parse_union hy hz))]
    exact eval_union_assoc ht hpx hpy hpz context
  · intro l hl
    rw [valueIn_of_parse hx] at hl
    rw [valueIn_of_parse (parse_union hx hx)]
    exact eval_union_self ht hpx hl
  · intro hroot l hl
    rw [valueIn_of_parse hx] at hl
    have hright : (Expr.union x (.path true [.mk .parent .node []])).eval t context =
        .ok (.nodeSet l) :=
      eval_union_of_mem_iff ht hpx (proper_of_parse hempty) hl (eval_emptyQuery hroot context)
        (hpx.eval_inOrder ht hl) (by simp)
    rw [valueIn_of_parse (parse_union hx hempty), valueIn_of_parse (parse_union hempty hx),
      eval_union_comm ht (proper_of_parse hempty) hpx]
    exact ⟨hright, hright⟩
  · intro l m hl hm
    rw [valueIn_of_parse hx] at hl
    rw [valueIn_of_parse hy] at hm
    rw [valueIn_of_parse hxy]
    exact exists_eval_union ht hpx hpy hl hm
  · rw [valueIn_of_parse hx, valueIn_of_parse hy, valueIn_of_parse hxy]
    exact eval_union_eq_error_iff

/-- The laws of unions of texts, attributes and nothing, and the texts and attributes in one union.
-/
theorem unions_join_texts :
    UnionLaws Html.paragraphs (.alone (.tree Tree.root)) ".//text()" ".//@*" "/.." ∧
    valueIn Html.paragraphs (operation ".//text()" "|" ".//@*") (.alone (.tree Tree.root)) =
      .ok (.nodeSet [.attribute 1 0, .tree 2, .tree 4, .tree 7]) := by
  have ht := Html.built_paragraphs.assembled
  have htexts : parse ".//text()" = .ok textsBelow :=
    parse_of_spells spells_textsBelow.expr_of_path
  have hattributes : parse ".//@*" = .ok attributesBelow :=
    parse_of_spells spells_attributesBelow.expr_of_path
  have hlaws := unions_join ht htexts hattributes parse_emptyQuery (.alone (.tree Tree.root))
  obtain ⟨found, hfound, horder, hmem⟩ := hlaws.members _ _
    ((valueIn_of_parse htexts _ _).trans eval_textsBelow)
    ((valueIn_of_parse hattributes _ _).trans eval_attributesBelow)
  have hsorted : InOrder Html.paragraphs [.attribute 1 0, .tree 2, .tree 4, .tree 7] := by
    decide +kernel
  have hall : found = [.attribute 1 0, .tree 2, .tree 4, .tree 7] := by
    refine horder.eq_of_mem_iff hsorted fun n => (hmem n).trans ?_
    rw [← List.mem_append]
    exact List.Perm.mem_iff (by decide)
  exact ⟨hlaws, hall ▸ hfound⟩

end MarkupQuery.XPath
