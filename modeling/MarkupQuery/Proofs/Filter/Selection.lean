import MarkupQuery.Proofs.Filter.Queries
import MarkupQuery.Proofs.Html.Conversion

/-!
# Running the query of a filter

The query of a normal form without a limit finds the nodes that answer to the normal form, each once
and in document order.  The tree is ranked before an expression is evaluated, which changes nothing
that a normal form asks for.
-/

namespace MarkupQuery.Filter

open XPath

variable {t : Tree} {R : Tree → NodeId → NodeId → Prop}

theorem matches_rankNodes {config : Config} {spec : Spec} {id : NodeId} :
    spec.Matches config t.rankNodes id ↔ spec.Matches config t id := by
  unfold Spec.Matches
  split
  · exact Iff.rfl
  · exact ⟨fun h => ⟨h.name, h.attributes, h.text⟩, fun h => ⟨h.name, h.attributes, h.text⟩⟩

theorem Traces.evaluate {e : Expr} (h : Traces e R) (ht : t.Built) {id : NodeId}
    (hid : id < t.size) :
    ∃ found : List NodeId, e.evaluate t id = .ok (.nodeSet (found.map .tree)) ∧
      InOrder t (found.map .tree) ∧ ∀ c, c ∈ found ↔ R t.rankNodes id c := by
  obtain ⟨finds, hfinds, htree⟩ := h t.rankNodes ht.rankNodes
  obtain ⟨nodes, heval, horder, hmem⟩ := hfinds (.alone (.tree id)) hid
  have hnodes : (nodes.map NodeRef.nodeId).map NodeRef.tree = nodes := by
    rw [List.map_map]
    refine (List.map_congr_left fun m hm => ?_).trans nodes.map_id
    obtain ⟨c, rfl, -⟩ := (htree id m).1 ((hmem m).1 hm)
    rfl
  refine ⟨nodes.map NodeRef.nodeId, ?_, ?_, fun c => ?_⟩
  · rw [hnodes]
    exact heval
  · rw [hnodes]
    exact inOrder_rankNodes.1 horder
  · have hiff : NodeRef.tree c ∈ nodes ↔ R t.rankNodes id c := by
      rw [hmem, Context.alone, htree]
      simp
    rw [← hiff, List.mem_map]
    constructor
    · intro ⟨m, hm, heq⟩
      obtain ⟨d, rfl, -⟩ := (htree id m).1 ((hmem m).1 hm)
      rwa [← heq]
    · exact fun hm => ⟨_, hm, rfl⟩

theorem size_start_lt (ht : t.Built) {scope : Scope} (h : t.Inside scope.start Tree.root) :
    scope.start < t.size := by
  obtain ⟨kids, hkids⟩ := ht.exists_linked
  rcases Relation.reflTransGen_iff_eq_or_transGen.1 h with heq | hbelow
  · rw [← heq]
    exact ht.size_pos
  · exact (hkids.lt_size_of_below hbelow).1

theorem reaches_start_iff (spec : Spec) (scope : Scope) (c : NodeId) :
    Reaches spec.recursive scope t scope.start c ↔ spec.Covers t scope c := by
  unfold Reaches Spec.Covers Scope.start Scope.nodeId?
  cases spec.recursive <;> cases scope <;> rfl

/-- What a search finds: the nodes that answer to the normal form, in document order. -/
structure Selects (config : Config) (t : Tree) (spec : Spec) (scope : Scope)
    (found : List NodeId) : Prop where
  inOrder : InOrder t (found.map .tree)
  mem_iff : ∀ id, id ∈ found ↔ spec.Covers t scope id ∧ spec.Matches config t id

/-- The query of a normal form before its limit is read and evaluated. -/
theorem exists_selects (ht : t.Built) (config : Config) {spec : Spec} {scope : Scope}
    (hallowed : spec.seeksLeaves → spec.text ≠ .unspecified) (hstart : scope.start < t.size) :
    ∃ query e found, spec.unlimitedQuery config scope = .ok query ∧
      Phrase.union.Spells query.toList e ∧
      e.evaluate t scope.start = .ok (.nodeSet (found.map .tree)) ∧
      Selects config t spec scope found := by
  obtain ⟨query, hquery, e, hspells, htraces⟩ := routes_unlimitedQuery config scope hallowed
  obtain ⟨found, heval, horder, hmem⟩ := htraces.evaluate ht hstart
  refine ⟨query, e, found, hquery, hspells, heval, horder, fun id => ?_⟩
  rw [hmem, matches_rankNodes, ← reaches_start_iff]
  exact Iff.rfl

theorem select_eq_ok {source : String} {e : Expr} {scope : Option NodeId} {nodes : List NodeRef}
    (hparse : XPath.parse source = .ok e)
    (heval : e.evaluate t (scope.getD Tree.root) = .ok (.nodeSet nodes)) :
    XPath.select t source scope = .ok nodes := by
  have hcompile : Query.compile source = .ok ⟨source, e⟩ := by
    rw [Query.compile, hparse]
    rfl
  rw [XPath.select, hcompile, bind_ok, Query.select, Query.evaluate, heval]
  rfl

theorem query_of_limit_eq_zero {config : Config} {spec : Spec} {scope : Scope} {query : String}
    (hlimit : spec.limit = 0) (hquery : spec.unlimitedQuery config scope = .ok query) :
    spec.query config scope = .ok query := by
  rw [Spec.query, hquery, bind_ok, hlimit]
  rfl

theorem Selects.nodup {config : Config} {spec : Spec} {scope : Scope} {found : List NodeId}
    (h : Selects config t spec scope found) : found.Nodup :=
  h.inOrder.nodup.of_map

theorem Selects.below_root {config : Config} {spec : Spec} {scope : Scope} {found : List NodeId}
    (h : Selects config t spec scope found) (hscope : t.Inside scope.start Tree.root) {id : NodeId}
    (hid : id ∈ found) : t.Below id Tree.root := by
  have hcovers := ((h.mem_iff id).1 hid).1
  unfold Spec.Covers at hcovers
  split at hcovers
  · exact hcovers.trans_left hscope
  · exact .head' hcovers hscope

theorem Selects.sublist_descendants (ht : t.Built) {config : Config} {spec : Spec} {scope : Scope}
    {found : List NodeId} (h : Selects config t spec scope found)
    (hscope : t.Inside scope.start Tree.root) :
    found.Sublist (Tree.root :: t.descendants Tree.root) := by
  obtain ⟨kids, hkids⟩ := ht.exists_linked
  refine Tree.sublist_descendants_of_pairwise (fun id hid => ?_) ?_
  · exact List.mem_cons_of_mem _ (hkids.mem_descendants.2 (h.below_root hscope hid))
  · refine (List.pairwise_map.1 h.inOrder.pairwise).imp_of_mem fun {x y} hx hy hxy => ?_
    have hvalid {z : NodeId} (hz : z ∈ found) : (NodeRef.tree z).Valid t :=
      h.inOrder.valid _ (List.mem_map_of_mem hz)
    rw [NodeRef.Before, NodeRef.orderKey_eq ht.assembled (hvalid hx),
      NodeRef.orderKey_eq ht.assembled (hvalid hy)] at hxy
    exact hxy.resolve_right fun hsame => Nat.lt_irrefl 0 hsame.2

/-- The query of a normal form without a limit finds what answers to the normal form in the scope,
each node once and in document order. -/
theorem select_query (ht : t.Built) (config : Config) {spec : Spec} {scope : Scope}
    (hlimit : spec.limit = 0) (hallowed : spec.seeksLeaves → spec.text ≠ .unspecified)
    (hscope : t.Inside scope.start Tree.root) :
    ∃ (query : String) (found : List NodeId), spec.query config scope = .ok query ∧
      XPath.select t query scope.nodeId? = .ok (found.map NodeRef.tree) ∧ found.Nodup ∧
      (∃ order, Tree.Preorder t.children [Tree.root] order ∧ found.Sublist order) ∧
      ∀ id, id ∈ found ↔ spec.Covers t scope id ∧ spec.Matches config t id := by
  obtain ⟨kids, hkids⟩ := ht.exists_linked
  obtain ⟨query, e, found, hquery, hspells, heval, hselects⟩ :=
    exists_selects ht config hallowed (size_start_lt ht hscope)
  refine ⟨query, found, query_of_limit_eq_zero hlimit hquery, ?_, hselects.nodup, ?_,
    hselects.mem_iff⟩
  · exact select_eq_ok (parse_of_spells hspells.expr_of_union) heval
  · exact ⟨_, hkids.preorder_root, hselects.sublist_descendants ht hscope⟩

/-- The texts and comments of two paragraphs that are `e`, `d` or `a`, in the order of the tree. -/
theorem select_query_text : ∃ query : String,
    Spec.query {} { text := .oneOf ["e", "d", "a"] } .document = .ok query ∧
      XPath.select Html.paragraphs query none = .ok [.tree 2, .tree 6, .tree 7] := by
  have ht := Html.built_paragraphs
  obtain ⟨query, found, hquery, hselect, -, ⟨order, horder, hsub⟩, hmem⟩ :=
    @select_query _ ht {} { text := .oneOf ["e", "d", "a"] } .document rfl
      (fun _ => by decide) .refl
  obtain rfl := horder.unique ht.linked_children.preorder_root
  have hnodup : (Tree.root :: Html.paragraphs.descendants Tree.root).Nodup := by decide +kernel
  have hiff : ∀ id ∈ Tree.root :: Html.paragraphs.descendants Tree.root, id ∈ found ↔
      (Html.paragraphs.leaf? id).any (· ∈ ["e", "d", "a"]) = true := by
    intro id hid
    rw [hmem, Option.any_eq_true]
    constructor
    · rintro ⟨-, content, hleaf, htext⟩
      have htext : content ∈ ["e", "d", "a"] := htext
      exact ⟨content, hleaf, decide_eq_true htext⟩
    · rintro ⟨content, hleaf, htext⟩
      have htext : content ∈ ["e", "d", "a"] := of_decide_eq_true htext
      refine ⟨?_, content, hleaf, htext⟩
      rcases List.mem_cons.1 hid with rfl | hid
      · rw [(by decide +kernel : Html.paragraphs.leaf? Tree.root = none)] at hleaf
        cases hleaf
      · exact ht.linked_children.mem_descendants.1 hid
  have hfound : found = [2, 6, 7] := by
    rw [Tree.eq_filter_of_sublist hnodup hsub,
      List.filter_congr fun id hid => (Bool.eq_iff_iff.2 (decide_eq_true_iff.trans (hiff id hid)))]
    decide +kernel
  subst hfound
  exact ⟨query, hquery, hselect⟩

end MarkupQuery.Filter
