import MarkupQuery.Proofs.Html.Conversion
import MarkupQuery.Proofs.XPath.Kinds
import MarkupQuery.Proofs.XPath.Parts
import MarkupQuery.Proofs.XPath.Paths
import MarkupQuery.Proofs.XPath.Spelling

/-!
# Node-sets in document order

Every list of nodes that the evaluation of an expression comes by is in document order, from
whatever context it starts.  Steps and unions sort, predicates keep the order that they find, and a
step passes no node that is not there.
-/

namespace MarkupQuery.XPath

variable {t : Tree}

/-- The lists of nodes that an expression comes by in a context: its value, the nodes at which each
step of a path arrives, and the nodes that are left of a primary expression by each predicate. -/
inductive Yields (t : Tree) : Expr → Context → List NodeRef → Prop where
  | value {e : Expr} {context : Context} {nodes : List NodeRef}
      (h : e.eval t context = .ok (.nodeSet nodes)) : Yields t e context nodes
  | step {absolute : Bool} {before after : List Step} {s : Step} {context : Context}
      {nodes : List NodeRef}
      (h : Step.walk t (before ++ [s]) [if absolute then .tree Tree.root else context.node] =
        .ok nodes) : Yields t (.path absolute (before ++ s :: after)) context nodes
  | kept {primary : Expr} {before after : List Expr} {steps : List Step} {context : Context}
      {found nodes : List NodeRef} (hprimary : primary.eval t context = .ok (.nodeSet found))
      (h : Expr.keep t before found = .ok nodes) :
      Yields t (.filter primary (before ++ after) steps) context nodes
  | filterStep {primary : Expr} {predicates : List Expr} {before after : List Step}
      {context : Context} {found kept nodes : List NodeRef}
      (hprimary : primary.eval t context = .ok (.nodeSet found))
      (hkept : Expr.keep t predicates found = .ok kept)
      (h : Step.walk t before kept = .ok nodes) :
      Yields t (.filter primary predicates (before ++ after)) context nodes

/-! ## Predicates -/

theorem sift_sublist {ε α : Type} {holds : α → Except ε Bool} {l kept : List α}
    (h : sift holds l = .ok kept) : kept.Sublist l := by
  induction l generalizing kept with
  | nil =>
    cases h
    exact .slnil
  | cons a l ih =>
    obtain ⟨keep, -, h⟩ := bind_eq_ok.1 h
    obtain ⟨others, hothers, heq⟩ := bind_eq_ok.1 h
    obtain rfl := pure_eq_ok.1 heq
    cases keep with
    | true => exact (ih hothers).cons_cons a
    | false => exact (ih hothers).cons a

theorem keep_sublist {predicates : List Expr} {nodes kept : List NodeRef}
    (h : Expr.keep t predicates nodes = .ok kept) : kept.Sublist nodes := by
  induction predicates generalizing nodes with
  | nil =>
    rw [Expr.keep] at h
    cases h
    exact .refl _
  | cons p predicates ih =>
    rw [Expr.keep] at h
    obtain ⟨entries, hsift, h⟩ := bind_eq_ok.1 h
    have hentries : (entries.map Prod.fst).Sublist nodes := by
      simpa using (sift_sublist hsift).map Prod.fst
    exact (ih h).trans hentries

/-! ## Steps -/

theorem valid_of_select {s : Step} {node : NodeRef} {nodes : List NodeRef}
    (h : s.select t node = .ok nodes) : ∀ x ∈ nodes, x.Valid t := by
  obtain ⟨axis, test, predicates⟩ := s
  rw [Step.select] at h
  intro x hx
  exact valid_of_admits (List.mem_filter.1 ((keep_sublist h).subset hx)).2

/-- A step arrives at nodes in document order, wherever it starts. -/
theorem walk_cons (ht : t.Assembled) {s : Step} {steps : List Step} {nodes found : List NodeRef}
    (h : Step.walk t (s :: steps) nodes = .ok found) :
    ∃ reached, InOrder t reached ∧ Step.walk t steps reached = .ok found := by
  rw [Step.walk] at h
  obtain ⟨reached, hreached, h⟩ := bind_eq_ok.1 h
  refine ⟨_, inOrder_inDocumentOrder ht fun x hx => ?_, h⟩
  obtain ⟨l, hl, hx⟩ := List.mem_flatten.1 hx
  obtain ⟨n, -, hselect⟩ := exists_of_mapM_eq_ok hreached hl
  exact valid_of_select hselect x hx

theorem walk_inOrder (ht : t.Assembled) {steps : List Step} {nodes found : List NodeRef}
    (hnodes : InOrder t nodes) (h : Step.walk t steps nodes = .ok found) : InOrder t found := by
  induction steps generalizing nodes with
  | nil =>
    rw [Step.walk] at h
    cases h
    exact hnodes
  | cons s steps ih =>
    obtain ⟨reached, hreached, h⟩ := walk_cons ht h
    exact ih hreached h

theorem walk_inOrder_of_ne_nil (ht : t.Assembled) {steps : List Step} (hne : steps ≠ [])
    {nodes found : List NodeRef} (h : Step.walk t steps nodes = .ok found) : InOrder t found := by
  cases steps with
  | nil => exact absurd rfl hne
  | cons s steps =>
    obtain ⟨reached, hreached, h⟩ := walk_cons ht h
    exact walk_inOrder ht hreached h

/-! ## Expressions -/

theorem nodes_eq_ok {value : Value} {nodes : List NodeRef} (h : value.nodes = .ok nodes) :
    value = .nodeSet nodes := by
  cases value with
  | nodeSet found =>
    cases h
    rfl
  | atom a => cases h

theorem inOrder_root (ht : t.Assembled) : InOrder t [.tree Tree.root] where
  valid := List.forall_mem_singleton.2 ht.size_pos
  pairwise := List.pairwise_singleton _ _

theorem Expr.Proper.eval_inOrder (ht : t.Assembled) {e : Expr} (he : e.Proper) {context : Context}
    {nodes : List NodeRef} (h : e.eval t context = .ok (.nodeSet nodes)) : InOrder t nodes := by
  induction he generalizing context nodes with
  | number | literal | negate => cases Expr.kind_of_eval h
  | binary op => cases op <;> cases Expr.kind_of_eval h
  | @call function => cases function <;> cases Expr.kind_of_eval h
  | @path absolute steps hstart _ _ =>
    rw [Expr.eval] at h
    obtain ⟨found, hwalk, heq⟩ := bind_eq_ok.1 h
    cases heq
    by_cases hsteps : steps = []
    · -- without steps the path stays at the document
      obtain rfl := hstart.resolve_right (not_not.2 hsteps)
      exact walk_inOrder ht (inOrder_root ht) hwalk
    · exact walk_inOrder_of_ne_nil ht hsteps hwalk
  | filter _ _ _ ihprimary _ _ =>
    rw [Expr.eval] at h
    obtain ⟨value, hvalue, h⟩ := bind_eq_ok.1 h
    obtain ⟨found, hfound, h⟩ := bind_eq_ok.1 h
    obtain ⟨kept, hkept, h⟩ := bind_eq_ok.1 h
    obtain ⟨walked, hwalk, heq⟩ := bind_eq_ok.1 h
    cases heq
    obtain rfl := nodes_eq_ok hfound
    exact walk_inOrder ht ((ihprimary hvalue).sublist (keep_sublist hkept)) hwalk
  | union _ _ ihleft ihright =>
    rw [Expr.eval] at h
    obtain ⟨l, hl, h⟩ := bind_eq_ok.1 h
    obtain ⟨lnodes, hlnodes, h⟩ := bind_eq_ok.1 h
    obtain ⟨r, hr, h⟩ := bind_eq_ok.1 h
    obtain ⟨rnodes, hrnodes, heq⟩ := bind_eq_ok.1 h
    cases heq
    obtain rfl := nodes_eq_ok hlnodes
    obtain rfl := nodes_eq_ok hrnodes
    refine inOrder_inDocumentOrder ht fun x hx => ?_
    exact (List.mem_append.1 hx).elim ((ihleft hl).valid x) ((ihright hr).valid x)

theorem Yields.inOrder (ht : t.Assembled) {e : Expr} (he : e.Proper) {context : Context}
    {nodes : List NodeRef} (h : Yields t e context nodes) : InOrder t nodes := by
  cases h with
  | value h => exact he.eval_inOrder ht h
  | step h => exact walk_inOrder_of_ne_nil ht (List.concat_ne_nil _ _) h
  | kept hprimary h =>
    cases he with
    | filter he _ _ => exact (he.eval_inOrder ht hprimary).sublist (keep_sublist h)
  | filterStep hprimary hkept h =>
    cases he with
    | filter he _ _ =>
      exact walk_inOrder ht ((he.eval_inOrder ht hprimary).sublist (keep_sublist hkept)) h

/-- The nodes that a query finds, and all that come up on the way, are nodes of the tree in document
order, each once. -/
theorem query_inOrder (ht : t.Assembled) {source : String} {query : Query}
    (hcompile : Query.compile source = .ok query) :
    (∀ node nodes, query.evaluate t node = .ok (.nodeSet nodes) →
      InOrder t nodes ∧ nodes.Nodup) ∧
    ∀ part : Expr, part.Within query.expr → ∀ context nodes, Yields t.rankNodes part context nodes →
      InOrder t nodes ∧ nodes.Nodup := by
  have hyields {part : Expr} (hpart : part.Within query.expr) {context : Context}
      {nodes : List NodeRef} (h : Yields t.rankNodes part context nodes) :
      InOrder t nodes ∧ nodes.Nodup := by
    have horder := h.inOrder ht.rankNodes (Query.proper_of_compile hcompile hpart)
    exact ⟨inOrder_rankNodes.1 horder, horder.nodup⟩
  refine ⟨fun node nodes h => ?_, fun part hpart context nodes h => hyields hpart h⟩
  exact hyields .refl (.value h)

/-! ## Two paragraphs -/

/-- The path to all texts at or below a node. -/
def textsBelow : Expr := .path false [.mk .self .node [], .anywhere, .mk .child .text []]

/-- The path to the attributes of all elements at or below a node. -/
def attributesBelow : Expr :=
  .path false [.mk .self .node [], .anywhere, .mk .attribute .anyName []]

theorem spells_textsBelow : Phrase.path.Spells ".//text()".toList textsBelow :=
  (Phrase.Spells.childStep spellsTest_text spellsPredicates_nil).lastStep.anywhereBelow

theorem spells_attributesBelow : Phrase.path.Spells ".//@*".toList attributesBelow :=
  (Phrase.Spells.attributeStep spellsTest_anyName spellsPredicates_nil).lastStep.anywhereBelow

/-- From the document a step behind `//` starts at all eight nodes. -/
theorem eval_anywhere_paragraphs {axis : Axis} {test : NodeTest} {found : List NodeRef}
    (hfound : ((List.range 8).map NodeRef.tree).flatMap (fun n =>
      (axis.nodes Html.paragraphs n).filter (test.admits Html.paragraphs axis)) = found)
    (horder : InOrder Html.paragraphs found) :
    (Expr.path false [.mk .self .node [], .anywhere, .mk axis test []]).eval Html.paragraphs
      (.alone (.tree Tree.root)) = .ok (.nodeSet found) := by
  have ht := Html.built_paragraphs.assembled
  have hwalk := calc
    Step.walk Html.paragraphs [.mk .self .node [], .anywhere, .mk axis test []] [.tree Tree.root]
      = Step.walk Html.paragraphs [.anywhere, .mk axis test []] [.tree Tree.root] :=
        walk_plain ht (by decide +kernel) (by decide +kernel)
    _ = Step.walk Html.paragraphs [.mk axis test []] ((List.range 8).map .tree) :=
        walk_plain ht (by decide +kernel) (by decide +kernel)
    _ = Step.walk Html.paragraphs [] found := walk_plain ht hfound horder
  exact eval_path_of_walk hwalk

theorem eval_textsBelow : textsBelow.eval Html.paragraphs (.alone (.tree Tree.root)) =
    .ok (.nodeSet [.tree 2, .tree 4, .tree 7]) :=
  eval_anywhere_paragraphs (by decide +kernel) (by decide +kernel)

theorem eval_attributesBelow : attributesBelow.eval Html.paragraphs (.alone (.tree Tree.root)) =
    .ok (.nodeSet [.attribute 1 0]) :=
  eval_anywhere_paragraphs (by decide +kernel) (by decide +kernel)

/-- Texts and attributes, of which the query names the texts first. -/
theorem query_inOrder_texts : ∃ query, Query.compile ".//text() | .//@*" = .ok query ∧
    query.evaluate Html.paragraphs Tree.root =
      .ok (.nodeSet [.attribute 1 0, .tree 2, .tree 4, .tree 7]) ∧
    InOrder Html.paragraphs [.attribute 1 0, .tree 2, .tree 4, .tree 7] := by
  have ht := Html.built_paragraphs.assembled
  have hspells : Phrase.union.Spells ".//text() | .//@*".toList
      (.union textsBelow attributesBelow) :=
    (spells_textsBelow.map fun _ hd => hd.member).union spells_attributesBelow
  have hcompile : Query.compile ".//text() | .//@*" =
      .ok ⟨".//text() | .//@*", .union textsBelow attributesBelow⟩ := by
    rw [Query.compile, parse_of_spells hspells.expr_of_union]
    rfl
  have horder : InOrder Html.paragraphs [.attribute 1 0, .tree 2, .tree 4, .tree 7] := by
    decide +kernel
  have heval : (Expr.union textsBelow attributesBelow).evaluate Html.paragraphs Tree.root =
      .ok (.nodeSet [.attribute 1 0, .tree 2, .tree 4, .tree 7]) := by
    have hranked : Html.paragraphs.rankNodes = Html.paragraphs := Tree.rankNodes_rankNodes _
    have hmem (x : NodeRef) : x ∈ [.tree 2, .tree 4, .tree 7] ++ [.attribute 1 0] ↔
        x ∈ [.attribute 1 0, .tree 2, .tree 4, .tree 7] :=
      List.Perm.mem_iff (by decide)
    rw [Expr.evaluate, hranked, Expr.eval, eval_textsBelow, eval_attributesBelow]
    simp only [bind_ok, Value.nodes]
    rw [horder.inDocumentOrder_eq ht hmem]
    rfl
  exact ⟨_, hcompile, heval, ((query_inOrder ht hcompile).1 Tree.root _ heval).1⟩

end MarkupQuery.XPath
