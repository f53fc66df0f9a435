import MarkupQuery.Proofs.XPath.Predicates

/-!
# Descendants by two steps

The descendants of a node are the children of the node and of its descendants.  With predicates that
judge each node for itself a double slash before a child step therefore leads to what a step on the
descendant axis leads to, though the one counts and sorts the children of one node after the other,
and the other goes through the descendants once.
-/

namespace MarkupQuery.XPath

variable {t : Tree}

/-! ## Judging predicates -/

/-- The predicates judge each node for itself: they are never numbers, and they do not ask for
places. -/
def Judging (t : Tree) (predicates : List Expr) : Prop :=
  ∀ p ∈ predicates, p.NeverNumber t ∧ p.Placeless

/-- Whether all predicates are true of a node; one that is false keeps the later ones from being
asked. -/
def acceptsAll (t : Tree) : List Expr → NodeRef → Except Error Bool
  | [], _ => .ok true
  | p :: rest, node => do
    if ← p.accepts t node then acceptsAll t rest node else return false

theorem acceptsAll_failsByType (predicates : List Expr) (node : NodeRef) :
    FailsByType (acceptsAll t predicates node) := by
  induction predicates with
  | nil => exact .ok true
  | cons p rest ih =>
    refine (accepts_failsByType p node).bind fun keep => ?_
    split
    · exact ih
    · exact .ok false

theorem sift_true {ε α : Type} (l : List α) :
    sift (fun _ => (.ok true : Except ε Bool)) l = .ok l := by
  rw [sift_eq_ok fun _ _ => rfl, List.filter_true]

theorem keep_eq_sift {predicates : List Expr} (h : Judging t predicates) (nodes : List NodeRef) :
    Expr.keep t predicates nodes = sift (acceptsAll t predicates) nodes := by
  induction predicates generalizing nodes with
  | nil =>
    rw [Expr.keep]
    exact (sift_true nodes).symm
  | cons p rest ih =>
    obtain ⟨⟨hnumber, hplace⟩, hrest⟩ := List.forall_mem_cons.1 h
    have hkeep : Expr.keep t rest = sift (acceptsAll t rest) := funext (ih hrest)
    rw [keep_cons_of_placeless hnumber hplace, hkeep,
      sift_sift (accepts_failsByType p) (acceptsAll_failsByType rest)]
    rfl

theorem exists_sift_eq_ok_iff {ε α : Type} {holds : α → Except ε Bool} {l : List α} :
    (∃ kept, sift holds l = .ok kept) ↔ ∀ a ∈ l, ∃ keep, holds a = .ok keep := by
  induction l with
  | nil => simp [sift]
  | cons a l ih =>
    rw [List.forall_mem_cons, ← ih, sift]
    constructor
    · rintro ⟨kept, h⟩
      obtain ⟨keep, hkeep, h⟩ := bind_eq_ok.1 h
      obtain ⟨others, hothers, -⟩ := bind_eq_ok.1 h
      exact ⟨⟨keep, hkeep⟩, others, hothers⟩
    · rintro ⟨⟨keep, hkeep⟩, others, hothers⟩
      exact ⟨_, by rw [hkeep, bind_ok, hothers]; rfl⟩

theorem mem_sift {ε α : Type} {holds : α → Except ε Bool} {l kept : List α}
    (h : sift holds l = .ok kept) {a : α} : a ∈ kept ↔ a ∈ l ∧ holds a = .ok true := by
  induction l generalizing kept with
  | nil =>
    cases h
    simp
  | cons b l ih =>
    obtain ⟨keep, hkeep, h⟩ := bind_eq_ok.1 h
    obtain ⟨others, hothers, heq⟩ := bind_eq_ok.1 h
    obtain rfl := pure_eq_ok.1 heq
    by_cases hab : a = b
    · subst hab
      cases keep <;> simp [ih hothers, hkeep]
    · cases keep <;> simp [ih hothers, hab]

/-! ## Steps with judging predicates -/

/-- The nodes that the axis and the test of a step lead to, before the predicates are asked. -/
def Step.Offers (t : Tree) (axis : Axis) (test : NodeTest) (n m : NodeRef) : Prop :=
  m ∈ axis.nodes t n ∧ test.admits t axis m = true

variable {axis : Axis} {test : NodeTest} {predicates : List Expr} {nodes found : List NodeRef}

theorem select_eq_sift (h : Judging t predicates) (n : NodeRef) :
    (Step.mk axis test predicates).select t n =
      sift (acceptsAll t predicates) ((axis.nodes t n).filter (test.admits t axis)) := by
  rw [Step.select, keep_eq_sift h]

theorem walk_step_eq_ok {s : Step} {n : NodeRef} :
    Step.walk t [s] [n] = .ok found ↔
      ∃ reached, s.select t n = .ok reached ∧ inDocumentOrder t reached = found := by
  rw [walk_singleton, bind_eq_ok]
  simp only [Step.walk, Except.ok.injEq]

/-- A step has a result when the predicates judge all nodes that it offers. -/
theorem exists_walk_step_iff (h : Judging t predicates) :
    (∃ found, Step.walk t [.mk axis test predicates] nodes = .ok found) ↔
      ∀ m, (∃ n ∈ nodes, Step.Offers t axis test n m) →
        ∃ keep, acceptsAll t predicates m = .ok keep := by
  have hselect (n : NodeRef) : (∃ found, Step.walk t [.mk axis test predicates] [n] = .ok found) ↔
      ∀ m, Step.Offers t axis test n m → ∃ keep, acceptsAll t predicates m = .ok keep := by
    simp only [Step.Offers, ← List.mem_filter, ← exists_sift_eq_ok_iff, ← select_eq_sift h,
      walk_step_eq_ok]
    exact ⟨fun ⟨_, reached, hreached, _⟩ => ⟨reached, hreached⟩,
      fun ⟨reached, hreached⟩ => ⟨_, reached, hreached, rfl⟩⟩
  simp only [walk_eq_ok_iff, hselect]
  exact ⟨fun hall m ⟨n, hn, hm⟩ => hall n hn m hm, fun hall n hn m hm => hall m ⟨n, hn, hm⟩⟩

/-- A step arrives at the nodes that it offers and that the predicates accept. -/
theorem mem_walk_step (h : Judging t predicates)
    (hwalk : Step.walk t [.mk axis test predicates] nodes = .ok found) {m : NodeRef} :
    m ∈ found ↔
      (∃ n ∈ nodes, Step.Offers t axis test n m) ∧ acceptsAll t predicates m = .ok true := by
  have hpart {n : NodeRef} (hn : n ∈ nodes) :
      (∃ part, Step.walk t [.mk axis test predicates] [n] = .ok part ∧ m ∈ part) ↔
        Step.Offers t axis test n m ∧ acceptsAll t predicates m = .ok true := by
    obtain ⟨part, hpart⟩ := walk_eq_ok_iff.1 ⟨found, hwalk⟩ n hn
    obtain ⟨reached, hreached, rfl⟩ := walk_step_eq_ok.1 hpart
    rw [select_eq_sift h] at hreached
    rw [Step.Offers, ← List.mem_filter, ← mem_sift hreached, hpart]
    simp only [Except.ok.injEq, exists_eq_left', mem_inDocumentOrder]
  rw [mem_walk hwalk]
  constructor
  · rintro ⟨n, hn, hm⟩
    obtain ⟨hoffers, haccepts⟩ := (hpart hn).1 hm
    exact ⟨⟨n, hn, hoffers⟩, haccepts⟩
  · rintro ⟨⟨n, hn, hoffers⟩, haccepts⟩
    exact ⟨n, hn, (hpart hn).2 ⟨hoffers, haccepts⟩⟩

/-- Two steps that offer the same nodes to the same predicates have the same result. -/
theorem walk_step_congr (ht : t.Assembled) (h : Judging t predicates) {axis' : Axis}
    {test' : NodeTest} {others : List NodeRef}
    (hoffers : ∀ m, (∃ n ∈ nodes, Step.Offers t axis test n m) ↔
      ∃ n ∈ others, Step.Offers t axis' test' n m) :
    Step.walk t [.mk axis test predicates] nodes =
      Step.walk t [.mk axis' test' predicates] others := by
  have hok : (∃ found, Step.walk t [.mk axis test predicates] nodes = .ok found) ↔
      ∃ found, Step.walk t [.mk axis' test' predicates] others = .ok found := by
    simp only [exists_walk_step_iff h, hoffers]
  rcases Step.walk_failsByType [.mk axis test predicates] nodes with ⟨found, hfound⟩ | hfails
  · obtain ⟨found', hfound'⟩ := hok.1 ⟨found, hfound⟩
    have horder := walk_inOrder_of_ne_nil ht (List.cons_ne_nil _ []) hfound
    have horder' := walk_inOrder_of_ne_nil ht (List.cons_ne_nil _ []) hfound'
    have hmem (m : NodeRef) : m ∈ found ↔ m ∈ found' := by
      rw [mem_walk_step h hfound, mem_walk_step h hfound', hoffers]
    rw [hfound, hfound', horder.eq_of_mem_iff horder' hmem]
  · rcases Step.walk_failsByType [.mk axis' test' predicates] others with hfound | hfails'
    · obtain ⟨found, hfound⟩ := hok.2 hfound
      rw [hfails] at hfound
      cases hfound
    · rw [hfails, hfails']

/-! ## Two steps for one -/

/-- What is below a node is a child of the node or of something below it. -/
theorem offers_descendant_iff (ht : t.Assembled) {n m : NodeRef} :
    Step.Offers t .descendant test n m ↔
      ∃ k, Step.Offers t .descendantOrSelf .node n k ∧ Step.Offers t .child test k m := by
  obtain ⟨kids, hkids⟩ := ht.exists_linked
  have hadmits {c d : NodeId} (hup : t.Up c d) :
      NodeTest.admits t .descendantOrSelf .node (.tree d) = true :=
    admits_node (by decide) (hkids.lt_size (hkids.up_iff.1 hup)).1
  simp only [Step.Offers, mem_nodes_descendant ht, mem_nodes_descendantOrSelf ht,
    mem_nodes_child ht]
  constructor
  · rintro ⟨⟨p, c, rfl, rfl, hbelow⟩, htest⟩
    rcases Tree.below_iff_up.1 hbelow with hup | ⟨d, hup, hd⟩
    · exact ⟨.tree p, ⟨.inl rfl, hadmits hup⟩, ⟨p, c, rfl, rfl, hup⟩, htest⟩
    · exact ⟨.tree d, ⟨.inr ⟨p, d, rfl, rfl, hd⟩, hadmits hup⟩, ⟨d, c, rfl, rfl, hup⟩, htest⟩
  · rintro ⟨k, ⟨rfl | ⟨p, d, rfl, rfl, hd⟩, -⟩, ⟨q, c, hq, rfl, hup⟩, htest⟩
    · exact ⟨⟨q, c, hq, rfl, Tree.below_iff_up.2 (.inl hup)⟩, htest⟩
    · cases hq
      exact ⟨⟨p, c, rfl, rfl, Tree.below_iff_up.2 (.inr ⟨d, hup, hd⟩)⟩, htest⟩

/-- The first step asks no predicates, so that it always arrives. -/
theorem exists_walk_anywhere (nodes : List NodeRef) :
    ∃ inside, Step.walk t [.anywhere] nodes = .ok inside ∧
      ∀ k, k ∈ inside ↔ ∃ n ∈ nodes, Step.Offers t .descendantOrSelf .node n k := by
  have hnone : Judging t [] := nofun
  obtain ⟨inside, hinside⟩ := (exists_walk_step_iff hnone).2 fun m _ => ⟨true, rfl⟩
  refine ⟨inside, hinside, fun k => ?_⟩
  rw [mem_walk_step hnone hinside]
  simp only [acceptsAll, and_true]

theorem walk_anywhere_child (ht : t.Assembled) (h : Judging t predicates) (nodes : List NodeRef) :
    Step.walk t [.anywhere, .mk .child test predicates] nodes =
      Step.walk t [.mk .descendant test predicates] nodes := by
  obtain ⟨inside, hinside, hmem⟩ := exists_walk_anywhere (t := t) nodes
  have hoffers (m : NodeRef) : (∃ k ∈ inside, Step.Offers t .child test k m) ↔
      ∃ n ∈ nodes, Step.Offers t .descendant test n m := by
    simp only [hmem, offers_descendant_iff ht]
    constructor
    · rintro ⟨k, ⟨n, hn, hk⟩, hm⟩
      exact ⟨n, hn, k, hk, hm⟩
    · rintro ⟨n, hn, k, hk, hm⟩
      exact ⟨k, ⟨n, hn, hk⟩, hm⟩
  calc Step.walk t [.anywhere, .mk .child test predicates] nodes
      = Step.walk t [.mk .child test predicates] inside := by
        rw [← List.singleton_append, walk_append, hinside, bind_ok]
    _ = Step.walk t [.mk .descendant test predicates] nodes := walk_step_congr ht h hoffers

/-- A double slash in front of a child step is a step on the descendant axis, when the predicates
judge each node for itself. -/
theorem anywhere_child_eq_descendant (ht : t.Assembled) (h : Judging t predicates)
    (test : NodeTest) :
    SameSteps t [.anywhere, .mk .child test predicates] [.mk .descendant test predicates] :=
  sameSteps_of_walk_eq (walk_anywhere_child ht h)

/-! ## First children -/

/-- The predicate of the nodes with no node in front of them among their siblings. -/
def eldest : Expr := .call .not [.path false [.mk .precedingSibling .node []]]

/-- No node stands in front of the node among its siblings. -/
def isEldest (t : Tree) (n : NodeRef) : Bool :=
  ((Axis.precedingSibling.nodes t n).filter (NodeTest.node.admits t .precedingSibling)).isEmpty

theorem eval_eldest (context : Context) :
    eldest.eval t context = .ok (.boolean (isEldest t context.node)) := by
  have hselect : (Step.mk .precedingSibling .node []).select t context.node = .ok
      ((Axis.precedingSibling.nodes t context.node).filter
        (NodeTest.node.admits t .precedingSibling)) := by
    rw [Step.select, Expr.keep]
  have hempty (l : List NodeRef) : (inDocumentOrder t l).isEmpty = l.isEmpty := by
    rw [Bool.eq_iff_iff, List.isEmpty_iff, List.isEmpty_iff, List.eq_nil_iff_forall_not_mem,
      List.eq_nil_iff_forall_not_mem]
    simp only [mem_inDocumentOrder]
  rw [eldest, Expr.eval, Expr.evalAll, eval_relative, walk_singleton, hselect, bind_ok, Step.walk,
    bind_ok, bind_ok, Expr.evalAll, bind_ok]
  change Except.ok (Value.boolean !!List.isEmpty _) = _
  rw [Bool.not_not, hempty, isEldest]

theorem keep_eldest (predicates : List Expr) (nodes : List NodeRef) :
    Expr.keep t (eldest :: predicates) nodes =
      Expr.keep t predicates (nodes.filter (isEldest t)) :=
  keep_cons_filter nodes predicates fun _ _ _ => ⟨_, eval_eldest _, rfl⟩

theorem judging_eldest : Judging t [eldest] := by
  refine List.forall_mem_singleton.2 ⟨Expr.neverNumber_of_kind (by decide), ?_⟩
  exact .call (by decide) (by decide) (List.forall_mem_singleton.2 (.path false _))

/-- Of the three texts in two paragraphs those with nothing in front of them: the third one stands
behind a comment. -/
theorem anywhere_child_eq_descendant_texts :
    SameNodes
      ((Expr.path true [.anywhere, .mk .child .text [eldest]]).eval Html.paragraphs
        (.alone (.tree Tree.root)))
      ((Expr.path true [.mk .descendant .text [eldest]]).eval Html.paragraphs
        (.alone (.tree Tree.root))) ∧
    (Expr.path true [.mk .descendant .text [eldest]]).eval Html.paragraphs
      (.alone (.tree Tree.root)) = .ok (.nodeSet [.tree 2, .tree 4]) := by
  have ht := Html.built_paragraphs.assembled
  have hsame := anywhere_child_eq_descendant ht judging_eldest .text
  refine ⟨hsame.path true [] [] (.alone (.tree Tree.root)), ?_⟩
  have hselect : ∀ n ∈ [NodeRef.tree Tree.root],
      (Step.mk .descendant .text [eldest]).select Html.paragraphs n = .ok
        (((Axis.descendant.nodes Html.paragraphs n).filter
          (NodeTest.text.admits Html.paragraphs .descendant)).filter
            (isEldest Html.paragraphs)) := fun n _ => by
    rw [Step.select, keep_eldest, Expr.keep]
  exact eval_path_of_walk (walk_of_select ht hselect (by decide +kernel) (by decide +kernel))

end MarkupQuery.XPath
