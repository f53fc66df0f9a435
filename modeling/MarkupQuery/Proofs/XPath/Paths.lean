import MarkupQuery.Proofs.Tree.Names
import MarkupQuery.Proofs.XPath.Evaluation

/-!
# Where paths lead

The paths of searches go to the children of a node, to all that is below it, or to its attributes.
-/

namespace MarkupQuery

namespace Tree

variable {t : Tree}

theorem Assembled.mem_children (ht : t.Assembled) {p c : NodeId} : c ∈ t.children p ↔ t.Up c p := by
  obtain ⟨kids, hkids⟩ := ht.exists_linked
  rw [hkids.children_eq, hkids.up_iff]

theorem Assembled.mem_descendants (ht : t.Assembled) {x y : NodeId} :
    y ∈ t.descendants x ↔ t.Below y x := by
  obtain ⟨kids, hkids⟩ := ht.exists_linked
  exact hkids.mem_descendants

theorem below_iff_up {x y : NodeId} : t.Below x y ↔ t.Up x y ∨ ∃ z, t.Up x z ∧ t.Below z y := by
  constructor
  · intro h
    obtain ⟨z, hup, hinside⟩ := Relation.TransGen.head'_iff.1 h
    rcases Relation.reflTransGen_iff_eq_or_transGen.1 hinside with rfl | hbelow
    · exact .inl hup
    · exact .inr ⟨z, hup, hbelow⟩
  · rintro (hup | ⟨z, hup, hbelow⟩)
    · exact .single hup
    · exact .head hup hbelow

end Tree

namespace XPath

variable {t : Tree}

/-- A relation of nodes of the tree, as one of nodes and attributes. -/
def onTree (R : NodeId → NodeId → Prop) (n m : NodeRef) : Prop :=
  ∃ p c, n = .tree p ∧ m = .tree c ∧ R p c

theorem onTree_tree {R : NodeId → NodeId → Prop} {p : NodeId} {m : NodeRef} :
    onTree R (.tree p) m ↔ ∃ c, m = .tree c ∧ R p c := by
  simp [onTree]

/-! ## Below a node -/

theorem mem_nodes_child (ht : t.Assembled) {n m : NodeRef} :
    m ∈ Axis.child.nodes t n ↔ onTree (fun p c => t.Up c p) n m := by
  rcases n with p | ⟨owner, index⟩
  · simp only [onTree_tree, Axis.nodes, List.mem_map, ht.mem_children]
    exact exists_congr fun c => and_comm.trans (and_congr_left' eq_comm)
  · simp [onTree, Axis.nodes]

theorem mem_nodes_descendant (ht : t.Assembled) {n m : NodeRef} :
    m ∈ Axis.descendant.nodes t n ↔ onTree (fun p d => t.Below d p) n m := by
  rcases n with p | ⟨owner, index⟩
  · simp only [onTree_tree, Axis.nodes, List.mem_map, ht.mem_descendants]
    exact exists_congr fun d => and_comm.trans (and_congr_left' eq_comm)
  · simp [onTree, Axis.nodes]

theorem mem_nodes_descendantOrSelf (ht : t.Assembled) {n m : NodeRef} :
    m ∈ Axis.descendantOrSelf.nodes t n ↔ n = m ∨ onTree (fun p d => t.Below d p) n m := by
  have hself : m ∈ Axis.descendantOrSelf.nodes t n ↔ n = m ∨ m ∈ Axis.descendant.nodes t n := by
    cases n <;> simp [Axis.nodes, eq_comm]
  rw [hself, mem_nodes_descendant ht]

section Below

variable {predicates : List Expr} {P : NodeRef → Prop}

/-- The children that pass a test and predicates. -/
def childTest (t : Tree) (test : NodeTest) (P : NodeRef → Prop) (c : NodeId) : Prop :=
  test.admits t .child (.tree c) = true ∧ P (.tree c)

theorem Keeps.leads_child (ht : t.Assembled) (h : Keeps t predicates P) (test : NodeTest) :
    Leads t (.mk .child test predicates)
      (onTree fun p c => t.Up c p ∧ childTest t test P c) := by
  refine (h.leads .child test).congr fun n m _ => ?_
  rw [mem_nodes_child ht]
  constructor
  · rintro ⟨⟨p, c, rfl, rfl, hup⟩, htest⟩
    exact ⟨p, c, rfl, rfl, hup, htest⟩
  · rintro ⟨p, c, rfl, rfl, hup, htest⟩
    exact ⟨⟨p, c, rfl, rfl, hup⟩, htest⟩

theorem admits_node {axis : Axis} (haxis : axis ≠ .attribute) {n : NodeRef} (h : n.Valid t) :
    NodeTest.admits t axis .node n = true := by
  rcases n with id | ⟨owner, index⟩
  · obtain ⟨node, hnode⟩ := Tree.exists_get?_of_lt h
    simp [NodeTest.admits, hnode, haxis]
  · have hget : (t.attributeList owner)[index]? = some ((t.attributeList owner)[index]) :=
      List.getElem?_eq_getElem h
    simp [NodeTest.admits, hget]

theorem leads_self : Leads t (.mk .self .node []) fun n m => n = m := by
  refine (keeps_nil.leads .self .node).congr fun n m hn => ?_
  simp only [Axis.nodes, List.mem_singleton, and_true]
  constructor
  · exact fun h => h.1.symm
  · rintro rfl
    exact ⟨rfl, admits_node (by decide) hn⟩

theorem leads_anywhere (ht : t.Assembled) :
    Leads t .anywhere fun n m => n = m ∨ onTree (fun p d => t.Below d p) n m := by
  refine (keeps_nil.leads .descendantOrSelf .node).congr fun n m hn => ?_
  rw [mem_nodes_descendantOrSelf ht, and_true, and_iff_left_iff_imp]
  rintro (rfl | ⟨p, d, rfl, rfl, hbelow⟩)
  · exact admits_node (by decide) hn
  · obtain ⟨kids, hkids⟩ := ht.exists_linked
    exact admits_node (by decide) (hkids.lt_size_of_below hbelow).1

theorem Keeps.walks_child (ht : t.Assembled) (h : Keeps t predicates P) (test : NodeTest) :
    Walks t [.mk .child test predicates]
      (onTree fun p c => t.Up c p ∧ childTest t test P c) :=
  (h.leads_child ht test).walks ht

/-- All that is below a node, a child of it or of something below it. -/
theorem Keeps.walks_anywhere (ht : t.Assembled) (h : Keeps t predicates P) (test : NodeTest) :
    Walks t [.anywhere, .mk .child test predicates]
      (onTree fun p c => t.Below c p ∧ childTest t test P c) := by
  have hwalks := Walks.cons ht (leads_anywhere ht) (h.walks_child ht test)
  refine hwalks.congr fun n m _ => ?_
  constructor
  · rintro ⟨k, rfl | ⟨p, d, rfl, rfl, hbelow⟩, q, c, hk, rfl, hup, htest⟩
    · exact ⟨q, c, hk, rfl, Tree.below_iff_up.2 (.inl hup), htest⟩
    · cases hk
      exact ⟨p, c, rfl, rfl, Tree.below_iff_up.2 (.inr ⟨d, hup, hbelow⟩), htest⟩
  · rintro ⟨p, c, rfl, rfl, hbelow, htest⟩
    rcases Tree.below_iff_up.1 hbelow with hup | ⟨d, hup, hbelow⟩
    · exact ⟨.tree p, .inl rfl, p, c, rfl, rfl, hup, htest⟩
    · exact ⟨.tree d, .inr ⟨p, d, rfl, rfl, hbelow⟩, d, c, rfl, rfl, hup, htest⟩

/-- The same from the context node itself, which the path names. -/
theorem Keeps.walks_anywhereBelow (ht : t.Assembled) (h : Keeps t predicates P) (test : NodeTest) :
    Walks t [.mk .self .node [], .anywhere, .mk .child test predicates]
      (onTree fun p c => t.Below c p ∧ childTest t test P c) := by
  have hwalks := Walks.cons ht leads_self (h.walks_anywhere ht test)
  refine hwalks.congr fun n m _ => ?_
  exact ⟨fun ⟨_, heq, h⟩ => heq ▸ h, fun h => ⟨n, rfl, h⟩⟩

theorem finds_parentOfRoot (ht : t.Built) :
    Finds t (.path true [.mk .parent .node []]) fun _ _ => False := by
  have hleads := keeps_nil.leads (t := t) .parent .node
  refine (Walks.absolute ht.assembled (hleads.walks ht.assembled)).congr fun _ m => ?_
  simp [Axis.nodes, NodeRef.parent?, ht.parent?_root]

end Below

/-! ## Attributes -/

/-- The node `m` is an attribute of the element `id`, with this name and this value. -/
def AttributeAt (t : Tree) (id : NodeId) (name value : String) (m : NodeRef) : Prop :=
  ∃ i a, m = .attribute id i ∧ (t.attributeList id)[i]? = some a ∧ t.resolve a.name = name ∧
    a.value = value

namespace AttributeAt

variable {id : NodeId} {name value : String} {m : NodeRef}

theorem stringValue (h : AttributeAt t id name value m) : m.stringValue t = value := by
  obtain ⟨i, a, rfl, ha, -, rfl⟩ := h
  simp [NodeRef.stringValue, ha]

theorem exists_iff : (∃ m, AttributeAt t id name value m) ↔ (name, value) ∈ t.attributes id := by
  rw [Tree.attributes, List.mem_map]
  constructor
  · rintro ⟨m, i, a, rfl, ha, rfl, rfl⟩
    exact ⟨a, List.mem_of_getElem? ha, rfl⟩
  · rintro ⟨a, ha, heq⟩
    obtain ⟨i, hi⟩ := List.mem_iff_getElem?.1 ha
    rw [Prod.mk.injEq] at heq
    exact ⟨.attribute id i, i, a, rfl, hi, heq.1, heq.2⟩

theorem unique (ht : t.Assembled) {value' : String} {k : NodeRef}
    (h : AttributeAt t id name value m) (h' : AttributeAt t id name value' k) : m = k := by
  obtain ⟨i, a, rfl, ha, rfl, -⟩ := h
  obtain ⟨j, b, rfl, hb, hname, -⟩ := h'
  have hnodup := ht.namesValid.nodup_attributes id
  have hi : ((t.attributes id).map Prod.fst)[i]? = some (t.resolve a.name) := by
    simp [Tree.attributes, ha]
  have hj : ((t.attributes id).map Prod.fst)[j]? = some (t.resolve a.name) := by
    simp [Tree.attributes, hb, hname]
  have hlt : i < ((t.attributes id).map Prod.fst).length := (List.getElem?_eq_some_iff.1 hi).1
  rw [(List.getElem?_inj hlt hnodup).1 (hi.trans hj.symm)]

end AttributeAt

/-- The attributes whose names the test and the predicates ask for. -/
theorem Keeps.leads_attribute {predicates : List Expr} {P : NodeRef → Prop}
    (h : Keeps t predicates P) (test : NodeTest) (accepts : String → Prop)
    (hiff : ∀ owner i a, (t.attributeList owner)[i]? = some a →
      (test.admits t .attribute (.attribute owner i) = true ∧ P (.attribute owner i) ↔
        accepts (t.resolve a.name))) :
    Leads t (.mk .attribute test predicates) fun n m =>
      ∃ id name value, n = .tree id ∧ accepts name ∧ AttributeAt t id name value m := by
  refine (h.leads .attribute test).congr fun n m _ => ?_
  rcases n with id | ⟨owner, index⟩
  · simp only [Axis.nodes, List.mem_map, List.mem_range, NodeRef.tree.injEq]
    constructor
    · rintro ⟨⟨i, hi, rfl⟩, htest⟩
      have ha : (t.attributeList id)[i]? = some ((t.attributeList id)[i]) :=
        List.getElem?_eq_getElem hi
      exact ⟨id, _, _, rfl, (hiff id i _ ha).1 htest, i, _, rfl, ha, rfl, rfl⟩
    · rintro ⟨owner, name, value, rfl, haccepts, i, a, rfl, ha, rfl, -⟩
      exact ⟨⟨i, (List.getElem?_eq_some_iff.1 ha).1, rfl⟩, (hiff id i a ha).2 haccepts⟩
  · simp [Axis.nodes]

end XPath

end MarkupQuery
