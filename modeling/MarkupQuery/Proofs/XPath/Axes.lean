import Mathlib.Data.List.TakeWhile
import MarkupQuery.Proofs.Tree.Position
import MarkupQuery.XPath.AxisWalk

/-!
# Axes that divide up a tree

The axes self, ancestor, descendant, following and preceding are to lead from a node to every node
of its tree, each on one axis, and nowhere else.  They do so from all nodes below the document.  The
preceding axis goes through the document in search of its node: from a node that it does not meet
there it leads to all nodes below the document.
-/

namespace MarkupQuery

namespace XPath

open MarkupQuery.Tree

/-- The axes that divide up the tree of a node. -/
def Axis.dividing : List Axis := [.self, .ancestor, .descendant, .following, .preceding]

/-- The axis leads from node `x` to node `y`. -/
def Axis.Reaches (t : Tree) (axis : Axis) (x y : NodeId) : Prop :=
  NodeRef.tree y ∈ axis.nodes t (.tree x)

/-- The axes of a node divide up its tree, and the two that go by document order stop at it. -/
structure AxesDivideTree (t : Tree) (x : NodeId) : Prop where
  covered : ∀ y, t.SameTop x y → ∃! axis, axis ∈ Axis.dividing ∧ axis.Reaches t x y
  within : ∀ axis ∈ Axis.dividing, ∀ node ∈ axis.nodes t (.tree x),
    ∃ y, node = .tree y ∧ t.SameTop x y
  preceding : t.Inside x root → ∀ y, Axis.preceding.Reaches t x y ↔
    t.RankedBefore y x ∧ ¬ t.Below x y
  following : t.Inside x root → ∀ y, Axis.following.Reaches t x y ↔
    t.Inside y root ∧ t.RankedBefore x y ∧ ¬ t.Below y x

variable {t : Tree} {kids : NodeId → List NodeId} {x y : NodeId}

/-! ## Where each axis leads -/

theorem mem_followingNodes (h : t.Linked kids) : y ∈ followingNodes t x ↔ t.LeftOf x y := by
  have hlevel {a : NodeId} : a ∈ x :: t.ancestors x ↔ t.Inside x a := by
    rw [List.mem_cons, h.mem_ancestors, inside_iff, eq_comm]
  have hsister {b : NodeId} : y ∈ b :: t.descendants b ↔ t.Inside y b := by
    rw [List.mem_cons, h.mem_descendants, inside_iff]
  simp only [followingNodes, List.mem_flatMap, hlevel, hsister, h.mem_followingSiblings]
  constructor
  · rintro ⟨a, hxa, b, hab, hyb⟩
    exact ⟨a, b, hab, hxa, hyb⟩
  · rintro ⟨a, b, hab, hxa, hyb⟩
    exact ⟨a, hxa, b, hab, hyb⟩

theorem mem_precedingNodes (ht : t.Built) (hx : t.Below x root) :
    y ∈ precedingNodes t x ↔ t.LeftOf y x := by
  obtain ⟨kids, hkids⟩ := ht.exists_linked
  simp only [precedingNodes, List.mem_reverse, List.mem_filter, Bool.not_eq_true',
    List.contains_eq_mem, decide_eq_false_iff_not, hkids.mem_ancestors,
    hkids.mem_takeWhile_descendants hx]
  constructor
  · rintro ⟨⟨-, hplace⟩, habove⟩
    exact hplace.resolve_left habove
  · intro hleft
    have hinside := (hkids.sameTop_of_leftOf hleft).symm.inside_root ht hx.to_reflTransGen
    have hne : y ≠ root := by
      rintro rfl
      exact (hkids.not_below_of_leftOf hleft).2 hx
    have hbelow := (inside_iff.1 hinside).resolve_left hne
    exact ⟨⟨hbelow, .inr hleft⟩, (hkids.not_below_of_leftOf hleft).2⟩

/-- From a node that is not below the document the preceding axis leads to all that is. -/
theorem precedingNodes_of_not_below (h : t.Linked kids) (hx : ¬ t.Below x root) :
    precedingNodes t x = (t.descendants root).reverse := by
  have hpass : ∀ y ∈ t.descendants root, (y != x) = true := by
    intro y hy
    exact bne_iff_ne.2 fun heq => hx (heq ▸ h.mem_descendants.1 hy)
  have hkept : ∀ y ∈ t.descendants root, (!(t.ancestors x).contains y) = true := by
    intro y hy
    simp only [Bool.not_eq_true', List.contains_eq_mem, decide_eq_false_iff_not, h.mem_ancestors]
    exact fun habove => hx (habove.trans (h.mem_descendants.1 hy))
  rw [precedingNodes, List.takeWhile_eq_self_iff.2 hpass, List.filter_eq_self.2 hkept]

/-- How the nodes on the dividing axes are to lie to node `x`. -/
inductive Axis.Meets (t : Tree) (x y : NodeId) : Axis → Prop where
  | self (h : x = y) : Meets t x y .self
  | ancestor (h : t.Below x y) : Meets t x y .ancestor
  | descendant (h : t.Below y x) : Meets t x y .descendant
  | following (h : t.LeftOf x y) : Meets t x y .following
  | preceding (h : t.LeftOf y x) : Meets t x y .preceding

theorem Axis.Meets.unique (hkids : t.Linked kids) {axis axis' : Axis} (h : axis.Meets t x y)
    (h' : axis'.Meets t x y) : axis = axis' := by
  have hself := hkids.not_below_self x
  have hleft := hkids.not_leftOf_self x
  have hbelow := hkids.below_asymm (x := x) (y := y)
  have hright := hkids.not_below_of_leftOf (x := x) (y := y)
  have hright' := hkids.not_below_of_leftOf (x := y) (y := x)
  have hasymm := hkids.leftOf_asymm (x := x) (y := y)
  cases h <;> cases h' <;> simp_all

theorem Axis.Meets.sameTop (hkids : t.Linked kids) {axis : Axis} (h : axis.Meets t x y) :
    t.SameTop x y := by
  cases h with
  | self h => exact h ▸ hkids.sameTop_of_inside .refl
  | ancestor h => exact hkids.sameTop_of_inside h.to_reflTransGen
  | descendant h => exact (hkids.sameTop_of_inside h.to_reflTransGen).symm
  | following h => exact hkids.sameTop_of_leftOf h
  | preceding h => exact (hkids.sameTop_of_leftOf h).symm

theorem exists_meets (hkids : t.Linked kids) (h : t.SameTop x y) :
    ∃ axis : Axis, axis.Meets t x y := by
  rcases hkids.sameTop_cases h with h | h | h | h | h
  · exact ⟨_, .self h⟩
  · exact ⟨_, .ancestor h⟩
  · exact ⟨_, .descendant h⟩
  · exact ⟨_, .following h⟩
  · exact ⟨_, .preceding h⟩

theorem Axis.Meets.mem_dividing {axis : Axis} (h : axis.Meets t x y) : axis ∈ Axis.dividing := by
  cases h <;> simp [Axis.dividing]

theorem tree_mem_map {l : List NodeId} : NodeRef.tree y ∈ l.map NodeRef.tree ↔ y ∈ l := by
  simp

/-- All dividing axes but the preceding one lead where they are to lead, from any node. -/
theorem reaches_iff_meets (hkids : t.Linked kids) {axis : Axis} (haxis : axis ∈ Axis.dividing)
    (hne : axis ≠ .preceding) : axis.Reaches t x y ↔ axis.Meets t x y := by
  simp only [Axis.dividing, List.mem_cons, List.not_mem_nil, or_false, hne] at haxis
  rcases haxis with rfl | rfl | rfl | rfl
  · rw [Axis.Reaches, Axis.nodes, List.mem_singleton, NodeRef.tree.injEq, eq_comm]
    exact ⟨.self, fun | .self h => h⟩
  · rw [Axis.Reaches, Axis.nodes, NodeRef.ancestors, tree_mem_map, hkids.mem_ancestors]
    exact ⟨.ancestor, fun | .ancestor h => h⟩
  · rw [Axis.Reaches, Axis.nodes, tree_mem_map, hkids.mem_descendants]
    exact ⟨.descendant, fun | .descendant h => h⟩
  · rw [Axis.Reaches, Axis.nodes, tree_mem_map, mem_followingNodes hkids]
    exact ⟨.following, fun | .following h => h⟩

/-! ## When the preceding axis is right -/

/-- The preceding axis meets the node in the document, or there is nothing that it could find and
nothing that it had to find. -/
def PrecedingInPlace (t : Tree) (x : NodeId) : Prop :=
  t.Below x root ∨ t.children root = [] ∧ ∀ y, ¬ t.LeftOf y x

theorem descendants_root_eq_nil (h : t.Linked kids) (hroot : t.children root = []) :
    t.descendants root = [] := by
  refine List.eq_nil_iff_forall_not_mem.2 fun y hy => ?_
  obtain ⟨c, hc, -⟩ := h.below_iff.1 (h.mem_descendants.1 hy)
  rw [← h.children_eq, hroot] at hc
  cases hc

theorem PrecedingInPlace.mem_precedingNodes (ht : t.Built) (h : PrecedingInPlace t x) :
    y ∈ precedingNodes t x ↔ t.LeftOf y x := by
  obtain ⟨kids, hkids⟩ := ht.exists_linked
  by_cases hx : t.Below x root
  · exact XPath.mem_precedingNodes ht hx
  · obtain ⟨hroot, hleft⟩ := h.resolve_left hx
    rw [precedingNodes_of_not_below hkids hx, descendants_root_eq_nil hkids hroot]
    simp [hleft]

theorem PrecedingInPlace.reaches_iff_meets (ht : t.Built) (h : PrecedingInPlace t x) {axis : Axis}
    (haxis : axis ∈ Axis.dividing) : axis.Reaches t x y ↔ axis.Meets t x y := by
  obtain ⟨kids, hkids⟩ := ht.exists_linked
  by_cases hne : axis = .preceding
  · subst hne
    rw [Axis.Reaches, Axis.nodes, tree_mem_map, NodeRef.nodeId, h.mem_precedingNodes ht]
    exact ⟨.preceding, fun | .preceding h => h⟩
  · exact XPath.reaches_iff_meets hkids haxis hne

theorem exists_tree_of_mem_dividing {axis : Axis} (haxis : axis ∈ Axis.dividing) {node : NodeRef}
    (hnode : node ∈ axis.nodes t (.tree x)) : ∃ y, node = .tree y := by
  simp only [Axis.dividing, List.mem_cons, List.not_mem_nil, or_false] at haxis
  have hmap {l : List NodeId} (h : node ∈ l.map NodeRef.tree) : ∃ y, node = .tree y := by
    obtain ⟨y, -, rfl⟩ := List.mem_map.1 h
    exact ⟨y, rfl⟩
  rcases haxis with rfl | rfl | rfl | rfl | rfl
  · exact ⟨x, List.mem_singleton.1 hnode⟩
  all_goals exact hmap hnode

theorem PrecedingInPlace.axesDivideTree (ht : t.Built) (h : PrecedingInPlace t x) :
    AxesDivideTree t x := by
  obtain ⟨kids, hkids⟩ := ht.exists_linked
  have hpreceding (y : NodeId) : Axis.preceding.Reaches t x y ↔ t.LeftOf y x :=
    (h.reaches_iff_meets ht (by simp [Axis.dividing])).trans ⟨fun | .preceding h => h, .preceding⟩
  have hfollowing (y : NodeId) : Axis.following.Reaches t x y ↔ t.LeftOf x y :=
    (h.reaches_iff_meets ht (by simp [Axis.dividing])).trans ⟨fun | .following h => h, .following⟩
  constructor
  case covered =>
    intro y hxy
    obtain ⟨axis, hmeets⟩ := exists_meets hkids hxy
    have haxis := hmeets.mem_dividing
    refine ⟨axis, ⟨haxis, (h.reaches_iff_meets ht haxis).2 hmeets⟩, ?_⟩
    rintro axis' ⟨haxis', hreaches⟩
    exact ((h.reaches_iff_meets ht haxis').1 hreaches).unique hkids hmeets
  case within =>
    intro axis haxis node hnode
    obtain ⟨y, rfl⟩ := exists_tree_of_mem_dividing haxis hnode
    exact ⟨y, rfl, ((h.reaches_iff_meets ht haxis).1 hnode).sameTop hkids⟩
  case preceding =>
    intro hx y
    rw [hpreceding, ht.rankedBefore_iff hx]
    constructor
    · intro hleft
      exact ⟨.inr hleft, (hkids.not_below_of_leftOf hleft).2⟩
    · rintro ⟨hplace, habove⟩
      exact hplace.resolve_left habove
  case following =>
    intro hx y
    rw [hfollowing]
    constructor
    · intro hleft
      have hy := (hkids.sameTop_of_leftOf hleft).inside_root ht hx
      exact ⟨hy, (ht.rankedBefore_iff hy).2 (.inr hleft), (hkids.not_below_of_leftOf hleft).2⟩
    · rintro ⟨hy, hbefore, hbelow⟩
      exact ((ht.rankedBefore_iff hy).1 hbefore).resolve_left hbelow

/-- From a node that it does not meet in the document, the preceding axis leads to another tree, to
what is below the document a second time, or past what it had to find. -/
theorem AxesDivideTree.precedingInPlace (ht : t.Built) (h : AxesDivideTree t x) :
    PrecedingInPlace t x := by
  obtain ⟨kids, hkids⟩ := ht.exists_linked
  by_cases hx : t.Below x root
  · exact .inl hx
  have hdividing : Axis.preceding ∈ Axis.dividing := by simp [Axis.dividing]
  have hreaches {y : NodeId} : Axis.preceding.Reaches t x y ↔ t.Below y root := by
    rw [Axis.Reaches, Axis.nodes, tree_mem_map, NodeRef.nodeId,
      precedingNodes_of_not_below hkids hx, List.mem_reverse, hkids.mem_descendants]
  have hroot : t.children root = [] := by
    refine List.eq_nil_iff_forall_not_mem.2 fun c hc => ?_
    have hc : t.Below c root := .single (hkids.up_iff.2 (hkids.children_eq root ▸ hc))
    obtain ⟨y, heq, hsame⟩ := h.within .preceding hdividing _ (hreaches.2 hc)
    cases heq
    have hinside := hsame.symm.inside_root ht hc.to_reflTransGen
    obtain rfl := (inside_iff.1 hinside).resolve_right hx
    -- the child is found on the descendant axis as well
    have hdescendant : Axis.descendant.Reaches t root c :=
      List.mem_map_of_mem (hkids.mem_descendants.2 hc)
    have htwice := (h.covered c hsame).unique ⟨by simp [Axis.dividing], hdescendant⟩
      ⟨hdividing, hreaches.2 hc⟩
    cases htwice
  refine .inr ⟨hroot, fun y hleft => ?_⟩
  obtain ⟨axis, ⟨haxis, hfound⟩, -⟩ := h.covered y (hkids.sameTop_of_leftOf hleft).symm
  by_cases hne : axis = .preceding
  · subst hne
    have hmem := hkids.mem_descendants.2 (hreaches.1 hfound)
    rw [descendants_root_eq_nil hkids hroot] at hmem
    cases hmem
  · have hmeets := (reaches_iff_meets hkids haxis hne).1 hfound
    exact hne (hmeets.unique hkids (.preceding hleft))

/-- The axes of a node divide up its tree if the node is below the document, and else only if the
document is empty and the node has nothing to its left. -/
theorem axesDivideTree_iff (ht : t.Built) : AxesDivideTree t x ↔ PrecedingInPlace t x :=
  ⟨fun h => h.precedingInPlace ht, fun h => h.axesDivideTree ht⟩

/-- The axes of a text in the document divide up the document. -/
theorem axesDivideTree_text :
    AxesDivideTree ((Tree.empty.createText "a").2.appendChild root 1) 1 :=
  (axesDivideTree_iff (Tree.Built.empty.appendText "a" root)).2 (.inl (.single rfl))

/-- From a document with a text in it the preceding axis leads to the text. -/
theorem not_axesDivideTree_root :
    ¬ AxesDivideTree ((Tree.empty.createText "a").2.appendChild root 1) root := by
  intro h
  have ht := Tree.Built.empty.appendText "a" root
  rcases h.precedingInPlace ht with hbelow | ⟨hempty, -⟩
  · exact ht.not_below_root hbelow
  · cases hempty

end XPath

end MarkupQuery
