import MarkupQuery.Proofs.Decimal.Integers
import MarkupQuery.Proofs.Tree.Walks
import MarkupQuery.Proofs.XPath.Axes
import MarkupQuery.Proofs.XPath.Merging

/-!
# Directions of axes

Evaluation never asks whether an axis is a reverse axis: positions count the nodes as the walks come
upon them.  From a node under the document or an attribute of one, each walk goes strictly forward
in document order when the axis is a forward axis and strictly backward when it is a reverse axis,
unless the document itself has been attached to a node.  So a number in brackets picks a node by its
place in document order, counted from the end on a reverse axis.
-/

namespace MarkupQuery.XPath

open MarkupQuery.Tree

variable {t : Tree} {kids : NodeId → List NodeId} {x y : NodeId}

/-! ## Places under the document -/

/-- The node, or the element of the attribute, is the document or lies below it. -/
def NodeRef.Attached (t : Tree) (n : NodeRef) : Prop := t.Inside n.nodeId root

theorem before_of_precedes (ht : t.Assembled) (hy : t.HasTop y root) (h : t.Precedes x y) :
    (NodeRef.tree x).Before t (.tree y) := by
  obtain ⟨i, j, hi, hj, hlt⟩ := (ht.rankedBefore_iff hy).2 h
  refine .inl ?_
  simpa [NodeRef.orderKey, hi, hj] using hlt

/-- Nodes of the tree of the document, each behind the one before. -/
structure Forward (t : Tree) (l : List NodeId) : Prop where
  hasTop : ∀ y ∈ l, t.HasTop y root
  pairwise : l.Pairwise t.Precedes

theorem Forward.sublist {l l' : List NodeId} (h : Forward t l) (hsub : l'.Sublist l) :
    Forward t l' :=
  ⟨fun y hy => h.hasTop y (hsub.subset hy), h.pairwise.sublist hsub⟩

theorem Forward.pairwise_before (ht : t.Assembled) {l : List NodeId} (h : Forward t l) :
    (l.map NodeRef.tree).Pairwise (NodeRef.Before t) := by
  rw [List.pairwise_map]
  exact h.pairwise.imp_of_mem fun _ hy hprecedes => before_of_precedes ht (h.hasTop _ hy) hprecedes

theorem forward_of_sameTop (hx : t.HasTop x root) {l : List NodeId}
    (hsame : ∀ y ∈ l, t.SameTop x y) (hpairwise : l.Pairwise t.Precedes) : Forward t l :=
  ⟨fun y hy => (hsame y hy).hasTop hx, hpairwise⟩

/-! ## Walks from a node under the document -/

section Walks

variable (h : t.Linked kids) (hx : t.HasTop x root)
include h hx

theorem forward_descendants : Forward t (x :: t.descendants x) := by
  have hpairwise := h.pairwise_descendants x
  refine forward_of_sameTop hx (fun y hy => ?_) hpairwise
  rcases List.mem_cons.1 hy with rfl | hy
  · exact h.sameTop_of_inside .refl
  · exact h.sameTop_of_precedes (List.rel_of_pairwise_cons hpairwise hy)

theorem forward_children : Forward t (t.children x) := by
  refine forward_of_sameTop hx (fun y hy => ?_) ?_
  · rw [h.children_eq] at hy
    exact (h.sameTop_of_inside (.single (h.up_iff.2 hy))).symm
  · exact (h.pairwise_children x).imp fun helder => .inr helder.leftOf

theorem forward_followingSiblings : Forward t (t.followingSiblings x) := by
  have hpairwise := h.pairwise_followingSiblings x
  refine forward_of_sameTop hx (fun y hy => ?_) ?_
  · exact h.sameTop_of_leftOf (List.rel_of_pairwise_cons hpairwise hy).leftOf
  · exact hpairwise.tail.imp fun helder => .inr helder.leftOf

theorem forward_precedingSiblings : Forward t (t.precedingSiblings x).reverse := by
  have hpairwise := h.pairwise_precedingSiblings x
  refine forward_of_sameTop hx (fun y hy => ?_) ?_
  · have hy := List.mem_reverse.1 hy
    exact (h.sameTop_of_leftOf (List.rel_of_pairwise_cons hpairwise hy).leftOf).symm
  · rw [List.pairwise_reverse]
    exact hpairwise.tail.imp fun helder => .inr helder.leftOf

theorem forward_ancestors : Forward t (x :: t.ancestors x).reverse := by
  have hpairwise := h.pairwise_ancestors x
  refine forward_of_sameTop hx (fun y hy => ?_) ?_
  · rcases List.mem_cons.1 (List.mem_reverse.1 hy) with rfl | hy
    · exact h.sameTop_of_inside .refl
    · exact h.sameTop_of_inside (List.rel_of_pairwise_cons hpairwise hy).to_reflTransGen
  · rw [List.pairwise_reverse]
    exact hpairwise.imp fun hbelow => .inl hbelow

omit hx in
/-- The later sisters of a node and of those above it, each with what is below it, lie from left to
right. -/
theorem pairwise_followingNodes : (followingNodes t x).Pairwise t.Precedes := by
  have hbeside {a y : NodeId} (hy : y ∈ (t.followingSiblings a).flatMap fun b =>
      b :: t.descendants b) : ∃ b, t.Elder a b ∧ t.Inside y b := by
    obtain ⟨b, hb, hy⟩ := List.mem_flatMap.1 hy
    rw [List.mem_cons, h.mem_descendants, ← inside_iff] at hy
    exact ⟨b, h.mem_followingSiblings.1 hb, hy⟩
  refine List.pairwise_flatMap.2 ⟨fun a _ => ?_, ?_⟩
  · refine List.pairwise_flatMap.2 ⟨fun b _ => h.pairwise_descendants b, ?_⟩
    refine (h.pairwise_followingSiblings a).tail.imp fun helder y hy z hz => ?_
    rw [List.mem_cons, h.mem_descendants, ← inside_iff] at hy hz
    exact .inr (helder.leftOf.of_inside hy hz)
  · refine (h.pairwise_ancestors x).imp fun hbelow y hy z hz => ?_
    obtain ⟨b, helder, hyb⟩ := hbeside hy
    obtain ⟨c, helder', hzc⟩ := hbeside hz
    -- what is beside the lower node is below the higher one
    have hinside : t.Below b _ := h.below_of_elder helder hbelow
    exact .inr (helder'.leftOf.of_inside (hyb.trans hinside.to_reflTransGen) hzc)

theorem forward_followingNodes : Forward t (followingNodes t x) :=
  forward_of_sameTop hx (fun _ hy => h.sameTop_of_leftOf ((mem_followingNodes h).1 hy))
    (pairwise_followingNodes h)

/-- The axis of an attribute starts with what is below its element. -/
theorem forward_behindAttribute : Forward t (t.descendants x ++ followingNodes t x) := by
  have hbelow := (forward_descendants h hx).sublist (List.sublist_cons_self x _)
  have hbehind := forward_followingNodes h hx
  refine ⟨fun y hy => (List.mem_append.1 hy).elim (hbelow.hasTop y) (hbehind.hasTop y), ?_⟩
  refine List.pairwise_append.2 ⟨hbelow.pairwise, hbehind.pairwise, fun y hy z hz => ?_⟩
  have hleft := (mem_followingNodes h).1 hz
  exact .inr (hleft.of_inside (h.mem_descendants.1 hy).to_reflTransGen .refl)

omit hx in
theorem forward_precedingNodes (hroot : t.HasTop root root) :
    Forward t (precedingNodes t x).reverse := by
  have hbelow := forward_descendants h hroot
  rw [precedingNodes, List.reverse_reverse]
  refine hbelow.sublist (.trans ?_ (List.sublist_cons_self root _))
  exact List.filter_sublist.trans (List.takeWhile_sublist _)

end Walks

/-! ## Axes -/

/-- The axis goes strictly forward in document order, or strictly backward if it is a reverse
axis, and comes upon no node twice. -/
structure GoesOneWay (t : Tree) (axis : Axis) (n : NodeRef) : Prop where
  nodup : (axis.nodes t n).Nodup
  forward : axis.isReverse = false → (axis.nodes t n).Pairwise (NodeRef.Before t)
  backward : axis.isReverse = true → (axis.nodes t n).Pairwise fun a b => b.Before t a

theorem pairwise_map_reverse (ht : t.Assembled) {l : List NodeId} (h : Forward t l.reverse) :
    (l.map NodeRef.tree).Pairwise fun a b => b.Before t a := by
  have hbefore := h.pairwise_before ht
  rwa [List.map_reverse, List.pairwise_reverse] at hbefore

theorem before_attribute (owner : NodeId) (index : Nat) :
    (NodeRef.tree owner).Before t (.attribute owner index) :=
  .inr ⟨rfl, Nat.succ_pos index⟩

theorem pairwise_attributes (owner : NodeId) (count : Nat) :
    ((List.range count).map (NodeRef.attribute owner)).Pairwise (NodeRef.Before t) := by
  rw [List.pairwise_map]
  exact List.pairwise_lt_range.imp fun hlt => .inr ⟨rfl, Nat.succ_lt_succ hlt⟩

theorem pairwise_forward (ht : t.Assembled) {n : NodeRef} (hn : t.HasTop n.nodeId root)
    {axis : Axis} (haxis : axis.isReverse = false) :
    (axis.nodes t n).Pairwise (NodeRef.Before t) := by
  obtain ⟨kids, hkids⟩ := ht.exists_linked
  have hbelow := (forward_descendants hkids hn).pairwise_before ht
  match axis, n with
  | .parent, _ | .ancestor, _ | .ancestorOrSelf, _ | .precedingSibling, _ | .preceding, _ =>
    cases haxis
  | .self, _ => exact List.pairwise_singleton _ _
  | .child, .tree id => exact (forward_children hkids hn).pairwise_before ht
  | .descendant, .tree id => exact hbelow.tail
  | .descendantOrSelf, .tree id => exact hbelow
  | .descendantOrSelf, .attribute .. => exact List.pairwise_singleton _ _
  | .followingSibling, .tree id => exact (forward_followingSiblings hkids hn).pairwise_before ht
  | .following, .tree id => exact (forward_followingNodes hkids hn).pairwise_before ht
  | .following, .attribute .. => exact (forward_behindAttribute hkids hn).pairwise_before ht
  | .attribute, .tree id => exact pairwise_attributes id _
  | .child, .attribute .. | .descendant, .attribute .. | .followingSibling, .attribute ..
  | .attribute, .attribute .. => exact .nil

theorem pairwise_backward (ht : t.Assembled) {n : NodeRef} (hn : t.HasTop n.nodeId root)
    {axis : Axis} (haxis : axis.isReverse = true) :
    (axis.nodes t n).Pairwise fun a b => b.Before t a := by
  obtain ⟨kids, hkids⟩ := ht.exists_linked
  have habove := pairwise_map_reverse ht (forward_ancestors hkids hn)
  match axis, n with
  | .self, _ | .child, _ | .descendant, _ | .descendantOrSelf, _ | .followingSibling, _
  | .following, _ | .attribute, _ => cases haxis
  | .parent, n =>
    cases hparent : n.parent? t <;> simp [Axis.nodes, hparent]
  | .ancestor, .tree id => exact habove.tail
  | .ancestor, .attribute .. => exact habove
  | .ancestorOrSelf, .tree id => exact habove
  | .ancestorOrSelf, .attribute owner index =>
    refine .cons (fun a ha => ?_) habove
    rcases List.mem_cons.1 ha with rfl | ha
    · exact before_attribute owner index
    · exact (List.rel_of_pairwise_cons habove ha).trans (before_attribute owner index)
  | .precedingSibling, .tree id =>
    exact pairwise_map_reverse ht (forward_precedingSiblings hkids hn)
  | .precedingSibling, .attribute .. => exact .nil
  | .preceding, n =>
    exact pairwise_map_reverse ht (forward_precedingNodes hkids ⟨hn.1, .refl⟩)

theorem goesOneWay (ht : t.Assembled) {n : NodeRef} (hn : t.HasTop n.nodeId root) (axis : Axis) :
    GoesOneWay t axis n := by
  have hne {a b : NodeRef} (hbefore : a.Before t b) : a ≠ b := by
    rintro rfl
    exact NodeRef.Before.irrefl a hbefore
  refine ⟨?_, pairwise_forward ht hn, pairwise_backward ht hn⟩
  cases haxis : axis.isReverse with
  | false => exact (pairwise_forward ht hn haxis).imp hne
  | true => exact (pairwise_backward ht hn haxis).imp fun hbefore => (hne hbefore).symm

/-! ## Places -/

/-- A number keeps the node at its place. -/
theorem keep_number {nodes : List NodeRef} {k : Nat} (hk : k < nodes.length)
    (hnodes : nodes.length ≤ 2 ^ 53) :
    Expr.keep t [.number (Decimal.ofDigits (Nat.toDigits 10 (k + 1)) [])] nodes =
      .ok [nodes[k]] := by
  have hfirst := keep_cons nodes (p := fun entry => entry.2 == 1 + k) []
    (x := .number (Decimal.ofDigits (Nat.toDigits 10 (k + 1)) [])) (t := t) fun entry hentry => by
      refine ⟨.number (Decimal.ofDigits (Nat.toDigits 10 (k + 1)) []), by rw [Expr.eval], ?_⟩
      have hplace := List.snd_lt_of_mem_zipIdx hentry
      change (Decimal.ofDigits _ [] == Float.ofNat entry.2) = _
      rw [Bool.eq_iff_iff, Decimal.ofDigits_toDigits,
        Decimal.ofScientific_beq_ofNat_iff (by omega) (by omega), beq_iff_eq]
      omega
  rw [hfirst, map_fst_filter_zipIdx, List.getElem?_eq_getElem hk, Expr.keep]
  rfl

theorem eval_numbered {axis : Axis} {test : NodeTest} {n : NodeRef} {l : List NodeRef}
    (hl : (axis.nodes t n).filter (test.admits t axis) = l) {k : Nat} (hk : k < l.length)
    (hlength : l.length ≤ 2 ^ 53) (position size : Nat) :
    (Expr.path false [.mk axis test
      [.number (Decimal.ofDigits (Nat.toDigits 10 (k + 1)) [])]]).eval t ⟨n, position, size⟩ =
        .ok (.nodeSet [l[k]]) := by
  have hselect : (Step.mk axis test
      [.number (Decimal.ofDigits (Nat.toDigits 10 (k + 1)) [])]).select t n = .ok [l[k]] := by
    rw [Step.select, hl, keep_number hk hlength]
  rw [eval_relative, walk_singleton, hselect, bind_ok, inDocumentOrder_singleton, Step.walk,
    bind_ok]

/-- The nodes on an axis that pass a test, in document order. -/
structure Matches (t : Tree) (axis : Axis) (test : NodeTest) (n : NodeRef)
    (found : List NodeRef) : Prop where
  inOrder : InOrder t found
  mem_iff : ∀ m, m ∈ found ↔ m ∈ axis.nodes t n ∧ test.admits t axis m = true

/-- Where the `k`-th of `count` nodes on an axis stands in document order, counted from zero. -/
def Axis.place (axis : Axis) (count k : Nat) : Nat :=
  if axis.isReverse then count - k else k - 1

/-- Nodes in document order, as an axis comes upon them. -/
def Axis.inDirection (axis : Axis) (found : List NodeRef) : List NodeRef :=
  if axis.isReverse then found.reverse else found

theorem Axis.length_inDirection (axis : Axis) (found : List NodeRef) :
    (axis.inDirection found).length = found.length := by
  unfold Axis.inDirection
  split <;> simp

theorem Axis.getElem?_place (axis : Axis) {found : List NodeRef} {k : Nat}
    (hk : k < found.length) :
    found[axis.place found.length (k + 1)]? = (axis.inDirection found)[k]? := by
  unfold Axis.place Axis.inDirection
  split
  · rw [List.getElem?_reverse hk, Nat.sub_sub, Nat.add_comm 1 k]
  · rfl

/-- The matches in document order, and as the axis comes upon them. -/
theorem exists_matches (ht : t.Assembled) {n : NodeRef} (hn : t.HasTop n.nodeId root) (axis : Axis)
    (test : NodeTest) : ∃ found, Matches t axis test n found ∧
      (axis.nodes t n).filter (test.admits t axis) = axis.inDirection found := by
  have hvalid : ∀ m ∈ (axis.nodes t n).filter (test.admits t axis), m.Valid t := fun m hm =>
    valid_of_admits (List.mem_filter.1 hm).2
  have hmem (m : NodeRef) : m ∈ (axis.nodes t n).filter (test.admits t axis) ↔
      m ∈ axis.nodes t n ∧ test.admits t axis m = true :=
    List.mem_filter
  unfold Axis.inDirection
  cases haxis : axis.isReverse with
  | false =>
    exact ⟨_, ⟨⟨hvalid, (pairwise_forward ht hn haxis).filter _⟩, hmem⟩, rfl⟩
  | true =>
    refine ⟨((axis.nodes t n).filter (test.admits t axis)).reverse, ⟨⟨?_, ?_⟩, ?_⟩, by simp⟩
    · exact fun m hm => hvalid m (List.mem_reverse.1 hm)
    · rw [List.pairwise_reverse]
      exact (pairwise_backward ht hn haxis).filter _
    · exact fun m => List.mem_reverse.trans (hmem m)

/-- When nothing is above the document, every axis from a node under the document or an attribute of
one goes through document order in its direction.  So among the nodes that pass a test the number
`k` in brackets picks the `k`-th in document order on a forward axis, and on a reverse axis the
`k`-th from the end. -/
theorem axes_go_one_way (ht : t.Assembled) (hroot : t.parent? root = none) {n : NodeRef}
    (hn : n.Attached t) (axis : Axis) :
    GoesOneWay t axis n ∧ ∀ test, ∃ found, Matches t axis test n found ∧
      ∀ source k, ReadsTest source test → 1 ≤ k → k ≤ found.length → found.length ≤ 2 ^ 53 →
        ∃ e m, parse (axis.name ++ "::" ++ source ++ "[" ++ toString k ++ "]") = .ok e ∧
          found[axis.place found.length k]? = some m ∧
          ∀ position size, e.eval t ⟨n, position, size⟩ = .ok (.nodeSet [m]) := by
  have hn : t.HasTop n.nodeId root := ⟨hroot, hn⟩
  refine ⟨goesOneWay ht hn axis, fun test => ?_⟩
  obtain ⟨found, hfound, hfilter⟩ := exists_matches ht hn axis test
  refine ⟨found, hfound, fun source k hsource hpos hk hlength => ?_⟩
  obtain ⟨k, rfl⟩ := Nat.exists_eq_add_of_le' hpos
  rw [← axis.length_inDirection found] at hk hlength
  refine ⟨_, (axis.inDirection found)[k], hsource.parse_numbered axis (k + 1), ?_,
    eval_numbered hfilter hk hlength⟩
  rw [axis.getElem?_place (axis.length_inDirection found ▸ hk), List.getElem?_eq_getElem hk]

/-- The texts in front of the last one of two paragraphs, counted from the nearest one on. -/
theorem axes_go_one_way_texts :
    GoesOneWay Html.paragraphs .preceding (.tree 7) ∧
    Matches Html.paragraphs .preceding .text (.tree 7) [.tree 2, .tree 4] ∧
    (∃ e, parse "preceding::text()[1]" = .ok e ∧
      e.eval Html.paragraphs (.alone (.tree 7)) = .ok (.nodeSet [.tree 4])) ∧
    ∃ e, parse "preceding::text()[2]" = .ok e ∧
      e.eval Html.paragraphs (.alone (.tree 7)) = .ok (.nodeSet [.tree 2]) := by
  have ht := Html.built_paragraphs
  have hbelow : NodeRef.Attached Html.paragraphs (.tree 7) :=
    .tail (.single (by decide +kernel : Html.paragraphs.parent? 7 = some 5))
      (by decide +kernel : Html.paragraphs.parent? 5 = some root)
  obtain ⟨honeWay, hnumbered⟩ := axes_go_one_way ht.assembled ht.parent?_root hbelow .preceding
  obtain ⟨found, hfound, hpicks⟩ := hnumbered .text
  have hnodes : (Axis.preceding.nodes Html.paragraphs (.tree 7)).filter
      (NodeTest.text.admits Html.paragraphs .preceding) = [.tree 4, .tree 2] := by
    decide +kernel
  have htexts : found = [.tree 2, .tree 4] := by
    have horder : InOrder Html.paragraphs [.tree 2, .tree 4] := by decide +kernel
    refine hfound.inOrder.eq_of_mem_iff horder fun m => (hfound.mem_iff m).trans ?_
    rw [← List.mem_filter, hnodes]
    exact List.Perm.mem_iff (by decide)
  subst htexts
  have hsource : ReadsTest "text()" .text := readsTest_of_spells spellsTest_text
  have hlength : [NodeRef.tree 2, .tree 4].length ≤ 2 ^ 53 := by norm_num
  refine ⟨honeWay, hfound, ?_, ?_⟩
  · obtain ⟨e, m, hparse, hm, heval⟩ := hpicks "text()" 1 hsource (by decide) (by decide) hlength
    cases hm
    exact ⟨e, hparse, heval 1 1⟩
  · obtain ⟨e, m, hparse, hm, heval⟩ := hpicks "text()" 2 hsource (by decide) (by decide) hlength
    cases hm
    exact ⟨e, hparse, heval 1 1⟩

/-- A detached element `d`, and an element `a` in the document. -/
def detachedElement : Tree :=
  ((Tree.empty.createElement "d").2.createElement "a").2.appendChild root 2

/-- The document in the element `d`, and the element `a` in the document. -/
def documentBelow : Tree := detachedElement.appendChild 1 root

theorem assembled_documentBelow : documentBelow.Assembled := by
  have hcreated : ((Tree.empty.createElement "d").2.createElement "a").2.Assembled :=
    .createElement (.createElement .empty "d") "a"
  have hattached : detachedElement.Assembled :=
    hcreated.appendChild (by decide +kernel) (not_below_of_parent?_eq_none (by decide +kernel))
  exact hattached.appendChild (by decide +kernel) (not_below_of_parent?_eq_none (by decide +kernel))

/-- The document may be attached like any other node and keeps the first rank.  Then the ancestors
of what lies in it go forward: to the document first and from there to the node above it. -/
theorem not_goesOneWay_documentBelow :
    documentBelow.Assembled ∧ (NodeRef.tree 2).Attached documentBelow ∧
      Axis.ancestor.isReverse = true ∧
      Axis.ancestor.nodes documentBelow (.tree 2) = [.tree root, .tree 1] ∧
      (NodeRef.tree root).Before documentBelow (.tree 1) ∧
      ¬ GoesOneWay documentBelow .ancestor (.tree 2) := by
  have hnodes : Axis.ancestor.nodes documentBelow (.tree 2) = [.tree root, .tree 1] := by
    decide +kernel
  have hbefore : (NodeRef.tree root).Before documentBelow (.tree 1) := by decide +kernel
  have hparent : documentBelow.parent? 2 = some root := by decide +kernel
  refine ⟨assembled_documentBelow, .single hparent, rfl, hnodes, hbefore, fun honeWay => ?_⟩
  have hbackward := honeWay.backward rfl
  rw [hnodes, List.pairwise_pair] at hbackward
  exact hbefore.asymm hbackward

end MarkupQuery.XPath
