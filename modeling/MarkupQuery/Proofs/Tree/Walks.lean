import Mathlib.Data.List.Induction
import MarkupQuery.Proofs.Tree.Position

/-!
# Which way walks go

Every walk along the links of a tree goes through its nodes in one direction of preorder: forward to
children, to what is below a node and to later sisters, backward to earlier sisters and to what is
above a node.
-/

namespace MarkupQuery

namespace Tree

/-- `x` comes before `y` in preorder: it is above `y` or to the left of it. -/
def Precedes (t : Tree) (x y : NodeId) : Prop := t.Below y x ∨ t.LeftOf x y

variable {t : Tree} {kids : NodeId → List NodeId} {x y a b : NodeId}

theorem Elder.leftOf (h : t.Elder a b) : t.LeftOf a b := ⟨a, b, h, .refl, .refl⟩

/-- What is inside two nodes lies to each other as they do. -/
theorem LeftOf.of_inside (h : t.LeftOf a b) (hx : t.Inside x a) (hy : t.Inside y b) :
    t.LeftOf x y := by
  obtain ⟨c, d, helder, hac, hbd⟩ := h
  exact ⟨c, d, helder, hx.trans hac, hy.trans hbd⟩

namespace Linked

theorem sameTop_of_precedes (h : t.Linked kids) (hxy : t.Precedes x y) : t.SameTop x y := by
  rcases hxy with hbelow | hleft
  · exact (h.sameTop_of_inside hbelow.to_reflTransGen).symm
  · exact h.sameTop_of_leftOf hleft

/-! ## Sisters -/

/-- What is above a node is above its sisters. -/
theorem below_of_elder (h : t.Linked kids) (hab : t.Elder a b) (ha : t.Below a x) :
    t.Below b x := by
  obtain ⟨p, before, after, hkids, hb⟩ := h.elder_iff.1 hab
  have hup : t.Up a p := h.up_iff.2 (by simp [hkids])
  have hup' : t.Up b p := h.up_iff.2 (by simp [hkids, hb])
  obtain ⟨q, hq, hinside⟩ := Relation.TransGen.head'_iff.1 ha
  obtain rfl := up_rightUnique hup hq
  exact Relation.TransGen.head' hup' hinside

theorem pairwise_elder (h : t.Linked kids) {p : NodeId} {before xs : List NodeId}
    (hkids : kids p = before ++ xs) : xs.Pairwise t.Elder := by
  induction xs generalizing before with
  | nil => exact .nil
  | cons x xs ih =>
    have hkids' : kids p = (before ++ [x]) ++ xs := by simp [hkids]
    refine .cons (fun y hy => ?_) (ih hkids')
    exact h.elder_iff.2 ⟨p, before, xs, hkids, hy⟩

theorem pairwise_children (h : t.Linked kids) (x : NodeId) :
    (t.children x).Pairwise t.Elder := by
  rw [h.children_eq]
  exact h.pairwise_elder (List.nil_append (kids x)).symm

/-- Sisters are known by the list in which they stand, and a node without a parent has none. -/
theorem sisters_cases (h : t.Linked kids) (x : NodeId) :
    (∃ p before after, kids p = before ++ x :: after) ∨ t.link Node.parent x = none := by
  cases hp : t.link Node.parent x with
  | none => exact .inr rfl
  | some p =>
    obtain ⟨before, after, hkids⟩ := List.append_of_mem (h.parent.1 hp)
    exact .inl ⟨p, before, after, hkids⟩

theorem pairwise_followingSiblings (h : t.Linked kids) (x : NodeId) :
    (x :: t.followingSiblings x).Pairwise t.Elder := by
  change (x :: t.chain Node.nextSibling (t.link Node.nextSibling x)).Pairwise t.Elder
  rcases h.sisters_cases x with ⟨p, before, after, hkids⟩ | hnone
  · rw [h.chain_nextSibling hkids]
    exact h.pairwise_elder hkids
  · rw [(h.alone hnone).1, chain_eq_of_follows .stop .nil]
    exact List.pairwise_singleton _ x

theorem follows_previousSibling (h : t.Linked kids) {p : NodeId} {before after : List NodeId}
    (hkids : kids p = before ++ after) :
    t.Follows Node.previousSibling before.getLast? before.reverse := by
  induction before using List.reverseRecOn generalizing after with
  | nil => exact .stop
  | append_singleton before y ih =>
    have hkids' : kids p = before ++ y :: after := by simp [hkids]
    obtain ⟨n, hn⟩ := exists_get?_of_lt (h.lt_size (by simp [hkids'] : y ∈ kids p)).2
    rw [List.getLast?_concat, List.reverse_concat]
    refine .step hn ?_
    rw [← link_of_get? (f := Node.previousSibling) hn, h.previous hkids']
    exact ih hkids'

theorem chain_previousSibling (h : t.Linked kids) {p : NodeId} {before after : List NodeId}
    (hkids : kids p = before ++ x :: after) :
    t.chain Node.previousSibling (t.link Node.previousSibling x) = before.reverse := by
  have hnodup := h.nodup p
  rw [hkids, List.nodup_append] at hnodup
  rw [h.previous hkids]
  exact chain_eq_of_follows (h.follows_previousSibling hkids) (List.nodup_reverse.2 hnodup.1)

theorem pairwise_precedingSiblings (h : t.Linked kids) (x : NodeId) :
    (x :: t.precedingSiblings x).Pairwise fun y z => t.Elder z y := by
  change (x :: t.chain Node.previousSibling (t.link Node.previousSibling x)).Pairwise _
  rcases h.sisters_cases x with ⟨p, before, after, hkids⟩ | hnone
  · have hkids' : kids p = [] ++ ((before ++ [x]) ++ after) := by simp [hkids]
    have helder : (before ++ [x]).Pairwise t.Elder :=
      (List.pairwise_append.1 (h.pairwise_elder hkids')).1
    rw [h.chain_previousSibling hkids, ← List.reverse_concat, List.pairwise_reverse]
    exact helder
  · rw [(h.alone hnone).2, chain_eq_of_follows .stop .nil]
    exact List.pairwise_singleton _ x

/-! ## Up and down -/

theorem pairwise_preorder (h : t.Linked kids) {xs l : List NodeId} (hl : Preorder kids xs l)
    {p : NodeId} {before : List NodeId} (hkids : kids p = before ++ xs) :
    l.Pairwise t.Precedes := by
  induction hl generalizing p before with
  | nil => exact .nil
  | @cons x rest below after hbelow hafter ihbelow ihafter =>
    have hkids' : kids p = (before ++ [x]) ++ rest := by simp [hkids]
    have hbelowx {y : NodeId} (hy : y ∈ below) : t.Below y x :=
      h.below_iff.2 ((h.mem_preorder hbelow).1 hy)
    have hleft {y z : NodeId} (hy : t.Inside y x) (hz : z ∈ after) : t.LeftOf y z := by
      obtain ⟨b, hb, hzb⟩ := (h.mem_preorder hafter).1 hz
      exact h.leftOf_of_kids hkids hb hy hzb
    rw [List.cons_append]
    refine .cons (fun y hy => ?_) (List.pairwise_append.2 ⟨?_, ?_, fun y hy z hz => ?_⟩)
    · rcases List.mem_append.1 hy with hy | hy
      · exact .inl (hbelowx hy)
      · exact .inr (hleft .refl hy)
    · exact ihbelow (List.nil_append (kids x)).symm
    · exact ihafter hkids'
    · exact .inr (hleft (hbelowx hy).to_reflTransGen hz)

theorem pairwise_descendants (h : t.Linked kids) (x : NodeId) :
    (x :: t.descendants x).Pairwise t.Precedes :=
  .cons (fun _ hy => .inl (h.mem_descendants.1 hy))
    (h.pairwise_preorder (h.preorder_descendants x) (List.nil_append (kids x)).symm)

theorem pairwise_below_of_follows {start : Option NodeId} {l : List NodeId}
    (hl : t.Follows Node.parent start l) : l.Pairwise t.Below := by
  induction hl with
  | stop => exact .nil
  | @step id n l hget hrest ih =>
    refine .cons (fun y hy => ?_) ih
    obtain ⟨p, hp, hinside⟩ := (mem_iff_of_follows_parent hrest).1 hy
    have hup : t.Up id p := by rw [Up, parent?, hget, Option.bind_some, hp]
    exact Relation.TransGen.head' hup hinside

theorem pairwise_ancestors (h : t.Linked kids) (x : NodeId) :
    (x :: t.ancestors x).Pairwise t.Below :=
  .cons (fun _ hy => h.mem_ancestors.1 hy) (pairwise_below_of_follows (h.follows_ancestors x))

end Linked

end Tree

end MarkupQuery
