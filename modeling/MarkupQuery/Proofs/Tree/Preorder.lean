import Mathlib.Data.List.Perm.Subperm
import MarkupQuery.Proofs.Tree.Links

/-!
# Preorder

The order of a forest is told by the lists of children alone: a node, then what is below it, then
the further nodes of the forest.  The walks along links are shown to follow it: children are found
in their order, and the walk without a stack finds all that is below a node, once and in preorder.
-/

namespace MarkupQuery

namespace Tree

/-- The nodes of the forest `xs` in preorder. -/
inductive Preorder (kids : NodeId → List NodeId) : List NodeId → List NodeId → Prop where
  | nil : Preorder kids [] []
  | cons {x : NodeId} {rest below after : List NodeId} (hbelow : Preorder kids (kids x) below)
      (hafter : Preorder kids rest after) : Preorder kids (x :: rest) (x :: below ++ after)

/-- The nodes that a link leads to one after another, to its end. -/
inductive Follows (t : Tree) (f : Node → Option NodeId) : Option NodeId → List NodeId → Prop where
  | stop : Follows t f none []
  | step {id : NodeId} {n : Node} {l : List NodeId} (hget : t.get? id = some n)
      (hrest : Follows t f (f n) l) : Follows t f (some id) (id :: l)

variable {t : Tree} {kids : NodeId → List NodeId}

/-! ## Chains -/

theorem chainUpTo_eq_of_follows {f : Node → Option NodeId} {start : Option NodeId}
    {l : List NodeId} (h : t.Follows f start l) {bound : Nat} (hbound : l.length ≤ bound) :
    t.chainUpTo f bound start = l := by
  induction h generalizing bound with
  | stop => cases bound <;> rfl
  | step hget _ ih =>
    obtain ⟨bound, rfl⟩ := Nat.exists_eq_succ_of_ne_zero (n := bound) (by
      rintro rfl
      simp at hbound)
    simp only [chainUpTo, hget]
    rw [ih (Nat.le_of_succ_le_succ hbound)]

theorem lt_size_of_follows {f : Node → Option NodeId} {start : Option NodeId} {l : List NodeId}
    (h : t.Follows f start l) {x : NodeId} (hx : x ∈ l) : x < t.size := by
  induction h with
  | stop => cases hx
  | step hget _ ih =>
    rcases List.mem_cons.1 hx with rfl | hx
    · exact lt_size_of_get? hget
    · exact ih hx

theorem length_le_size {l : List NodeId} (hnodup : l.Nodup) (hlt : ∀ x ∈ l, x < t.size) :
    l.length ≤ t.size := by
  have hsub : l ⊆ List.range t.size := fun x hx => List.mem_range.2 (hlt x hx)
  simpa using (List.subperm_of_subset hnodup hsub).length_le

theorem chain_eq_of_follows {f : Node → Option NodeId} {start : Option NodeId} {l : List NodeId}
    (h : t.Follows f start l) (hnodup : l.Nodup) : t.chain f start = l :=
  chainUpTo_eq_of_follows h (length_le_size hnodup fun _ => lt_size_of_follows h)

/-! ## Children -/

namespace Linked

theorem follows_nextSibling (h : t.Linked kids) {p : NodeId} {before xs : List NodeId}
    (hkids : kids p = before ++ xs) : t.Follows Node.nextSibling xs.head? xs := by
  induction xs generalizing before with
  | nil => exact .stop
  | cons x xs ih =>
    have hmem : x ∈ kids p := by simp [hkids]
    obtain ⟨n, hn⟩ := exists_get?_of_lt (h.lt_size hmem).2
    refine .step hn ?_
    rw [← link_of_get? (f := Node.nextSibling) hn, h.next hkids]
    have hkids' : kids p = (before ++ [x]) ++ xs := by simp [hkids]
    exact ih hkids'

theorem children_eq (h : t.Linked kids) (p : NodeId) : t.children p = kids p := by
  have hfollows : t.Follows Node.nextSibling (kids p).head? (kids p) :=
    h.follows_nextSibling (List.nil_append (kids p)).symm
  have hstart : (t.get? p).bind Node.firstChild = (kids p).head? := h.first p
  rw [children, hstart]
  exact chain_eq_of_follows hfollows (h.nodup p)

/-! ## Inside and below -/

theorem below_iff (h : t.Linked kids) {x y : NodeId} :
    t.Below x y ↔ ∃ c ∈ kids y, t.Inside x c := by
  constructor
  · intro hbelow
    obtain ⟨c, hinside, hup⟩ := Relation.TransGen.tail'_iff.1 hbelow
    exact ⟨c, h.up_iff.1 hup, hinside⟩
  · rintro ⟨c, hc, hinside⟩
    exact Relation.TransGen.tail' hinside (h.up_iff.2 hc)

theorem depth_le_of_inside (h : t.Linked kids) {depth : NodeId → Nat}
    (hdepth : ∀ p c, c ∈ kids p → depth p < depth c) {x y : NodeId} (hinside : t.Inside x y) :
    depth y ≤ depth x := by
  induction hinside with
  | refl => exact Nat.le_refl _
  | tail _ hup ih => exact Nat.le_of_lt (Nat.lt_of_lt_of_le (hdepth _ _ (h.up_iff.1 hup)) ih)

theorem not_below_self (h : t.Linked kids) (x : NodeId) : ¬ t.Below x x := by
  intro hbelow
  obtain ⟨depth, hdepth⟩ := h.depth
  obtain ⟨c, hc, hinside⟩ := h.below_iff.1 hbelow
  have hlt := hdepth _ _ hc
  have hle := h.depth_le_of_inside hdepth hinside
  omega

theorem up_rightUnique : Relator.RightUnique t.Up := by
  intro x p q hp hq
  rw [Up] at hp hq
  rw [hp] at hq
  exact Option.some.inj hq

/-- Two children of one node that hold the same node are one. -/
theorem eq_of_inside (h : t.Linked kids) {p x y z : NodeId} (hx : x ∈ kids p) (hy : y ∈ kids p)
    (hzx : t.Inside z x) (hzy : t.Inside z y) : x = y := by
  have hbelow {a b : NodeId} (ha : a ∈ kids p) (hb : b ∈ kids p) (hab : t.Inside a b) : a = b := by
    rcases Relation.ReflTransGen.cases_head hab with rfl | ⟨q, hq, hinside⟩
    · rfl
    · -- from `a` the way leads over `p` to `b`, which is a child of `p`
      obtain rfl := h.parent_unique (h.up_iff.1 hq) ha
      exact absurd (Relation.TransGen.head' (h.up_iff.2 hb) hinside) (h.not_below_self b)
  rcases Relation.ReflTransGen.total_of_right_unique up_rightUnique hzx hzy with hxy | hyx
  · exact hbelow hx hy hxy
  · exact (hbelow hy hx hyx).symm

end Linked

/-! ## Preorder of a forest -/

theorem Preorder.unique {xs l l' : List NodeId} (h : Preorder kids xs l)
    (h' : Preorder kids xs l') : l = l' := by
  induction h generalizing l' with
  | nil => cases h'; rfl
  | cons _ _ ihbelow ihafter =>
    cases h' with
    | cons hbelow hafter => rw [ihbelow hbelow, ihafter hafter]

theorem exists_bound (f : Nat → Nat) (n : Nat) : ∃ bound, ∀ x < n, f x ≤ bound := by
  induction n with
  | zero => exact ⟨0, by simp⟩
  | succ n ih =>
    obtain ⟨bound, hbound⟩ := ih
    refine ⟨max bound (f n), fun x hx => ?_⟩
    rcases Nat.lt_succ_iff_lt_or_eq.1 hx with hx | rfl
    · exact Nat.le_trans (hbound x hx) (Nat.le_max_left _ _)
    · exact Nat.le_max_right _ _

theorem Linked.exists_depth_le (h : t.Linked kids) : ∃ (depth : NodeId → Nat) (bound : Nat),
    (∀ p c, c ∈ kids p → depth p < depth c) ∧ ∀ p c, c ∈ kids p → depth c ≤ bound := by
  obtain ⟨depth, hdepth⟩ := h.depth
  obtain ⟨bound, hbound⟩ := exists_bound depth t.size
  exact ⟨depth, bound, hdepth, fun p c hc => hbound c (h.lt_size hc).2⟩

theorem Linked.exists_preorder (h : t.Linked kids) (xs : List NodeId) :
    ∃ l, Preorder kids xs l := by
  obtain ⟨depth, bound, hdepth, hbound⟩ := h.exists_depth_le
  have forest (xs : List NodeId) (hxs : ∀ x ∈ xs, ∃ l, Preorder kids (kids x) l) :
      ∃ l, Preorder kids xs l := by
    induction xs with
    | nil => exact ⟨[], .nil⟩
    | cons x xs ih =>
      obtain ⟨below, hbelow⟩ := hxs x (by simp)
      obtain ⟨after, hafter⟩ := ih fun y hy => hxs y (by simp [hy])
      exact ⟨_, .cons hbelow hafter⟩
  -- the induction is on how much deeper than `x` a node can be
  have single (k : Nat) : ∀ x, bound + 1 - depth x ≤ k → ∃ l, Preorder kids (kids x) l := by
    induction k with
    | zero =>
      intro x hk
      refine forest (kids x) fun c hc => ?_
      have := hdepth x c hc
      have := hbound x c hc
      omega
    | succ k ih =>
      intro x hk
      refine forest (kids x) fun c hc => ih c ?_
      have := hdepth x c hc
      have := hbound x c hc
      omega
  exact forest xs fun x _ => single _ x (Nat.le_refl _)

theorem Linked.mem_preorder (h : t.Linked kids) {xs l : List NodeId} (hl : Preorder kids xs l)
    {y : NodeId} : y ∈ l ↔ ∃ x ∈ xs, t.Inside y x := by
  induction hl with
  | nil => simp
  | @cons x rest below after _ _ ihbelow ihafter =>
    have hinside : t.Inside y x ↔ y = x ∨ ∃ c ∈ kids x, t.Inside y c := by
      rw [← h.below_iff, Inside, Relation.reflTransGen_iff_eq_or_transGen, eq_comm]
      rfl
    simp only [List.cons_append, List.mem_cons, List.mem_append, ihbelow, ihafter, exists_eq_or_imp,
      hinside, or_assoc]

theorem Linked.nodup_preorder (h : t.Linked kids) {xs l : List NodeId} (hl : Preorder kids xs l)
    {p : NodeId} (hxs : xs.Nodup) (hsub : ∀ x ∈ xs, x ∈ kids p) : l.Nodup := by
  induction hl generalizing p with
  | nil => exact .nil
  | @cons x rest below after hbelow hafter ihbelow ihafter =>
    obtain ⟨hx, hrest⟩ := List.nodup_cons.1 hxs
    have hsubrest : ∀ y ∈ rest, y ∈ kids p := fun y hy => hsub y (by simp [hy])
    have hapart {y : NodeId} (hy : t.Inside y x) : y ∉ after := by
      intro hmem
      obtain ⟨z, hz, hyz⟩ := (h.mem_preorder hafter).1 hmem
      exact hx (h.eq_of_inside (hsub x (by simp)) (hsubrest z hz) hy hyz ▸ hz)
    have hbelowx {y : NodeId} (hy : y ∈ below) : t.Below y x :=
      h.below_iff.2 ((h.mem_preorder hbelow).1 hy)
    refine List.nodup_cons.2 ⟨?_, List.nodup_append'.2 ⟨?_, ?_, ?_⟩⟩
    · refine mt List.mem_append.1 (not_or.2 ?_)
      exact ⟨fun hmem => h.not_below_self x (hbelowx hmem), hapart .refl⟩
    · exact ihbelow (h.nodup x) fun _ => id
    · exact ihafter hrest hsubrest
    · exact fun y hy => hapart (hbelowx hy).to_reflTransGen

/-! ## The walk without a stack -/

/-- The ancestors of a node, the nearest first, with the node in front: no two are the same. -/
theorem Linked.exists_ancestors (h : t.Linked kids) (x : NodeId) :
    ∃ l, t.Follows Node.parent (t.parent? x) l ∧ (x :: l).Nodup := by
  obtain ⟨depth, hdepth⟩ := h.depth
  have climb (k : Nat) : ∀ x, depth x ≤ k → ∃ l, t.Follows Node.parent (t.parent? x) l ∧
      (x :: l).Nodup ∧ ∀ y ∈ l, depth y < depth x := by
    induction k with
    | zero =>
      intro x hk
      refine ⟨[], ?_, by simp, by simp⟩
      cases hp : t.parent? x with
      | none => exact .stop
      | some p =>
        have := hdepth p x (h.parent.1 hp)
        omega
    | succ k ih =>
      intro x hk
      cases hp : t.parent? x with
      | none => exact ⟨[], .stop, by simp, by simp⟩
      | some p =>
        have hmem : x ∈ kids p := h.parent.1 hp
        have hlt := hdepth p x hmem
        obtain ⟨l, hl, hnodup, hdeeper⟩ := ih p (by omega)
        obtain ⟨n, hn⟩ := exists_get?_of_lt (h.lt_size hmem).1
        have hdeeper' : ∀ y ∈ p :: l, depth y < depth x := by
          intro y hy
          rcases List.mem_cons.1 hy with rfl | hy
          · exact hlt
          · exact Nat.lt_trans (hdeeper y hy) hlt
        refine ⟨p :: l, .step hn ?_, List.nodup_cons.2 ⟨fun hx => ?_, hnodup⟩, hdeeper'⟩
        · rwa [parent?_eq_link, link_of_get? hn] at hl
        · exact absurd (hdeeper' x hx) (Nat.lt_irrefl _)
  obtain ⟨l, hl, hnodup, -⟩ := climb _ x (Nat.le_refl _)
  exact ⟨l, hl, hnodup⟩

theorem Linked.follows_ancestors (h : t.Linked kids) (x : NodeId) :
    t.Follows Node.parent (t.parent? x) (t.ancestors x) := by
  obtain ⟨l, hl, hnodup⟩ := h.exists_ancestors x
  rwa [ancestors, chain_eq_of_follows hl (List.nodup_cons.1 hnodup).2]

/-- A child has one ancestor more than its parent. -/
theorem Linked.ancestors_eq_cons (h : t.Linked kids) {p c : NodeId} (hc : c ∈ kids p) :
    t.ancestors c = p :: t.ancestors p := by
  obtain ⟨l, hl, hnodup⟩ := h.exists_ancestors p
  obtain ⟨l', hl', hnodup'⟩ := h.exists_ancestors c
  obtain ⟨n, hn⟩ := exists_get?_of_lt (h.lt_size hc).1
  have hp : t.parent? c = some p := h.parent.2 hc
  rw [parent?_eq_link, link_of_get? hn] at hl
  have hstep : t.Follows Node.parent (t.parent? c) (p :: l) := hp ▸ .step hn hl
  rw [ancestors, chain_eq_of_follows hstep hnodup, ancestors, parent?_eq_link t p,
    link_of_get? hn, chain_eq_of_follows hl (List.nodup_cons.1 hnodup).2]

theorem Linked.length_ancestors_lt (h : t.Linked kids) {x : NodeId} (hx : x < t.size) :
    (t.ancestors x).length < t.size := by
  obtain ⟨l, hl, hnodup⟩ := h.exists_ancestors x
  rw [ancestors, chain_eq_of_follows hl (List.nodup_cons.1 hnodup).2]
  refine length_le_size (l := x :: l) hnodup fun y hy => ?_
  rcases List.mem_cons.1 hy with rfl | hy
  · exact hx
  · exact lt_size_of_follows hl hy

/-- The way up ends before its bound when it is greater than the number of ancestors. -/
theorem Linked.nextAbove_succ (h : t.Linked kids) (top : NodeId) {bound : Nat} {x : NodeId}
    {n : Node} (hn : t.get? x = some n) (hbound : (t.ancestors x).length < bound) :
    t.nextAbove top (bound + 1) n = t.nextAbove top bound n := by
  induction bound generalizing x n with
  | zero => omega
  | succ bound ih =>
    rw [nextAbove, nextAbove]
    cases n.nextSibling with
    | some next => rfl
    | none =>
      cases hp : n.parent with
      | none => rfl
      | some p =>
        have hmem : x ∈ kids p := h.parent.1 (by rw [link_of_get? hn, hp])
        obtain ⟨m, hm⟩ := exists_get?_of_lt (h.lt_size hmem).1
        rw [h.ancestors_eq_cons hmem, List.length_cons] at hbound
        simp only [Option.bind_some, hm, ih hm (by omega)]

/-- Where the walk below `top` goes on when it is done with what is below `x`. -/
def goesOn (t : Tree) (top x : NodeId) : Option NodeId :=
  (t.get? x).bind (t.nextAbove top t.size)

theorem Linked.goesOn_eq (h : t.Linked kids) (top : NodeId) {p x : NodeId}
    {before rest : List NodeId} (hkids : kids p = before ++ x :: rest) :
    t.goesOn top x = match rest with
      | next :: _ => some next
      | [] => if p = top then none else t.goesOn top p := by
  have hmem : x ∈ kids p := by simp [hkids]
  obtain ⟨hp, hx⟩ := h.lt_size hmem
  obtain ⟨n, hn⟩ := exists_get?_of_lt hx
  obtain ⟨m, hm⟩ := exists_get?_of_lt hp
  have hnext : n.nextSibling = rest.head? := by
    rw [← link_of_get? (f := Node.nextSibling) hn, h.next hkids]
  have hparent : n.parent = some p := by
    rw [← link_of_get? (f := Node.parent) hn, h.parent.2 hmem]
  obtain ⟨size, hsize⟩ := Nat.exists_eq_succ_of_ne_zero (n := t.size) (by
    rintro heq
    simp [heq] at hx)
  have hlevel := h.length_ancestors_lt hx
  rw [h.ancestors_eq_cons hmem, List.length_cons, hsize] at hlevel
  simp only [goesOn, hn, hm, Option.bind_some, hsize]
  rw [nextAbove, hnext, hparent]
  cases rest with
  | cons next rest => rfl
  | nil =>
    simp only [List.head?_nil, Option.some.injEq, Option.bind_some, hm,
      h.nextAbove_succ top hm (by omega : (t.ancestors p).length < size)]

/-- The walk below `top` visits sisters and what is below them in preorder, and then goes on as it
does above them. -/
theorem Linked.follows_nextBelow (h : t.Linked kids) {top : NodeId} {xs l : List NodeId}
    (hl : Preorder kids xs l) {p : NodeId} {before l' : List NodeId}
    (hkids : kids p = before ++ xs) (hne : xs ≠ []) (hp : t.Inside p top)
    (hrest : t.Follows (t.nextBelow top) (if p = top then none else t.goesOn top p) l') :
    t.Follows (t.nextBelow top) xs.head? (l ++ l') := by
  induction hl generalizing p before l' with
  | nil => contradiction
  | @cons x rest below after hbelow hafter ihbelow ihafter =>
    have hmem : x ∈ kids p := by simp [hkids]
    obtain ⟨n, hn⟩ := exists_get?_of_lt (h.lt_size hmem).2
    have hx : t.Inside x top := hp.head (h.up_iff.2 hmem)
    have hxne : x ≠ top := by
      rintro rfl
      exact h.not_below_self x (Relation.TransGen.head' (h.up_iff.2 hmem) hp)
    have hon : t.Follows (t.nextBelow top) (t.goesOn top x) (after ++ l') := by
      rw [h.goesOn_eq top hkids]
      cases rest with
      | nil =>
        cases hafter
        exact hrest
      | cons next rest =>
        have hkids' : kids p = (before ++ [x]) ++ next :: rest := by simp [hkids]
        exact ihafter hkids' (by simp) hp hrest
    have hfirst : n.firstChild = (kids x).head? := by
      rw [← link_of_get? (f := Node.firstChild) hn, h.first]
    rw [List.append_assoc, List.cons_append]
    refine .step hn ?_
    simp only [nextBelow, hfirst]
    cases hxs : kids x with
    | nil =>
      rw [hxs] at hbelow
      cases hbelow
      simpa [goesOn, hn] using hon
    | cons k ks =>
      have hwalk := ihbelow (List.nil_append (kids x)).symm (by simp [hxs]) hx
        (by simpa [hxne] using hon)
      rwa [hxs] at hwalk

theorem Linked.follows_of_preorder (h : t.Linked kids) {x : NodeId} {l : List NodeId}
    (hl : Preorder kids (kids x) l) :
    t.Follows (t.nextBelow x) ((t.get? x).bind Node.firstChild) l := by
  have hstart : (t.get? x).bind Node.firstChild = (kids x).head? := h.first x
  rw [hstart]
  cases hxs : kids x with
  | nil =>
    rw [hxs] at hl
    cases hl
    exact .stop
  | cons k ks =>
    have hrest : t.Follows (t.nextBelow x) (if x = x then none else t.goesOn x x) [] := by
      rw [if_pos rfl]
      exact .stop
    have hwalk := h.follows_nextBelow hl (List.nil_append (kids x)).symm (by simp [hxs]) .refl
      hrest
    simpa [hxs] using hwalk

theorem Linked.descendants_eq (h : t.Linked kids) {x : NodeId} {l : List NodeId}
    (hl : Preorder kids (kids x) l) : t.descendants x = l :=
  chain_eq_of_follows (h.follows_of_preorder hl) (h.nodup_preorder hl (h.nodup x) fun _ => id)

theorem Linked.preorder_descendants (h : t.Linked kids) (x : NodeId) :
    Preorder kids (kids x) (t.descendants x) := by
  obtain ⟨l, hl⟩ := h.exists_preorder (kids x)
  rwa [h.descendants_eq hl]

theorem Linked.follows_descendants (h : t.Linked kids) (x : NodeId) :
    t.Follows (t.nextBelow x) ((t.get? x).bind Node.firstChild) (t.descendants x) :=
  h.follows_of_preorder (h.preorder_descendants x)

theorem Linked.mem_descendants (h : t.Linked kids) {x y : NodeId} :
    y ∈ t.descendants x ↔ t.Below y x := by
  rw [h.mem_preorder (h.preorder_descendants x), h.below_iff]

theorem Linked.nodup_descendants (h : t.Linked kids) (x : NodeId) : (t.descendants x).Nodup :=
  h.nodup_preorder (h.preorder_descendants x) (h.nodup x) fun _ => id

theorem Built.linked_children (h : t.Built) : t.Linked t.children := by
  obtain ⟨kids, hkids⟩ := h.exists_linked
  have heq : t.children = kids := funext hkids.children_eq
  exact heq ▸ hkids

end Tree

end MarkupQuery
