import MarkupQuery.Proofs.Tree.Ranks

/-!
# Where two nodes of a tree lie

Two nodes of one tree are the same, or one lies below the other, or one lies to the left of the
other: in the subtree of an earlier sister.  Exactly one of these holds.  In preorder a node comes
behind those above it and those to the left of it.
-/

namespace MarkupQuery

namespace Tree

/-- `a` and `b` are children of one node, and `a` is the earlier one. -/
def Elder (t : Tree) (a b : NodeId) : Prop :=
  ∃ p before after, t.children p = before ++ a :: after ∧ b ∈ after

/-- `x` lies in the subtree of a node and `y` in that of a later sister. -/
def LeftOf (t : Tree) (x y : NodeId) : Prop :=
  ∃ a b, t.Elder a b ∧ t.Inside x a ∧ t.Inside y b

/-- Nothing is above `top`, and `x` is inside it. -/
def HasTop (t : Tree) (x top : NodeId) : Prop := t.parent? top = none ∧ t.Inside x top

/-- The same node is at the top of the trees of `x` and `y`. -/
def SameTop (t : Tree) (x y : NodeId) : Prop := ∃ top, t.HasTop x top ∧ t.HasTop y top

/-- `x` comes before `y` in document order. -/
def RankedBefore (t : Tree) (x y : NodeId) : Prop :=
  ∃ i j, t.rank? x = some i ∧ t.rank? y = some j ∧ i < j

variable {t : Tree} {kids : NodeId → List NodeId} {x y z : NodeId}

/-! ## Up and down -/

theorem inside_iff : t.Inside x y ↔ x = y ∨ t.Below x y := by
  rw [Inside, Relation.reflTransGen_iff_eq_or_transGen, eq_comm]
  rfl

theorem inside_total (hy : t.Inside x y) (hz : t.Inside x z) : t.Inside y z ∨ t.Inside z y :=
  Relation.ReflTransGen.total_of_right_unique Linked.up_rightUnique hy hz

/-- A node above `x` lies inside the top of the tree of `x`. -/
theorem HasTop.inside {top : NodeId} (h : t.HasTop x top) (hz : t.Inside x z) : t.Inside z top := by
  rcases inside_total hz h.2 with hinside | hinside
  · exact hinside
  · rcases Relation.ReflTransGen.cases_head hinside with rfl | ⟨p, hup, -⟩
    · exact .refl
    · rw [Up, h.1] at hup
      cases hup

theorem HasTop.of_inside {top : NodeId} (h : t.HasTop x top) (hy : t.Inside y x) : t.HasTop y top :=
  ⟨h.1, hy.trans h.2⟩

theorem HasTop.unique {top top' : NodeId} (h : t.HasTop x top) (h' : t.HasTop x top') :
    top = top' := by
  rcases Relation.ReflTransGen.cases_head (h'.inside h.2) with rfl | ⟨p, hup, -⟩
  · rfl
  · rw [Up, h.1] at hup
    cases hup

theorem SameTop.symm (h : t.SameTop x y) : t.SameTop y x := by
  obtain ⟨top, hx, hy⟩ := h
  exact ⟨top, hy, hx⟩

theorem SameTop.hasTop {top : NodeId} (h : t.SameTop x y) (hx : t.HasTop x top) :
    t.HasTop y top := by
  obtain ⟨top', hx', hy⟩ := h
  exact hx.unique hx' ▸ hy

/-! ## Lists up to an element -/

section TakeWhile

variable {l l' : List NodeId}

theorem takeWhile_append_of_mem (hx : x ∈ l) :
    (l ++ l').takeWhile (· != x) = l.takeWhile (· != x) := by
  induction l with
  | nil => cases hx
  | cons a l ih =>
    by_cases ha : a = x
    · simp [ha]
    · have hx : x ∈ l := (List.mem_cons.1 hx).resolve_left (Ne.symm ha)
      simp [ha, ih hx]

theorem mem_takeWhile_or (hx : x ∈ l) (hy : y ∈ l) (hne : x ≠ y) :
    y ∈ l.takeWhile (· != x) ∨ x ∈ l.takeWhile (· != y) := by
  induction l with
  | nil => cases hx
  | cons a l ih =>
    by_cases hax : a = x
    · simp [hax, hne]
    · by_cases hay : a = y
      · simp [hay, Ne.symm hne]
      · have hx : x ∈ l := (List.mem_cons.1 hx).resolve_left (Ne.symm hax)
        have hy : y ∈ l := (List.mem_cons.1 hy).resolve_left (Ne.symm hay)
        simpa [hax, hay, Ne.symm hax, Ne.symm hay] using ih hx hy

theorem mem_takeWhile_iff_idxOf_lt (hx : x ∈ l) :
    y ∈ l.takeWhile (· != x) ↔ l.idxOf y < l.idxOf x := by
  induction l with
  | nil => cases hx
  | cons a l ih =>
    by_cases hax : a = x
    · simp [hax]
    · have hx : x ∈ l := (List.mem_cons.1 hx).resolve_left (Ne.symm hax)
      rw [List.takeWhile_cons_of_pos (p := (· != x)) (bne_iff_ne.2 hax), List.mem_cons, ih hx,
        List.idxOf_cons_ne _ hax]
      by_cases hay : a = y
      · simp [hay]
      · rw [List.idxOf_cons_ne _ hay]
        simp [Ne.symm hay]

end TakeWhile

namespace Linked

theorem exists_top (h : t.Linked kids) (x : NodeId) : ∃ top, t.HasTop x top := by
  obtain ⟨depth, hdepth⟩ := h.depth
  -- the induction is on how deep the node lies
  have climb (k : Nat) : ∀ x, depth x ≤ k → ∃ top, t.HasTop x top := by
    induction k with
    | zero =>
      intro x hk
      cases hp : t.parent? x with
      | none => exact ⟨x, hp, .refl⟩
      | some p =>
        have hlt := hdepth p x (h.parent.1 hp)
        omega
    | succ k ih =>
      intro x hk
      cases hp : t.parent? x with
      | none => exact ⟨x, hp, .refl⟩
      | some p =>
        have hlt := hdepth p x (h.parent.1 hp)
        obtain ⟨top, htop⟩ := ih p (by omega)
        exact ⟨top, htop.of_inside (.single hp)⟩
  exact climb _ x (Nat.le_refl _)

theorem sameTop_of_inside (h : t.Linked kids) (hxy : t.Inside x y) : t.SameTop x y := by
  obtain ⟨top, htop⟩ := h.exists_top y
  exact ⟨top, htop.of_inside hxy, htop⟩

/-! ## Left and right -/

theorem elder_iff (h : t.Linked kids) {a b : NodeId} :
    t.Elder a b ↔ ∃ p before after, kids p = before ++ a :: after ∧ b ∈ after := by
  simp only [Elder, h.children_eq]

theorem leftOf_of_kids (h : t.Linked kids) {p a b : NodeId} {before after : List NodeId}
    (hkids : kids p = before ++ a :: after) (hb : b ∈ after) (hx : t.Inside x a)
    (hy : t.Inside y b) : t.LeftOf x y :=
  ⟨a, b, h.elder_iff.2 ⟨p, before, after, hkids, hb⟩, hx, hy⟩

theorem not_elder_of_elder (h : t.Linked kids) {a b : NodeId} (hab : t.Elder a b) :
    a ≠ b ∧ ¬ t.Elder b a := by
  obtain ⟨p, before, after, hkids, hb⟩ := h.elder_iff.1 hab
  have hnodup := h.nodup p
  rw [hkids] at hnodup
  have ha : a ∉ after := (List.nodup_cons.1 (List.nodup_append.1 hnodup).2.1).1
  refine ⟨fun heq => ha (heq ▸ hb), fun hba => ?_⟩
  obtain ⟨p', before', after', hkids', ha'⟩ := h.elder_iff.1 hba
  obtain rfl : p = p' := h.parent_unique (c := a) (by simp [hkids]) (by simp [hkids', ha'])
  -- with `a` before `b` and `b` before `a`, one of them stands there twice
  rw [hkids, List.append_eq_append_iff] at hkids'
  rcases hkids' with ⟨between, rfl, heq⟩ | ⟨between, rfl, heq⟩
  · cases between with
    | nil => simp_all
    | cons c between => simp_all
  · cases between with
    | nil => simp_all
    | cons c between => simp_all [List.nodup_append]

/-- Nothing is inside two nodes of which one is to the left of the other. -/
theorem not_inside_of_leftOf (h : t.Linked kids) (hxy : t.LeftOf x y) (hx : t.Inside z x)
    (hy : t.Inside z y) : False := by
  obtain ⟨a, b, hab, hxa, hyb⟩ := hxy
  have hne := (h.not_elder_of_elder hab).1
  obtain ⟨p, before, after, hkids, hb⟩ := h.elder_iff.1 hab
  exact hne (h.eq_of_inside (p := p) (by simp [hkids]) (by simp [hkids, hb]) (hx.trans hxa)
    (hy.trans hyb))

theorem inside_antisymm (h : t.Linked kids) (hxy : t.Inside x y) (hyx : t.Inside y x) : x = y := by
  rcases inside_iff.1 hxy with rfl | hbelow
  · rfl
  · exact absurd (hbelow.trans_left hyx) (h.not_below_self x)

/-- The parent of two sisters is the lowest node that is above something inside each of them. -/
theorem inside_of_elder (h : t.Linked kids) {p q a b : NodeId} (ha : a ∈ kids p) (hb : b ∈ kids p)
    (hne : a ≠ b) (hxa : t.Inside x a) (hyb : t.Inside y b) (hxq : t.Inside x q)
    (hyq : t.Inside y q) : t.Inside p q := by
  rcases inside_total (hxa.tail (h.up_iff.2 ha)) hxq with hinside | hinside
  · exact hinside
  · rcases inside_iff.1 hinside with rfl | hbelow
    · exact .refl
    · obtain ⟨c, hc, hqc⟩ := h.below_iff.1 hbelow
      have hac : a = c := h.eq_of_inside ha hc hxa (hxq.trans hqc)
      have hbc : b = c := h.eq_of_inside hb hc hyb (hyq.trans hqc)
      exact absurd (hac.trans hbc.symm) hne

theorem below_asymm (h : t.Linked kids) (hxy : t.Below x y) : ¬ t.Below y x :=
  fun hyx => h.not_below_self x (hxy.trans hyx)

theorem not_below_of_leftOf (h : t.Linked kids) (hxy : t.LeftOf x y) :
    ¬ t.Below x y ∧ ¬ t.Below y x := by
  constructor
  · intro hbelow
    exact h.not_inside_of_leftOf hxy .refl hbelow.to_reflTransGen
  · intro hbelow
    exact h.not_inside_of_leftOf hxy hbelow.to_reflTransGen .refl

theorem not_leftOf_self (h : t.Linked kids) (x : NodeId) : ¬ t.LeftOf x x :=
  fun hleft => h.not_inside_of_leftOf hleft .refl .refl

theorem leftOf_asymm (h : t.Linked kids) (hxy : t.LeftOf x y) : ¬ t.LeftOf y x := by
  rintro ⟨c, d, hcd, hyc, hxd⟩
  obtain ⟨a, b, hab, hxa, hyb⟩ := hxy
  obtain ⟨p, _, _, hkids, hb⟩ := h.elder_iff.1 hab
  obtain ⟨q, _, _, hkids', hd⟩ := h.elder_iff.1 hcd
  have ha : a ∈ kids p := by simp [hkids]
  have hb : b ∈ kids p := by simp [hkids, hb]
  have hc : c ∈ kids q := by simp [hkids']
  have hd : d ∈ kids q := by simp [hkids', hd]
  have hpq : t.Inside p q := h.inside_of_elder ha hb (h.not_elder_of_elder hab).1 hxa hyb
    (hxd.tail (h.up_iff.2 hd)) (hyc.tail (h.up_iff.2 hc))
  have hqp : t.Inside q p := h.inside_of_elder hc hd (h.not_elder_of_elder hcd).1 hyc hxd
    (hyb.tail (h.up_iff.2 hb)) (hxa.tail (h.up_iff.2 ha))
  obtain rfl : p = q := h.inside_antisymm hpq hqp
  obtain rfl : a = d := h.eq_of_inside ha hd hxa hxd
  obtain rfl : b = c := h.eq_of_inside hb hc hyb hyc
  exact (h.not_elder_of_elder hab).2 hcd

theorem sameTop_of_leftOf (h : t.Linked kids) (hxy : t.LeftOf x y) : t.SameTop x y := by
  obtain ⟨a, b, hab, hxa, hyb⟩ := hxy
  obtain ⟨p, before, after, hkids, hb⟩ := h.elder_iff.1 hab
  have ha : t.Up a p := h.up_iff.2 (by simp [hkids])
  have hb : t.Up b p := h.up_iff.2 (by simp [hkids, hb])
  obtain ⟨top, htop⟩ := h.exists_top p
  exact ⟨top, htop.of_inside (hxa.tail ha), htop.of_inside (hyb.tail hb)⟩

/-! ## Places in preorder -/

/-- What comes before a node in preorder is above it or to the left of it. -/
theorem of_mem_takeWhile (h : t.Linked kids) {xs l : List NodeId} (hl : Preorder kids xs l)
    {p : NodeId} {before : List NodeId} (hkids : kids p = before ++ xs) (hx : x ∈ l)
    (hy : y ∈ l.takeWhile (· != x)) : t.Below x y ∨ t.LeftOf y x := by
  induction hl generalizing p before with
  | nil => cases hx
  | @cons z rest below after hbelow hafter ihbelow ihafter =>
    have hkids' : kids p = (before ++ [z]) ++ rest := by simp [hkids]
    have hbelowz {w : NodeId} (hw : w ∈ below) : t.Below w z :=
      h.below_iff.2 ((h.mem_preorder hbelow).1 hw)
    by_cases hzx : z = x
    · simp [hzx] at hy
    · have hne : (z != x) = true := by simpa using hzx
      rw [List.cons_append, List.takeWhile_cons_of_pos (p := (· != x)) hne, List.mem_cons] at hy
      rw [List.cons_append, List.mem_cons, List.mem_append] at hx
      by_cases hxbelow : x ∈ below
      · rcases hy with rfl | hy
        · exact .inl (hbelowz hxbelow)
        · refine ihbelow (List.nil_append _).symm hxbelow ?_
          rwa [takeWhile_append_of_mem hxbelow] at hy
      · have hxafter : x ∈ after := (hx.resolve_left (Ne.symm hzx)).resolve_left hxbelow
        obtain ⟨b, hb, hxb⟩ := (h.mem_preorder hafter).1 hxafter
        have hpass : ∀ w ∈ below, (w != x) = true := by
          intro w hw
          exact bne_iff_ne.2 fun heq => hxbelow (heq ▸ hw)
        rw [List.takeWhile_append_of_pos hpass, List.mem_append, ← or_assoc] at hy
        rcases hy with hy | hy
        · have hyz : t.Inside y z := inside_iff.2 (hy.imp_right hbelowz)
          exact .inr (h.leftOf_of_kids hkids hb hyz hxb)
        · exact ihafter hkids' hxafter hy

/-! ## Exactly one place -/

theorem sameTop_cases (h : t.Linked kids) (hxy : t.SameTop x y) :
    x = y ∨ t.Below x y ∨ t.Below y x ∨ t.LeftOf x y ∨ t.LeftOf y x := by
  obtain ⟨top, ⟨-, hx⟩, ⟨-, hy⟩⟩ := hxy
  rcases inside_iff.1 hx with rfl | hx
  · rcases inside_iff.1 hy with rfl | hy
    · exact .inl rfl
    · exact .inr (.inr (.inl hy))
  · rcases inside_iff.1 hy with rfl | hy
    · exact .inr (.inl hx)
    · by_cases hne : x = y
      · exact .inl hne
      · have hpreorder := h.preorder_descendants top
        have hkids : kids top = [] ++ kids top := rfl
        rw [← h.mem_descendants] at hx hy
        rcases mem_takeWhile_or hx hy hne with hmem | hmem
        · rcases h.of_mem_takeWhile hpreorder hkids hx hmem with hplace | hplace <;> simp [hplace]
        · rcases h.of_mem_takeWhile hpreorder hkids hy hmem with hplace | hplace <;> simp [hplace]

/-- A node comes before another in preorder when it is above it or to the left of it. -/
theorem mem_takeWhile_descendants (h : t.Linked kids) {top : NodeId} (hx : t.Below x top) :
    y ∈ (t.descendants top).takeWhile (· != x) ↔
      t.Below y top ∧ (t.Below x y ∨ t.LeftOf y x) := by
  have hpreorder := h.preorder_descendants top
  have hkids : kids top = [] ++ kids top := rfl
  have hx := h.mem_descendants.2 hx
  constructor
  · intro hy
    refine ⟨h.mem_descendants.1 ((List.takeWhile_prefix _).subset hy), ?_⟩
    exact h.of_mem_takeWhile hpreorder hkids hx hy
  · rintro ⟨hy, hplace⟩
    have hy := h.mem_descendants.2 hy
    have hne : x ≠ y := by
      rintro rfl
      exact hplace.elim (h.not_below_self x) (h.not_leftOf_self x)
    refine (mem_takeWhile_or hx hy hne).resolve_right fun hmem => ?_
    rcases h.of_mem_takeWhile hpreorder hkids hy hmem with hbelow | hleft
    · exact hplace.elim (h.below_asymm hbelow) fun hleft => (h.not_below_of_leftOf hleft).1 hbelow
    · exact hplace.elim (h.not_below_of_leftOf hleft).1 (h.leftOf_asymm hleft)

/-! ## Chains of links -/

theorem mem_iff_of_follows_parent {start : Option NodeId} {l : List NodeId}
    (hl : t.Follows Node.parent start l) : y ∈ l ↔ ∃ p, start = some p ∧ t.Inside p y := by
  induction hl with
  | stop => simp
  | @step id n l hget _ ih =>
    have hparent : n.parent = t.parent? id := by rw [parent?, hget, Option.bind_some]
    rw [List.mem_cons, ih, hparent]
    simp only [Option.some.injEq, exists_eq_left']
    rw [Inside, Relation.ReflTransGen.cases_head_iff, eq_comm]
    rfl

theorem mem_ancestors (h : t.Linked kids) : y ∈ t.ancestors x ↔ t.Below x y := by
  rw [mem_iff_of_follows_parent (h.follows_ancestors x), Below, Relation.TransGen.head'_iff]
  rfl

theorem chain_nextSibling (h : t.Linked kids) {p : NodeId} {before after : List NodeId}
    (hkids : kids p = before ++ x :: after) :
    t.chain Node.nextSibling (t.link Node.nextSibling x) = after := by
  have hkids' : kids p = (before ++ [x]) ++ after := by simp [hkids]
  have hnodup := h.nodup p
  rw [hkids', List.nodup_append] at hnodup
  rw [h.next hkids]
  exact chain_eq_of_follows (h.follows_nextSibling hkids') hnodup.2.1

theorem mem_followingSiblings (h : t.Linked kids) : y ∈ t.followingSiblings x ↔ t.Elder x y := by
  have hstart : (t.get? x).bind Node.nextSibling = t.link Node.nextSibling x := rfl
  rw [followingSiblings, hstart, h.elder_iff]
  constructor
  · intro hy
    cases hp : t.link Node.parent x with
    | none =>
      rw [(h.alone hp).1, chain_eq_of_follows .stop .nil] at hy
      cases hy
    | some p =>
      obtain ⟨before, after, hkids⟩ := List.append_of_mem (h.parent.1 hp)
      rw [h.chain_nextSibling hkids] at hy
      exact ⟨p, before, after, hkids, hy⟩
  · rintro ⟨p, before, after, hkids, hy⟩
    rwa [h.chain_nextSibling hkids]

end Linked

/-! ## Places in document order -/

theorem Built.hasTop_root (ht : t.Built) (hx : t.Inside x root) : t.HasTop x root :=
  ⟨ht.parent?_root, hx⟩

theorem not_below_of_parent?_eq_none (h : t.parent? x = none) : ¬ t.Below x y := by
  intro hbelow
  obtain ⟨p, hup, -⟩ := Relation.TransGen.head'_iff.1 hbelow
  rw [Up, h] at hup
  cases hup

theorem Linked.not_leftOf_of_parent?_eq_none (h : t.Linked kids) (hx : t.parent? x = none) :
    ¬ t.LeftOf y x := by
  rintro ⟨a, b, helder, -, hinside⟩
  obtain ⟨p, before, after, hkids, hb⟩ := h.elder_iff.1 helder
  have hup : t.Up b p := h.up_iff.2 (by simp [hkids, hb])
  exact not_below_of_parent?_eq_none hx (Relation.TransGen.tail' hinside hup)

theorem Built.not_below_root (ht : t.Built) : ¬ t.Below root x :=
  not_below_of_parent?_eq_none ht.parent?_root

theorem SameTop.inside_root (ht : t.Built) (h : t.SameTop x y) (hx : t.Inside x root) :
    t.Inside y root :=
  (h.hasTop (ht.hasTop_root hx)).2

theorem Assembled.rankedBefore_iff_idxOf_lt (ht : t.Assembled) (hx : x < t.size) :
    t.RankedBefore y x ↔ t.documentOrder.idxOf y < t.documentOrder.idxOf x := by
  rw [RankedBefore, ht.rank?_eq hx]
  constructor
  · rintro ⟨i, j, hi, hj, hlt⟩
    rcases Nat.lt_or_ge y t.size with hy | hy
    · rw [ht.rank?_eq hy] at hi
      cases hi
      cases hj
      exact hlt
    · rw [ht.rank?_eq_none hy] at hi
      cases hi
  · intro hlt
    obtain ⟨kids, hkids⟩ := ht.exists_linked
    have hmem : y ∈ t.documentOrder :=
      List.idxOf_lt_length_iff.1 (Nat.lt_of_lt_of_le hlt List.idxOf_le_length)
    exact ⟨_, _, ht.rank?_eq ((hkids.mem_documentOrder ht.size_pos).1 hmem), rfl, hlt⟩

/-- Under the document a node comes before another when it is above it or to the left of it. -/
theorem Assembled.rankedBefore_iff (ht : t.Assembled) (hx : t.HasTop x root) :
    t.RankedBefore y x ↔ t.Below x y ∨ t.LeftOf y x := by
  obtain ⟨kids, hkids⟩ := ht.exists_linked
  have hmem : x ∈ root :: t.descendants root :=
    List.mem_cons.2 ((inside_iff.1 hx.2).imp_right hkids.mem_descendants.2)
  have horder : x ∈ t.documentOrder := by
    rw [documentOrder_eq]
    exact List.mem_append_left _ hmem
  have hsize : x < t.size := (hkids.mem_documentOrder ht.size_pos).1 horder
  rw [ht.rankedBefore_iff_idxOf_lt hsize, ← mem_takeWhile_iff_idxOf_lt horder,
    documentOrder_eq, takeWhile_append_of_mem hmem]
  rcases inside_iff.1 hx.2 with rfl | hbelow
  · simp [not_below_of_parent?_eq_none hx.1, hkids.not_leftOf_of_parent?_eq_none hx.1]
  · have hne : root ≠ x := fun heq => hkids.not_below_self x (heq ▸ hbelow)
    rw [List.takeWhile_cons_of_pos (p := (· != x)) (bne_iff_ne.2 hne), List.mem_cons,
      hkids.mem_takeWhile_descendants hbelow]
    constructor
    · rintro (rfl | ⟨-, hplace⟩)
      · exact .inl hbelow
      · exact hplace
    · intro hplace
      have hy : t.Inside y root := by
        rcases hplace with habove | hleft
        · exact hx.inside habove.to_reflTransGen
        · exact ((hkids.sameTop_of_leftOf hleft).symm.hasTop hx).2
      exact (inside_iff.1 hy).imp_right fun hy => ⟨hy, hplace⟩

theorem Built.rankedBefore_iff (ht : t.Built) (hx : t.Inside x root) :
    t.RankedBefore y x ↔ t.Below x y ∨ t.LeftOf y x :=
  ht.assembled.rankedBefore_iff (ht.hasTop_root hx)

end Tree

end MarkupQuery
