import Mathlib.Data.List.Perm.Basic
import MarkupQuery.Proofs.Tree.Preorder

/-!
# Ranks

The rank of a node is its place in document order.  Document order names every node once, and the
ranks that a tree keeps are always those that its links give.
-/

namespace MarkupQuery

namespace Tree

variable {t t' : Tree} {kids : NodeId → List NodeId}

/-! ## The document node -/

theorem Assembled.size_pos (h : t.Assembled) : 0 < t.size := by
  refine h.of_changes (P := fun t => 0 < t.size) Nat.one_pos ?_ ?_ ?_ ?_ ?_
  · exact fun t name ht => ht
  · intro t content _ ht
    rw [size_push]
    exact Nat.succ_pos _
  · intro t element name value ht
    rwa [size_setAttribute]
  · intro t parent child ht _ _ _ _ _
    rwa [size_appendChild]
  · exact fun t ht => ht

theorem Built.size_pos (h : t.Built) : 0 < t.size := h.assembled.size_pos

theorem parent?_push (content : Content) (id : NodeId) :
    (t.push content).2.parent? id = t.parent? id := by
  rw [parent?, get?_push]
  split
  · rename_i hid
    rw [parent?, get?_eq_none_iff.2 (Nat.le_of_eq hid.symm)]
    rfl
  · rfl

theorem parent?_setAttribute (element : NodeId) (name value : String) (id : NodeId) :
    (t.setAttribute element name value).parent? id = t.parent? id := by
  simp only [parent?, get?_setAttribute]
  split
  · cases t.get? id with
    | none => rfl
    | some n =>
      rw [Option.map_some, Option.bind_some, Option.bind_some, setAttribute_eq]
  · rfl

theorem parent?_appendChild_of_ne {parent child id : NodeId} (hne : id ≠ child) :
    (t.appendChild parent child).parent? id = t.parent? id := by
  by_cases hself : parent = child ∨ t.size ≤ parent ∨ t.size ≤ child
  · rw [appendChild_eq_self hself]
  · simp only [not_or, Nat.not_le] at hself
    obtain ⟨hchild, hp, hc⟩ := hself
    rw [parent?_eq_link, Linked.parent_appendChild hchild hp hc, if_neg hne.symm]
    rfl

theorem Built.parent?_root (h : t.Built) : t.parent? root = none := by
  induction h with
  | empty => rfl
  | createElement _ _ ih => exact (parent?_push _ root).trans ih
  | createText _ _ ih => exact (parent?_push _ root).trans ih
  | createComment _ _ ih => exact (parent?_push _ root).trans ih
  | createDoctype _ _ _ _ ih => exact (parent?_push _ root).trans ih
  | createInstruction _ _ _ ih => exact (parent?_push _ root).trans ih
  | setAttribute _ element name value ih => exact (parent?_setAttribute ..).trans ih
  | appendChild _ _ hroot _ ih => exact (parent?_appendChild_of_ne hroot.symm).trans ih
  | rankNodes _ ih => exact ih

/-! ## New nodes -/

/-- A node that has been made and no more: nothing is above it or below it. -/
structure Fresh (t : Tree) (child : NodeId) : Prop where
  ne_root : child ≠ root
  parent : t.parent? child = none
  alone (x : NodeId) : ¬ t.Up x child

theorem Linked.fresh_push (h : t.Linked kids) (hpos : 0 < t.size) (content : Content) :
    (t.push content).2.Fresh t.size where
  ne_root := Nat.ne_of_gt hpos
  parent := by
    rw [parent?, get?_push, if_pos rfl]
    rfl
  alone x := by
    intro hup
    rw [Up, parent?, get?_push] at hup
    split at hup
    · cases hup
    · exact absurd (h.lt_size (h.up_iff.1 hup)).1 (Nat.lt_irrefl _)

theorem Fresh.not_below {child : NodeId} (h : t.Fresh child) (x : NodeId) : ¬ t.Below x child := by
  intro hbelow
  obtain ⟨c, -, hup⟩ := Relation.TransGen.tail'_iff.1 hbelow
  exact h.alone c hup

/-- A node that has just been made can be attached anywhere. -/
theorem Built.attach (h : t.Built) {child : NodeId} (hchild : t.Fresh child) (parent : NodeId) :
    (t.appendChild parent child).Built :=
  h.appendChild hchild.parent hchild.ne_root (hchild.not_below parent)

theorem Built.appendText (h : t.Built) (value : String) (parent : NodeId) :
    ((t.createText value).2.appendChild parent t.size).Built := by
  obtain ⟨kids, hkids⟩ := h.exists_linked
  exact (h.createText value).attach (hkids.fresh_push h.size_pos _) parent

/-! ## Document order -/

theorem getD_marks (l : List NodeId) (marks : Array Bool) {x : NodeId} (hx : x < marks.size) :
    (l.foldl (fun marks id => marks.setIfInBounds id true) marks).getD x false =
      (decide (x ∈ l) || marks.getD x false) := by
  induction l generalizing marks with
  | nil => simp
  | cons y l ih =>
    rw [List.foldl_cons, ih _ (by simpa using hx)]
    by_cases hxy : x = y
    · subst hxy
      simp [Array.getD_eq_getD_getElem?, hx]
    · simp [Array.getD_eq_getD_getElem?, hxy, Ne.symm hxy]

/-- The nodes under the document come first, then the others by number. -/
theorem documentOrder_eq (t : Tree) : t.documentOrder =
    (root :: t.descendants root) ++
      (List.range t.size).filter fun x => !decide (x ∈ root :: t.descendants root) := by
  rw [documentOrder]
  congr 1
  refine List.filter_congr fun x hx => ?_
  rw [getD_marks _ _ (by simpa using hx)]
  simp [Array.getD_eq_getD_getElem?, List.mem_range.1 hx]

theorem Linked.nodup_documentOrder (h : t.Linked kids) : t.documentOrder.Nodup := by
  rw [documentOrder_eq]
  refine List.nodup_append'.2 ⟨List.nodup_cons.2 ⟨?_, h.nodup_descendants root⟩, ?_, ?_⟩
  · exact mt h.mem_descendants.1 (h.not_below_self root)
  · exact List.nodup_range.filter _
  · intro x hx hx'
    exact absurd hx (by simpa using (List.mem_filter.1 hx').2)

theorem Linked.lt_size_of_below (h : t.Linked kids) {x y : NodeId} (hbelow : t.Below x y) :
    x < t.size ∧ y < t.size := by
  obtain ⟨p, hp, -⟩ := Relation.TransGen.head'_iff.1 hbelow
  obtain ⟨c, hc, hup⟩ := Relation.TransGen.tail'_iff.1 hbelow
  exact ⟨(h.lt_size (h.up_iff.1 hp)).2, (h.lt_size (h.up_iff.1 hup)).1⟩

theorem Linked.mem_documentOrder (h : t.Linked kids) (hpos : 0 < t.size) {x : NodeId} :
    x ∈ t.documentOrder ↔ x < t.size := by
  have hattached : x ∈ root :: t.descendants root → x < t.size := by
    intro hx
    rcases List.mem_cons.1 hx with rfl | hx
    · exact hpos
    · exact (h.lt_size_of_below (h.mem_descendants.1 hx)).1
  rw [documentOrder_eq, List.mem_append, List.mem_filter, List.mem_range]
  by_cases hx : x ∈ root :: t.descendants root
  · exact ⟨fun _ => hattached hx, fun _ => .inl hx⟩
  · simp [hx]

/-- Document order depends on nothing but the lists of children and the number of nodes. -/
theorem Linked.documentOrder_congr (h : t.Linked kids) (h' : t'.Linked kids)
    (hsize : t'.size = t.size) : t'.documentOrder = t.documentOrder := by
  rw [documentOrder_eq, documentOrder_eq, hsize,
    (h'.preorder_descendants root).unique (h.preorder_descendants root)]

/-! ## Ranks -/

/-- What a table holds after the numbers from `k` on are written at the places in a list. -/
theorem getElem?_ranks {l : List NodeId} (hl : l.Nodup) (k : Nat) (ranks : Array Nat) {x : NodeId}
    (hx : x < ranks.size) :
    ((l.zipIdx k).foldl (fun ranks entry => ranks.setIfInBounds entry.1 entry.2) ranks)[x]? =
      if x ∈ l then some (k + l.idxOf x) else ranks[x]? := by
  induction l generalizing k ranks with
  | nil => simp
  | cons y l ih =>
    obtain ⟨hy, hl⟩ := List.nodup_cons.1 hl
    rw [List.zipIdx_cons, List.foldl_cons, ih hl _ _ (by simpa using hx)]
    by_cases hxy : x = y
    · subst hxy
      simp [hy, hx]
    · have hidx : (y :: l).idxOf x = l.idxOf x + 1 := List.idxOf_cons_ne l (Ne.symm hxy)
      rw [hidx, Array.getElem?_setIfInBounds_ne (Ne.symm hxy)]
      simp only [List.mem_cons, hxy, false_or, Nat.add_assoc, Nat.add_comm 1]

theorem size_freshRanks (t : Tree) : t.freshRanks.size = t.size := by
  have hsize (l : List (NodeId × Nat)) (ranks : Array Nat) :
      (l.foldl (fun ranks entry => ranks.setIfInBounds entry.1 entry.2) ranks).size =
        ranks.size := by
    induction l generalizing ranks with
    | nil => rfl
    | cons entry l ih => rw [List.foldl_cons, ih, Array.size_setIfInBounds]
  rw [freshRanks, hsize, Array.size_replicate]

theorem Linked.getElem?_freshRanks (h : t.Linked kids) {x : NodeId} (hx : x < t.size) :
    t.freshRanks[x]? = some (t.documentOrder.idxOf x) := by
  have hmem := (h.mem_documentOrder (Nat.lt_of_le_of_lt (Nat.zero_le _) hx)).2 hx
  rw [freshRanks, getElem?_ranks h.nodup_documentOrder _ _ (by simpa using hx), if_pos hmem,
    Nat.zero_add]

theorem Linked.freshRanks_congr (h : t.Linked kids) (h' : t'.Linked kids)
    (hsize : t'.size = t.size) : t'.freshRanks = t.freshRanks := by
  rw [freshRanks, freshRanks, h.documentOrder_congr h' hsize, hsize]

/-- The ranks that are kept, if any, are those that the links give. -/
def RanksCurrent (t : Tree) : Prop := ∀ ranks, t.ranks = some ranks → ranks = t.freshRanks

theorem ranks_appendChild {parent child : NodeId} (hne : parent ≠ child) (hp : parent < t.size)
    (hc : child < t.size) : (t.appendChild parent child).ranks = none := by
  obtain ⟨p, hp⟩ := exists_get?_of_lt hp
  obtain ⟨c, hc⟩ := exists_get?_of_lt hc
  simp only [appendChild, hne, ↓reduceIte, hp, hc]

theorem RanksCurrent.currentRanks_eq (h : t.RanksCurrent) : t.currentRanks = t.freshRanks := by
  unfold currentRanks
  cases hranks : t.ranks with
  | none => rfl
  | some ranks => exact h ranks hranks

theorem Assembled.ranksCurrent (h : t.Assembled) : t.RanksCurrent := by
  have hkept : (∃ kids, t.Linked kids) ∧ t.RanksCurrent := by
    refine h.of_changes (P := fun t => (∃ kids, t.Linked kids) ∧ t.RanksCurrent)
      ⟨⟨_, linked_empty⟩, fun _ hranks => nomatch hranks⟩ ?_ ?_ ?_ ?_ ?_
    · intro t name ⟨⟨kids, hkids⟩, hcurrent⟩
      refine ⟨⟨kids, hkids.intern name⟩, fun ranks hranks => ?_⟩
      rw [hkids.freshRanks_congr (hkids.intern name) rfl]
      exact hcurrent ranks hranks
    · intro t content _ ⟨⟨kids, hkids⟩, _⟩
      exact ⟨⟨kids, hkids.push content⟩, fun _ hranks => nomatch hranks⟩
    · intro t element name value ⟨⟨kids, hkids⟩, hcurrent⟩
      have hset := hkids.setAttribute element name value
      refine ⟨⟨kids, hset⟩, fun ranks hranks => ?_⟩
      rw [hkids.freshRanks_congr hset (size_setAttribute ..)]
      exact hcurrent ranks hranks
    · intro t parent child ⟨⟨kids, hkids⟩, _⟩ hdetached hne hp hc hacyclic
      refine ⟨⟨_, hkids.appendChild hp hc hdetached hne hacyclic⟩, fun ranks hranks => ?_⟩
      rw [ranks_appendChild hne hp hc] at hranks
      cases hranks
    · intro t ⟨⟨kids, hkids⟩, hcurrent⟩
      refine ⟨⟨kids, hkids.rankNodes⟩, fun ranks hranks => ?_⟩
      rw [hkids.freshRanks_congr hkids.rankNodes rfl, ← hcurrent.currentRanks_eq]
      exact (Option.some.inj hranks).symm
  exact hkept.2

theorem Assembled.currentRanks_eq (h : t.Assembled) : t.currentRanks = t.freshRanks :=
  h.ranksCurrent.currentRanks_eq

theorem Assembled.rank?_eq (h : t.Assembled) {x : NodeId} (hx : x < t.size) :
    t.rank? x = some (t.documentOrder.idxOf x) := by
  obtain ⟨kids, hkids⟩ := h.exists_linked
  rw [rank?, h.currentRanks_eq, hkids.getElem?_freshRanks hx]

theorem Assembled.rank?_eq_none (h : t.Assembled) {x : NodeId} (hx : t.size ≤ x) :
    t.rank? x = none := by
  rw [rank?, h.currentRanks_eq, Array.getElem?_eq_none_iff, size_freshRanks]
  exact hx

/-! ## Lists in document order -/

theorem sublist_of_pairwise_idxOf {α : Type} [DecidableEq α] {l order : List α}
    (hmem : ∀ x ∈ l, x ∈ order)
    (hpairs : l.Pairwise fun x y => order.idxOf x < order.idxOf y) : l.Sublist order := by
  induction order generalizing l with
  | nil =>
    have hnil : l = [] := List.eq_nil_iff_forall_not_mem.2 fun x hx => by simpa using hmem x hx
    rw [hnil]
  | cons a order ih =>
    -- behind the first place the places are those in the rest
    have hbehind {l' : List α} (hsub : l'.Sublist l) (hne : ∀ x ∈ l', x ≠ a) :
        l'.Sublist order := by
      refine ih (fun x hx => ?_) ((hpairs.sublist hsub).imp_of_mem fun {x y} hx hy hxy => ?_)
      · exact (List.mem_cons.1 (hmem x (hsub.subset hx))).resolve_left (hne x hx)
      · rw [List.idxOf_cons_ne _ (hne x hx).symm, List.idxOf_cons_ne _ (hne y hy).symm] at hxy
        exact Nat.lt_of_succ_lt_succ hxy
    cases l with
    | nil => exact List.nil_sublist _
    | cons x l =>
      have hlater : ∀ y ∈ l, y ≠ a := by
        intro y hy heq
        have hlt := (List.pairwise_cons.1 hpairs).1 y hy
        rw [heq, List.idxOf_cons_self] at hlt
        exact Nat.not_lt_zero _ hlt
      by_cases hx : x = a
      · rw [hx]
        exact (hbehind (List.sublist_cons_self x l) hlater).cons_cons a
      · refine (hbehind (List.Sublist.refl _) fun y hy => ?_).cons a
        rcases List.mem_cons.1 hy with rfl | hy
        · exact hx
        · exact hlater y hy

/-- A part of a list, in its order, is what a filter by membership leaves of the list. -/
theorem eq_filter_of_sublist {α : Type} [DecidableEq α] {l part : List α} (hl : l.Nodup)
    (h : part.Sublist l) : part = l.filter (· ∈ part) := by
  have hpart : part.filter (· ∈ part) = part :=
    List.filter_eq_self.2 fun x hx => by simpa using hx
  have hsub : (part.filter (· ∈ part)).Sublist (l.filter (· ∈ part)) := h.filter _
  have hperm : part.Perm (l.filter (· ∈ part)) := by
    refine (List.perm_ext_iff_of_nodup (hl.sublist h) (hl.filter _)).2 fun x => ?_
    rw [List.mem_filter, decide_eq_true_iff]
    exact ⟨fun hx => ⟨h.subset hx, hx⟩, And.right⟩
  rw [hpart] at hsub
  exact hsub.eq_of_length hperm.length_eq

theorem Linked.preorder_root (h : t.Linked kids) :
    Preorder t.children [root] (root :: t.descendants root) := by
  have hkids : t.children = kids := funext h.children_eq
  have hcons := Preorder.cons (h.preorder_descendants root) Preorder.nil
  rwa [List.append_nil, ← hkids] at hcons

/-- Nodes under the document are in document order when their places are. -/
theorem sublist_descendants_of_pairwise {l : List NodeId}
    (hmem : ∀ x ∈ l, x ∈ root :: t.descendants root)
    (hpairs : l.Pairwise fun x y => t.documentOrder.idxOf x < t.documentOrder.idxOf y) :
    l.Sublist (root :: t.descendants root) := by
  refine sublist_of_pairwise_idxOf hmem (hpairs.imp_of_mem fun {x y} hx hy hxy => ?_)
  rwa [documentOrder_eq, List.idxOf_append_of_mem (hmem x hx),
    List.idxOf_append_of_mem (hmem y hy)] at hxy

end Tree

end MarkupQuery
