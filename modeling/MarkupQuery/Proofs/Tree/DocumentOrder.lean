import MarkupQuery.Proofs.Tree.History

/-!
# Document order over a history

Ranks are kept in a tree from one question to the next and dropped when its shape changes.  Whatever
was done to a tree, an answer is the rank that the links give at that moment.  The ranks number the
nodes without gaps: the document is first, the nodes under it follow in preorder, and the detached
nodes come last in the order of their creation.
-/

namespace MarkupQuery

namespace Tree

/-- The detached nodes, in the order of their creation. -/
def detachedNodes (t : Tree) : List NodeId :=
  (List.range t.size).filter fun x => !decide (x ∈ root :: t.descendants root)

/-- The answers that a tree gives to questions for ranks put its nodes in document order. -/
structure AnswersInOrder (t : Tree) : Prop where
  /-- An answer is the rank that is computed from the links now. -/
  fresh (x : NodeId) : (t.askRank x).1 = t.rank? x ∧ t.rank? x = t.freshRanks[x]?
  permutation : ((List.range t.size).map t.rank?).Perm ((List.range t.size).map some)
  root : t.rank? root = some 0
  /-- The nodes below the document are numbered from one on, in preorder. -/
  numbered : ∃ order, Preorder t.children (t.children Tree.root) order ∧
    (∀ x, x ∈ order ↔ t.Below x Tree.root) ∧
    ∀ (i : Nat) (x : NodeId), order[i]? = some x → t.rank? x = some (i + 1)
  /-- Before a node under the document come those above it and those to the left of it. -/
  attached {x y : NodeId} (hx : t.Inside x Tree.root) :
    t.RankedBefore y x ↔ t.Below x y ∨ t.LeftOf y x
  /-- Before a detached node come all under the document and the detached ones made earlier. -/
  detached {x y : NodeId} (hx : x < t.size) (hdetached : ¬ t.Inside x Tree.root) :
    t.RankedBefore y x ↔ t.Inside y Tree.root ∨ y < x
  outside {x : NodeId} (hx : t.size ≤ x) : t.rank? x = none

/-! ## Places in lists -/

theorem map_idxOf_self {l : List NodeId} (hl : l.Nodup) : l.map l.idxOf = List.range l.length := by
  refine List.ext_getElem (by simp) fun i hi _ => ?_
  rw [List.length_map] at hi
  rw [List.getElem_map, List.getElem_range]
  exact hl.idxOf_getElem i hi

theorem idxOf_lt_idxOf_iff {l : List NodeId} (hl : l.Pairwise (· < ·)) {x y : NodeId} (hx : x ∈ l)
    (hy : y ∈ l) : l.idxOf y < l.idxOf x ↔ y < x := by
  have hlt {a b : NodeId} (ha : a ∈ l) (hb : b ∈ l) (hab : l.idxOf a < l.idxOf b) : a < b := by
    have hget := List.pairwise_iff_getElem.1 hl _ _ (List.idxOf_lt_length_iff.2 ha)
      (List.idxOf_lt_length_iff.2 hb) hab
    rwa [List.getElem_idxOf, List.getElem_idxOf] at hget
  constructor
  · exact hlt hy hx
  · intro hyx
    rcases Nat.lt_trichotomy (l.idxOf y) (l.idxOf x) with hidx | hidx | hidx
    · exact hidx
    · exact absurd ((List.idxOf_inj hy).1 hidx) (Nat.ne_of_lt hyx)
    · exact absurd (hlt hx hy hidx) (Nat.lt_asymm hyx)

/-! ## Ranks -/

variable {t : Tree} {kids : NodeId → List NodeId} {x y : NodeId}

theorem Linked.mem_attached (h : t.Linked kids) :
    x ∈ Tree.root :: t.descendants Tree.root ↔ t.Inside x Tree.root := by
  rw [List.mem_cons, h.mem_descendants, inside_iff]

theorem Assembled.perm_ranks (ht : t.Assembled) :
    ((List.range t.size).map t.rank?).Perm ((List.range t.size).map some) := by
  obtain ⟨kids, hkids⟩ := ht.exists_linked
  have horder : (List.range t.size).Perm t.documentOrder := by
    refine (List.perm_ext_iff_of_nodup List.nodup_range hkids.nodup_documentOrder).2 fun x => ?_
    rw [List.mem_range, hkids.mem_documentOrder ht.size_pos]
  have hranks : (List.range t.size).map t.rank? =
      ((List.range t.size).map t.documentOrder.idxOf).map some := by
    rw [List.map_map]
    exact List.map_congr_left fun x hx => ht.rank?_eq (List.mem_range.1 hx)
  have hlength : t.documentOrder.length = t.size := by
    rw [← horder.length_eq, List.length_range]
  rw [hranks]
  refine List.Perm.map some ?_
  calc (List.range t.size).map t.documentOrder.idxOf
    _ |>.Perm (t.documentOrder.map t.documentOrder.idxOf) := horder.map _
    _ = List.range t.size := by rw [map_idxOf_self hkids.nodup_documentOrder, hlength]

/-- The rank of a node is its place in document order. -/
theorem Assembled.rank?_eq_of_getElem? (ht : t.Assembled) {i : Nat}
    (hx : t.documentOrder[i]? = some x) : t.rank? x = some i := by
  obtain ⟨kids, hkids⟩ := ht.exists_linked
  obtain ⟨hi, rfl⟩ := List.getElem?_eq_some_iff.1 hx
  have hsize := (hkids.mem_documentOrder ht.size_pos).1 (List.getElem_mem hi)
  rw [ht.rank?_eq hsize, hkids.nodup_documentOrder.idxOf_getElem i hi]

theorem Linked.mem_detachedNodes (h : t.Linked kids) :
    x ∈ t.detachedNodes ↔ x < t.size ∧ ¬ t.Inside x Tree.root := by
  simp only [detachedNodes, List.mem_filter, List.mem_range, Bool.not_eq_true',
    decide_eq_false_iff_not, h.mem_attached]

theorem pairwise_detachedNodes (t : Tree) : t.detachedNodes.Pairwise (· < ·) :=
  List.pairwise_lt_range.filter _

/-- Detached nodes come behind all nodes under the document, in the order of their creation. -/
theorem Assembled.rankedBefore_detached (ht : t.Assembled) (hx : x < t.size)
    (hdetached : ¬ t.Inside x Tree.root) :
    t.RankedBefore y x ↔ t.Inside y Tree.root ∨ y < x := by
  obtain ⟨kids, hkids⟩ := ht.exists_linked
  have horder : t.documentOrder = (Tree.root :: t.descendants Tree.root) ++ t.detachedNodes :=
    documentOrder_eq t
  have hmem : x ∈ t.detachedNodes := hkids.mem_detachedNodes.2 ⟨hx, hdetached⟩
  rw [ht.rankedBefore_iff_idxOf_lt hx, horder,
    List.idxOf_append_of_notMem (mt hkids.mem_attached.1 hdetached)]
  by_cases hy : t.Inside y Tree.root
  · have hlt := List.idxOf_lt_length_iff.2 (hkids.mem_attached.2 hy)
    rw [List.idxOf_append_of_mem (hkids.mem_attached.2 hy)]
    exact ⟨fun _ => .inl hy, fun _ => by omega⟩
  · rw [List.idxOf_append_of_notMem (mt hkids.mem_attached.1 hy), Nat.add_lt_add_iff_left,
      or_iff_right hy]
    rcases Nat.lt_or_ge y t.size with hsize | hsize
    · have hmem' := hkids.mem_detachedNodes.2 ⟨hsize, hy⟩
      exact idxOf_lt_idxOf_iff (pairwise_detachedNodes t) hmem hmem'
    · -- a number without a node has the end of the list for its place
      have hnone : y ∉ t.detachedNodes :=
        fun hy => Nat.not_lt.2 hsize (hkids.mem_detachedNodes.1 hy).1
      have hle : t.detachedNodes.idxOf x ≤ t.detachedNodes.length := List.idxOf_le_length
      rw [List.idxOf_eq_length hnone]
      exact ⟨fun hlt => absurd hlt (Nat.not_lt.2 hle),
        fun hlt => absurd (Nat.lt_trans hlt hx) (Nat.not_lt.2 hsize)⟩

theorem Built.answersInOrder (ht : t.Built) : t.AnswersInOrder := by
  obtain ⟨kids, hkids⟩ := ht.exists_linked
  have hplace {i : Nat} {x : NodeId}
      (hx : (Tree.root :: t.descendants Tree.root)[i]? = some x) : t.rank? x = some i := by
    refine ht.assembled.rank?_eq_of_getElem? ?_
    rw [documentOrder_eq, List.getElem?_append_left (List.getElem?_eq_some_iff.1 hx).1, hx]
  constructor
  case fresh =>
    intro x
    rw [rank?, ht.assembled.currentRanks_eq]
    exact ⟨ht.assembled.currentRanks_eq ▸ askRank_fst t x, rfl⟩
  case permutation => exact ht.assembled.perm_ranks
  case root => exact hplace rfl
  case numbered =>
    refine ⟨t.descendants Tree.root, ?_, fun x => hkids.mem_descendants, fun i x hx => ?_⟩
    · have hchildren : t.children = kids := funext hkids.children_eq
      rw [hchildren]
      exact hkids.preorder_descendants Tree.root
    · exact hplace (i := i + 1) hx
  case attached => exact ht.rankedBefore_iff
  case detached => exact ht.assembled.rankedBefore_detached
  case outside => exact ht.assembled.rank?_eq_none

/-- After any operations, questions for ranks among them, the next answers are right. -/
theorem answersInOrder_performAll {operations : List Operation}
    (h : Tree.empty.PermitsAll operations) :
    (Tree.empty.performAll operations).AnswersInOrder :=
  (Built.empty.performAll h).answersInOrder

/-- A rank that was asked for and kept does not outlast the change that follows. -/
theorem answersInOrder_performAll_builtApart :
    Tree.empty.PermitsAll builtApart ∧ (Tree.empty.performAll builtApart).AnswersInOrder :=
  ⟨permitsAll_builtApart, answersInOrder_performAll permitsAll_builtApart⟩

end Tree

end MarkupQuery
