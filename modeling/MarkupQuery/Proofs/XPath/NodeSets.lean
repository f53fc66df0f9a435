import Mathlib.Data.List.Nodup
import MarkupQuery.Proofs.Tree.Ranks
import MarkupQuery.XPath.Value

/-!
# Node-sets

Putting nodes in document order gives a list of the same nodes in which each comes strictly before
the next.  Such a list is told by its members alone.
-/

namespace MarkupQuery.XPath

/-! ## Runs -/

section Runs

variable {α : Type}

theorem eraseRepsBy_loop_eq (r : α → α → Bool) (a : α) (l acc : List α) :
    List.eraseRepsBy.loop r a l acc = acc.reverse ++ List.eraseRepsBy.loop r a l [] := by
  induction l generalizing a acc with
  | nil => simp [List.eraseRepsBy.loop]
  | cons b l ih =>
    simp only [List.eraseRepsBy.loop]
    split
    · exact ih a acc
    · rw [ih b (a :: acc), ih b [a]]
      simp

variable [DecidableEq α]

theorem eraseReps_cons_cons (a b : α) (l : List α) :
    (a :: b :: l).eraseReps = if a = b then (a :: l).eraseReps else a :: (b :: l).eraseReps := by
  simp only [List.eraseReps, List.eraseRepsBy, List.eraseRepsBy.loop]
  by_cases h : a = b
  · simp [h]
  · have hne : (a == b) = false := by simpa using h
    simp only [hne, h, ↓reduceIte]
    rw [eraseRepsBy_loop_eq]
    rfl

theorem eraseReps_singleton (a : α) : [a].eraseReps = [a] := rfl

theorem mem_eraseReps {x : α} {l : List α} : x ∈ l.eraseReps ↔ x ∈ l := by
  induction l with
  | nil => rfl
  | cons a l ih =>
    cases l with
    | nil => rw [eraseReps_singleton]
    | cons b l =>
      rw [eraseReps_cons_cons]
      split
      · rename_i heq
        subst heq
        rw [ih]
        simp
      · rw [List.mem_cons, ih, List.mem_cons (b := a)]

/-- In a sorted list without runs each element is strictly below those behind it. -/
theorem pairwise_eraseReps {le : α → α → Prop} {l : List α} (h : l.Pairwise le)
    (hantisymm : ∀ a ∈ l, ∀ b ∈ l, le a b → le b a → a = b) :
    l.eraseReps.Pairwise fun a b => le a b ∧ a ≠ b := by
  induction l with
  | nil => exact .nil
  | cons a l ih =>
    have htail := ih (List.pairwise_cons.1 h).2 fun x hx y hy =>
      hantisymm x (by simp [hx]) y (by simp [hy])
    cases l with
    | nil => simp [eraseReps_singleton]
    | cons b l =>
      rw [eraseReps_cons_cons]
      split
      · rename_i heq
        exact heq ▸ htail
      · rename_i hne
        refine List.pairwise_cons.2 ⟨fun c hc => ?_, htail⟩
        have hmem : c ∈ b :: l := mem_eraseReps.1 hc
        have hac : le a c := (List.pairwise_cons.1 h).1 c hmem
        refine ⟨hac, ?_⟩
        rintro rfl
        -- the first element stands again behind `b`, and all between are equal to it
        have hab : le a b := (List.pairwise_cons.1 h).1 b (by simp)
        rcases List.mem_cons.1 hmem with heq | hmem
        · exact hne heq
        · have hba : le b a := (List.pairwise_cons.1 (List.pairwise_cons.1 h).2).1 a hmem
          exact hne (hantisymm a (by simp) b (by simp) hab hba)

end Runs

/-! ## Places of nodes -/

namespace NodeRef

variable {t : Tree}

/-- The node or the attribute is there. -/
def Valid (t : Tree) : NodeRef → Prop
  | tree id => id < t.size
  | .attribute owner index => index < (t.attributeList owner).length

instance (a : NodeRef) : Decidable (a.Valid t) :=
  match a with
  | tree id => inferInstanceAs (Decidable (id < t.size))
  | .attribute owner index => inferInstanceAs (Decidable (index < (t.attributeList owner).length))

/-- The first node comes strictly before the second in document order. -/
def Before (t : Tree) (a b : NodeRef) : Prop :=
  (a.orderKey t).1 < (b.orderKey t).1 ∨
    (a.orderKey t).1 = (b.orderKey t).1 ∧ (a.orderKey t).2 < (b.orderKey t).2

instance (a b : NodeRef) : Decidable (a.Before t b) := inferInstanceAs (Decidable (_ ∨ _))

theorem notAfter_iff {a b : NodeRef} : a.notAfter t b = true ↔
    (a.orderKey t).1 < (b.orderKey t).1 ∨
      (a.orderKey t).1 = (b.orderKey t).1 ∧ (a.orderKey t).2 ≤ (b.orderKey t).2 := by
  simp [notAfter]

theorem notAfter_trans (t : Tree) (a b c : NodeRef) (hab : a.notAfter t b = true)
    (hbc : b.notAfter t c = true) : a.notAfter t c = true := by
  rw [notAfter_iff] at *
  omega

theorem notAfter_total (t : Tree) (a b : NodeRef) : (a.notAfter t b || b.notAfter t a) = true := by
  rw [Bool.or_eq_true, notAfter_iff, notAfter_iff]
  omega

theorem Before.trans {a b c : NodeRef} (hab : a.Before t b) (hbc : b.Before t c) :
    a.Before t c := by
  unfold Before at *
  omega

theorem Before.irrefl (a : NodeRef) : ¬ a.Before t a := by
  unfold Before
  omega

theorem Before.asymm {a b : NodeRef} (hab : a.Before t b) : ¬ b.Before t a :=
  fun hba => Before.irrefl a (hab.trans hba)

theorem lt_size_of_attribute {owner : NodeId} {index : Nat}
    (h : (NodeRef.attribute owner index).Valid t) : owner < t.size := by
  by_contra hsize
  rw [Valid, Tree.attributeList, Tree.get?_eq_none_iff.2 (Nat.not_lt.1 hsize)] at h
  simp at h

theorem Valid.nodeId_lt {a : NodeRef} (h : a.Valid t) : a.nodeId < t.size := by
  rcases a with id | ⟨owner, index⟩
  · exact h
  · exact lt_size_of_attribute h

/-- Where a node is in document order, with its place among the attributes of its element. -/
theorem orderKey_eq (ht : t.Assembled) {a : NodeRef} (h : a.Valid t) : a.orderKey t =
    (t.documentOrder.idxOf a.nodeId, match a with
      | tree _ => 0
      | .attribute _ index => index + 1) := by
  rcases a with id | ⟨owner, index⟩
  · simp [orderKey, ht.rank?_eq h, nodeId]
  · simp [orderKey, ht.rank?_eq (lt_size_of_attribute h), nodeId]

theorem eq_of_orderKey_eq (ht : t.Assembled) {a b : NodeRef} (ha : a.Valid t) (hb : b.Valid t)
    (heq : a.orderKey t = b.orderKey t) : a = b := by
  obtain ⟨kids, hkids⟩ := ht.exists_linked
  rw [orderKey_eq ht ha, orderKey_eq ht hb, Prod.mk.injEq] at heq
  have hmem := (hkids.mem_documentOrder ht.size_pos).2 ha.nodeId_lt
  have hid : a.nodeId = b.nodeId := (List.idxOf_inj hmem).1 heq.1
  cases a <;> cases b <;> simp_all [nodeId]

theorem eq_of_notAfter (ht : t.Assembled) {a b : NodeRef} (ha : a.Valid t) (hb : b.Valid t)
    (hab : a.notAfter t b = true) (hba : b.notAfter t a = true) : a = b := by
  rw [notAfter_iff] at hab hba
  refine eq_of_orderKey_eq ht ha hb (Prod.ext ?_ ?_) <;> omega

theorem before_of_notAfter (ht : t.Assembled) {a b : NodeRef} (ha : a.Valid t) (hb : b.Valid t)
    (hab : a.notAfter t b = true) (hne : a ≠ b) : a.Before t b := by
  by_contra hbefore
  refine hne (eq_of_notAfter ht ha hb hab ?_)
  rw [notAfter_iff] at *
  unfold Before at hbefore
  omega

end NodeRef

/-! ## Nodes in document order -/

variable {t : Tree}

/-- Nodes of a tree in document order, each once. -/
structure InOrder (t : Tree) (nodes : List NodeRef) : Prop where
  valid : ∀ x ∈ nodes, x.Valid t
  pairwise : nodes.Pairwise (NodeRef.Before t)

instance (nodes : List NodeRef) : Decidable (InOrder t nodes) :=
  decidable_of_iff ((∀ x ∈ nodes, x.Valid t) ∧ nodes.Pairwise (NodeRef.Before t))
    ⟨fun h => ⟨h.1, h.2⟩, fun h => ⟨h.valid, h.pairwise⟩⟩

theorem mem_inDocumentOrder {nodes : List NodeRef} {x : NodeRef} :
    x ∈ inDocumentOrder t nodes ↔ x ∈ nodes := by
  rw [inDocumentOrder, mem_eraseReps, List.mem_mergeSort]

theorem inDocumentOrder_nil : inDocumentOrder t [] = [] := by
  rw [inDocumentOrder, List.mergeSort_nil]
  rfl

theorem inDocumentOrder_singleton (x : NodeRef) : inDocumentOrder t [x] = [x] := by
  rw [inDocumentOrder, List.mergeSort_singleton, eraseReps_singleton]

theorem inOrder_inDocumentOrder (ht : t.Assembled) {nodes : List NodeRef}
    (hvalid : ∀ x ∈ nodes, x.Valid t) : InOrder t (inDocumentOrder t nodes) := by
  have hsorted : (nodes.mergeSort (NodeRef.notAfter t)).Pairwise
      fun a b => a.notAfter t b = true :=
    List.pairwise_mergeSort (NodeRef.notAfter_trans t) (NodeRef.notAfter_total t) nodes
  have hvalid' : ∀ x ∈ inDocumentOrder t nodes, x.Valid t := fun x hx =>
    hvalid x (mem_inDocumentOrder.1 hx)
  refine ⟨hvalid', ?_⟩
  have hpairs := pairwise_eraseReps hsorted fun a ha b hb =>
    NodeRef.eq_of_notAfter ht (hvalid a (by simpa using ha)) (hvalid b (by simpa using hb))
  refine hpairs.imp_of_mem fun ha hb hab => ?_
  exact NodeRef.before_of_notAfter ht (hvalid' _ ha) (hvalid' _ hb) hab.1 hab.2

theorem InOrder.nodup {nodes : List NodeRef} (h : InOrder t nodes) : nodes.Nodup :=
  h.pairwise.imp fun {a b} hab (heq : a = b) => NodeRef.Before.irrefl b (heq ▸ hab)

theorem InOrder.sublist {nodes nodes' : List NodeRef} (h : InOrder t nodes)
    (hsub : nodes'.Sublist nodes) : InOrder t nodes' :=
  ⟨fun x hx => h.valid x (hsub.subset hx), h.pairwise.sublist hsub⟩

/-- Ranking a tree leaves all nodes in their places. -/
theorem inOrder_rankNodes {nodes : List NodeRef} :
    InOrder t.rankNodes nodes ↔ InOrder t nodes :=
  ⟨fun h => ⟨h.valid, h.pairwise⟩, fun h => ⟨h.valid, h.pairwise⟩⟩

theorem InOrder.eq_of_mem_iff {nodes nodes' : List NodeRef} (h : InOrder t nodes)
    (h' : InOrder t nodes') (hmem : ∀ x, x ∈ nodes ↔ x ∈ nodes') : nodes = nodes' :=
  ((List.perm_ext_iff_of_nodup h.nodup h'.nodup).2 hmem).eq_of_pairwise
    (fun _ _ _ _ hab hba => absurd hba hab.asymm) h.pairwise h'.pairwise

/-- A list in document order is what its members give in document order. -/
theorem InOrder.inDocumentOrder_eq (ht : t.Assembled) {nodes found : List NodeRef}
    (h : InOrder t found) (hmem : ∀ x, x ∈ nodes ↔ x ∈ found) :
    inDocumentOrder t nodes = found := by
  have hvalid : ∀ x ∈ nodes, x.Valid t := fun x hx => h.valid x ((hmem x).1 hx)
  exact (inOrder_inDocumentOrder ht hvalid).eq_of_mem_iff h fun x =>
    mem_inDocumentOrder.trans (hmem x)

end MarkupQuery.XPath
