import MarkupQuery.Proofs.Html.Entered

/-!
# Trees that differ in blanks

Two trees of the same nodes, one with the texts of blanks and one without them, have the same
elements: they stand in the same order, with the same tags and attributes and in the same places
below one another.  `Alike` goes through both trees at once and pairs the elements off.
-/

namespace MarkupQuery

/-- The tag of a read node that is an element. -/
def Html.Node.tag? : Html.Node → Option String
  | element tag _ _ => some tag
  | _ => none

namespace Tree

/-- Whether a node of a tree is an element. -/
def isElement (t : Tree) (x : NodeId) : Bool := (t.get? x).any Node.isElement

/-- Nodes `xs` of a tree `a` and `ys` of a tree `b` that are the same but for texts of blanks, which
the second tree may lack.  The elements among them and below them are paired off in order. -/
inductive Alike (a b : Tree) : List NodeId → List NodeId → List (NodeId × NodeId) → Prop where
  | nil : Alike a b [] [] []
  | blank {x : NodeId} {value : String} {xs ys : List NodeId} {pairs : List (NodeId × NodeId)}
      (hx : a.Shows x (.text value)) (hvalue : ∀ c ∈ value.toList, c ∈ Html.markupBlanks)
      (h : Alike a b xs ys pairs) : Alike a b (x :: xs) ys pairs
  | leaf {x y : NodeId} {node : Html.Node} {xs ys : List NodeId} {pairs : List (NodeId × NodeId)}
      (hx : a.Shows x node) (hy : b.Shows y node) (hnode : node.tag? = none)
      (h : Alike a b xs ys pairs) : Alike a b (x :: xs) (y :: ys) pairs
  | element {x y : NodeId} {tag : String} {xs ys : List NodeId}
      {below after : List (NodeId × NodeId)} (hx : a.tagName? x = some tag)
      (hy : b.tagName? y = some tag) (hattributes : a.attributes x = b.attributes y)
      (hbelow : Alike a b (a.children x) (b.children y) below) (hafter : Alike a b xs ys after) :
      Alike a b (x :: xs) (y :: ys) ((x, y) :: below ++ after)

variable {t a b : Tree} {x y : NodeId} {xs ys l : List NodeId} {pairs sub : List (NodeId × NodeId)}

/-! ## Shown nodes -/

theorem isElement_eq (t : Tree) (x : NodeId) : t.isElement x = (t.tagName? x).isSome := by
  rw [isElement, tagName?]
  cases t.get? x with
  | none => rfl
  | some n =>
    obtain ⟨content⟩ := n
    cases content <;> rfl

theorem tagName?_of_shows {node : Html.Node} (h : t.Shows x node) : t.tagName? x = node.tag? := by
  cases h with
  | element htag => exact htag
  | doctype hx | text hx | comment hx | instruction hx =>
    exact tagName?_eq_none hx (by simp [Content.kind])

theorem children_of_shows {node : Html.Node} (h : t.Shows x node) (hnode : node.tag? = none) :
    t.children x = [] := by
  cases h with
  | element => cases hnode
  | doctype _ hleaf | text _ hleaf | comment _ hleaf | instruction _ hleaf => exact hleaf

theorem Shows.of_element {tag : String} {attributes : List (String × String)}
    {children : List Html.Node} (h : t.Shows x (.element tag attributes children)) :
    t.tagName? x = some tag ∧ t.attributes x = attributes ∧ t.ShowsAll (t.children x) children := by
  generalize hnode : Html.Node.element tag attributes children = node at h
  cases h with
  | element htag hchildren =>
    cases hnode
    exact ⟨htag, rfl, hchildren⟩
  | doctype | text | comment | instruction => cases hnode

/-! ## Elements paired off -/

namespace Alike

theorem filter_isElement_of_leaf {node : Html.Node} (hx : t.Shows x node) (hnode : node.tag? = none)
    (l : List NodeId) : (x :: l).filter t.isElement = l.filter t.isElement := by
  refine List.filter_cons_of_neg ?_
  rw [isElement_eq, tagName?_of_shows hx, hnode]
  exact Bool.false_ne_true

/-- Nothing is below a node that is no element. -/
theorem preorder_of_leaf {node : Html.Node} (hx : t.Shows x node) (hnode : node.tag? = none)
    (hl : Preorder t.children (x :: xs) l) :
    ∃ after, l = x :: after ∧ Preorder t.children xs after := by
  cases hl with
  | cons hbelow hafter =>
    rw [children_of_shows hx hnode] at hbelow
    cases hbelow
    exact ⟨_, rfl, hafter⟩

theorem filter_isElement_cons {tag : String} (hx : t.tagName? x = some tag)
    (below after : List NodeId) :
    (x :: below ++ after).filter t.isElement =
      x :: (below.filter t.isElement ++ after.filter t.isElement) := by
  have helement : t.isElement x = true := by
    rw [isElement_eq, hx]
    rfl
  rw [List.cons_append, List.filter_cons_of_pos helement, List.filter_append]

/-- The pairs are the elements of the one forest in order, with those of the other. -/
theorem map_pairs (h : Alike a b xs ys pairs) {la lb : List NodeId}
    (hla : Preorder a.children xs la) (hlb : Preorder b.children ys lb) :
    pairs.map Prod.fst = la.filter a.isElement ∧ pairs.map Prod.snd = lb.filter b.isElement := by
  induction h generalizing la lb with
  | nil =>
    cases hla
    cases hlb
    exact ⟨rfl, rfl⟩
  | blank hx _ _ ih =>
    obtain ⟨_, rfl, hafter⟩ := preorder_of_leaf hx rfl hla
    rw [filter_isElement_of_leaf hx rfl]
    exact ih hafter hlb
  | leaf hx hy hnode _ ih =>
    obtain ⟨_, rfl, haftera⟩ := preorder_of_leaf hx hnode hla
    obtain ⟨_, rfl, hafterb⟩ := preorder_of_leaf hy hnode hlb
    rw [filter_isElement_of_leaf hx hnode, filter_isElement_of_leaf hy hnode]
    exact ih haftera hafterb
  | element hx hy _ _ _ ihbelow ihafter =>
    cases hla with
    | cons hbelowa haftera =>
      cases hlb with
      | cons hbelowb hafterb =>
        obtain ⟨hfsts, hsnds⟩ := ihbelow hbelowa hbelowb
        obtain ⟨hfsts', hsnds'⟩ := ihafter haftera hafterb
        rw [filter_isElement_cons hx, filter_isElement_cons hy, ← hfsts, ← hfsts', ← hsnds,
          ← hsnds']
        simp only [List.cons_append, List.map_cons, List.map_append, and_self]

/-- Paired elements say the same, and their children are alike. -/
theorem of_mem (h : Alike a b xs ys pairs) (hmem : (x, y) ∈ pairs) :
    (∃ tag, a.tagName? x = some tag ∧ b.tagName? y = some tag) ∧
      a.attributes x = b.attributes y ∧
      ∃ sub ⊆ pairs, Alike a b (a.children x) (b.children y) sub := by
  induction h with
  | nil => cases hmem
  | blank _ _ _ ih => exact ih hmem
  | leaf _ _ _ _ ih => exact ih hmem
  | @element x' y' tag xs ys below after hx hy hattributes hbelow hafter ihbelow ihafter =>
    rw [List.cons_append] at hmem ⊢
    rcases List.mem_cons.1 hmem with heq | hmem
    · cases heq
      refine ⟨⟨tag, hx, hy⟩, hattributes, below, ?_, hbelow⟩
      exact fun p hp => List.mem_cons_of_mem _ (List.mem_append_left _ hp)
    · rcases List.mem_append.1 hmem with hmem | hmem
      · obtain ⟨htag, hattributes, sub, hsub, halike⟩ := ihbelow hmem
        refine ⟨htag, hattributes, sub, fun p hp => ?_, halike⟩
        exact List.mem_cons_of_mem _ (List.mem_append_left _ (hsub hp))
      · obtain ⟨htag, hattributes, sub, hsub, halike⟩ := ihafter hmem
        refine ⟨htag, hattributes, sub, fun p hp => ?_, halike⟩
        exact List.mem_cons_of_mem _ (List.mem_append_right _ (hsub hp))

/-- The elements that stand side by side are paired off with one another. -/
theorem exists_beside (h : Alike a b xs ys pairs) :
    ∃ beside ⊆ pairs, beside.map Prod.fst = xs.filter a.isElement ∧
      beside.map Prod.snd = ys.filter b.isElement := by
  induction h with
  | nil => exact ⟨[], List.nil_subset _, rfl, rfl⟩
  | blank hx _ _ ih =>
    rw [filter_isElement_of_leaf hx rfl]
    exact ih
  | leaf hx hy hnode _ ih =>
    rw [filter_isElement_of_leaf hx hnode, filter_isElement_of_leaf hy hnode]
    exact ih
  | @element x y tag xs ys below after hx hy _ _ _ _ ih =>
    obtain ⟨beside, hsub, hfsts, hsnds⟩ := ih
    have hfirst := filter_isElement_cons hx [] xs
    have hsecond := filter_isElement_cons hy [] ys
    refine ⟨(x, y) :: beside, ?_, ?_, ?_⟩
    · rw [List.cons_append]
      exact List.cons_subset_cons _ (List.subset_append_of_subset_right _ hsub)
    · rw [List.map_cons, hfsts]
      exact hfirst.symm
    · rw [List.map_cons, hsnds]
      exact hsecond.symm

end Alike

/-! ## Places of paired elements -/

/-- A pair is in a part of all pairs when either of its elements is. -/
theorem mem_pairs_iff (hfsts : (pairs.map Prod.fst).Nodup) (hsnds : (pairs.map Prod.snd).Nodup)
    (hsub : sub ⊆ pairs) (hxy : (x, y) ∈ pairs) :
    x ∈ sub.map Prod.fst ↔ y ∈ sub.map Prod.snd := by
  have hleft : x ∈ sub.map Prod.fst → (x, y) ∈ sub := by
    intro hx
    obtain ⟨p, hp, hpx⟩ := List.mem_map.1 hx
    have heq : p = (x, y) := List.inj_on_of_nodup_map hfsts (hsub hp) hxy hpx
    exact heq ▸ hp
  have hright : y ∈ sub.map Prod.snd → (x, y) ∈ sub := by
    intro hy
    obtain ⟨p, hp, hpy⟩ := List.mem_map.1 hy
    have heq : p = (x, y) := List.inj_on_of_nodup_map hsnds (hsub hp) hxy hpy
    exact heq ▸ hp
  exact ⟨fun hx => List.mem_map_of_mem (f := Prod.snd) (hleft hx),
    fun hy => List.mem_map_of_mem (f := Prod.fst) (hright hy)⟩

/-- All elements under the documents of two trees, paired off. -/
structure Paired (a b : Tree) (pairs : List (NodeId × NodeId)) : Prop where
  left : a.Built
  right : b.Built
  alike : Alike a b (a.children root) (b.children root) pairs

namespace Paired

theorem map_eq (h : Paired a b pairs) :
    pairs.map Prod.fst = (a.descendants root).filter a.isElement ∧
      pairs.map Prod.snd = (b.descendants root).filter b.isElement :=
  h.alike.map_pairs (h.left.linked_children.preorder_descendants root)
    (h.right.linked_children.preorder_descendants root)

theorem nodup (h : Paired a b pairs) :
    (pairs.map Prod.fst).Nodup ∧ (pairs.map Prod.snd).Nodup := by
  rw [h.map_eq.1, h.map_eq.2]
  exact ⟨(h.left.linked_children.nodup_descendants root).filter _,
    (h.right.linked_children.nodup_descendants root).filter _⟩

theorem isElement (h : Paired a b pairs) (hxy : (x, y) ∈ pairs) :
    a.isElement x = true ∧ b.isElement y = true := by
  obtain ⟨⟨tag, hx, hy⟩, -, -⟩ := h.alike.of_mem hxy
  rw [isElement_eq, isElement_eq, hx, hy]
  exact ⟨rfl, rfl⟩

theorem inside_root (h : Paired a b pairs) {p : NodeId × NodeId} (hp : p ∈ pairs) :
    a.Inside p.1 root ∧ b.Inside p.2 root := by
  have hx : p.1 ∈ pairs.map Prod.fst := List.mem_map_of_mem hp
  have hy : p.2 ∈ pairs.map Prod.snd := List.mem_map_of_mem hp
  rw [h.map_eq.1, List.mem_filter, h.left.linked_children.mem_descendants] at hx
  rw [h.map_eq.2, List.mem_filter, h.right.linked_children.mem_descendants] at hy
  exact ⟨hx.1.to_reflTransGen, hy.1.to_reflTransGen⟩

variable {s s' : NodeId}

/-- One of two paired elements lies below a start when the other lies below the other's start. -/
theorem below_iff (h : Paired a b pairs) (hsub : sub ⊆ pairs)
    (halike : Alike a b (a.children s) (b.children s') sub) (hxy : (x, y) ∈ pairs) :
    a.Below x s ↔ b.Below y s' := by
  have ha := h.left.linked_children
  have hb := h.right.linked_children
  obtain ⟨hfsts, hsnds⟩ :=
    halike.map_pairs (ha.preorder_descendants s) (hb.preorder_descendants s')
  obtain ⟨hx, hy⟩ := h.isElement hxy
  have hiff := mem_pairs_iff h.nodup.1 h.nodup.2 hsub hxy
  rwa [hfsts, hsnds, List.mem_filter, List.mem_filter, ha.mem_descendants, hb.mem_descendants,
    and_iff_left hx, and_iff_left hy] at hiff

theorem up_iff (h : Paired a b pairs) (hsub : sub ⊆ pairs)
    (halike : Alike a b (a.children s) (b.children s') sub) (hxy : (x, y) ∈ pairs) :
    a.Up x s ↔ b.Up y s' := by
  obtain ⟨beside, hbeside, hfsts, hsnds⟩ := halike.exists_beside
  obtain ⟨hx, hy⟩ := h.isElement hxy
  have hiff := mem_pairs_iff h.nodup.1 h.nodup.2 (List.Subset.trans hbeside hsub) hxy
  rwa [hfsts, hsnds, List.mem_filter, List.mem_filter, and_iff_left hx, and_iff_left hy,
    ← h.left.linked_children.up_iff, ← h.right.linked_children.up_iff] at hiff

end Paired

end Tree

namespace Html

open MarkupQuery.Tree

variable {a b : Tree}

/-- What is shown with all texts and what is shown without those of blanks is alike. -/
theorem exists_alike {xs ys : List NodeId} {nodes : List Node}
    (ha : a.ShowsAll xs (keptAll true nodes)) (hb : b.ShowsAll ys (keptAll false nodes)) :
    ∃ pairs, Alike a b xs ys pairs := by
  induction hcount : countAll nodes using Nat.strongRecOn generalizing xs ys nodes with
  | _ count ih =>
    cases nodes with
    | nil =>
      cases ha
      cases hb
      exact ⟨[], .nil⟩
    | cons node rest =>
      rw [countAll, count_eq] at hcount
      have hleaf {node : Node} (hnode : node.tag? = none)
          (ha : a.ShowsAll xs (node :: keptAll true rest))
          (hb : b.ShowsAll ys (node :: keptAll false rest)) : ∃ pairs, Alike a b xs ys pairs := by
        cases ha with
        | cons hx hxs =>
          cases hb with
          | cons hy hys =>
            obtain ⟨pairs, hpairs⟩ := ih (countAll rest) (by omega) hxs hys rfl
            exact ⟨pairs, .leaf hx hy hnode hpairs⟩
      cases node with
      | element tag attributes children =>
        cases ha with
        | cons hx hxs =>
          cases hb with
          | cons hy hys =>
            obtain ⟨htag, hattributes, hchildren⟩ := hx.of_element
            obtain ⟨htag', hattributes', hchildren'⟩ := hy.of_element
            rw [Node.children] at hcount
            obtain ⟨below, hbelow⟩ :=
              ih (countAll children) (by omega) hchildren hchildren' rfl
            obtain ⟨after, hafter⟩ := ih (countAll rest) (by omega) hxs hys rfl
            exact ⟨_, .element htag htag' (hattributes.trans hattributes'.symm) hbelow hafter⟩
      | text value =>
        by_cases hvalue : ∀ c ∈ value.toList, c ∈ markupBlanks
        · rw [keptAll, Node.kept, Bool.not_false, Bool.true_and,
            if_pos (all_blanks_iff.2 hvalue)] at hb
          cases ha with
          | cons hx hxs =>
            obtain ⟨pairs, hpairs⟩ := ih (countAll rest) (by omega) hxs hb rfl
            exact ⟨pairs, .blank hx hvalue hpairs⟩
        · rw [keptAll, Node.kept, Bool.not_false, Bool.true_and,
            if_neg fun h => hvalue (all_blanks_iff.1 h)] at hb
          exact hleaf rfl ha hb
      | doctype | comment | instruction => exact hleaf rfl ha hb

end Html

end MarkupQuery
