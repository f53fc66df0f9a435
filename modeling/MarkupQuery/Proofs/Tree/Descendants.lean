import MarkupQuery.Proofs.Tree.History
import MarkupQuery.Proofs.Tree.Preorder
import MarkupQuery.Tree.Reading

/-!
# What is below a node

The walk below a node needs no bound.  Of any node in a tree it comes to an end by itself, the way
up from each place included, and it goes through all that is below the node, once and in preorder,
and through nothing else.  So the text of an element or of the document is put together from the
texts below it, in their order.
-/

namespace MarkupQuery

namespace Tree

/-- The way up from a node below `top` to the next place of the walk: the next sibling of the first
node on the way that has one, and none when the way reaches `top` or ends. -/
inductive Climbs (t : Tree) (top : NodeId) : Node → Option NodeId → Prop where
  | sibling {n : Node} {next : NodeId} (hnext : n.nextSibling = some next) :
      Climbs t top n (some next)
  | top {n : Node} (hnext : n.nextSibling = none) (hparent : n.parent = some top) :
      Climbs t top n none
  | ended {n : Node} (hnext : n.nextSibling = none) (hparent : n.parent ≠ some top)
      (hnone : n.parent.bind t.get? = none) : Climbs t top n none
  | up {n parent : Node} {place : Option NodeId} (hnext : n.nextSibling = none)
      (hparent : n.parent ≠ some top) (hget : n.parent.bind t.get? = some parent)
      (h : Climbs t top parent place) : Climbs t top n place

/-- The walk below `top` from a place on, to its end, with the nodes that it goes through. -/
inductive Walks (t : Tree) (top : NodeId) : Option NodeId → List NodeId → Prop where
  | stop : Walks t top none []
  | missing {id : NodeId} (hget : t.get? id = none) : Walks t top (some id) []
  | down {id child : NodeId} {n : Node} {l : List NodeId} (hget : t.get? id = some n)
      (hchild : n.firstChild = some child) (hrest : Walks t top (some child) l) :
      Walks t top (some id) (id :: l)
  | on {id : NodeId} {n : Node} {place : Option NodeId} {l : List NodeId}
      (hget : t.get? id = some n) (hchild : n.firstChild = none) (hclimbs : t.Climbs top n place)
      (hrest : Walks t top place l) : Walks t top (some id) (id :: l)

/-- The nodes of a kind among some nodes, in their order. -/
def ofKind (t : Tree) (kind : NodeKind) (nodes : List NodeId) : List NodeId :=
  nodes.filter fun id => (t.get? id).map Node.kind = some kind

/-- The walk below a node comes to an end and goes through all nodes below it, once and in preorder,
and the text of an element or of the document is that of the text nodes on the walk. -/
structure WalkedBelow (t : Tree) (x : NodeId) : Prop where
  walks (l : List NodeId) :
    t.Walks x ((t.get? x).bind Node.firstChild) l ↔ l = t.descendants x
  preorder : Preorder t.children (t.children x) (t.descendants x)
  nodup : (t.descendants x).Nodup
  mem_iff (y : NodeId) : y ∈ t.descendants x ↔ t.Below y x
  self_not_mem : x ∉ t.descendants x
  text (h : (t.get? x).map Node.kind = some .element ∨ (t.get? x).map Node.kind = some .document) :
    t.textContent x = String.join ((t.ofKind .text (t.descendants x)).map t.textContent)

variable {t : Tree} {kids : NodeId → List NodeId} {top x : NodeId} {n : Node}
  {place place' : Option NodeId} {l l' : List NodeId}

/-! ## The end of the walk -/

/-- The way up ends within as many steps as there are ancestors. -/
theorem Linked.climbs_of_lt (h : t.Linked kids) (top : NodeId) {bound : Nat}
    (hn : t.get? x = some n) (hbound : (t.ancestors x).length < bound) :
    t.Climbs top n (t.nextAbove top bound n) := by
  induction bound generalizing x n with
  | zero => omega
  | succ bound ih =>
    rw [nextAbove]
    cases hnext : n.nextSibling with
    | some next => exact .sibling hnext
    | none =>
      by_cases htop : n.parent = some top
      · simp only [htop, ↓reduceIte]
        exact .top hnext htop
      · cases hget : n.parent.bind t.get? with
        | none =>
          simp only [htop, ↓reduceIte]
          exact .ended hnext htop hget
        | some parent =>
          simp only [htop, ↓reduceIte]
          obtain ⟨p, hp, hparent⟩ := Option.bind_eq_some_iff.1 hget
          have hmem : x ∈ kids p := h.parent.1 (by rw [link_of_get? hn, hp])
          rw [h.ancestors_eq_cons hmem, List.length_cons] at hbound
          exact .up hnext htop hget (ih hparent (by omega))

theorem Linked.climbs (h : t.Linked kids) (top : NodeId) (hn : t.get? x = some n) :
    t.Climbs top n (t.nextAbove top t.size n) :=
  h.climbs_of_lt top hn (h.length_ancestors_lt (lt_size_of_get? hn))

theorem Linked.walks_of_follows (h : t.Linked kids) {start : Option NodeId} {l : List NodeId}
    (hl : t.Follows (t.nextBelow top) start l) : t.Walks top start l := by
  induction hl with
  | stop => exact .stop
  | @step id n l hget _ ih =>
    cases hchild : n.firstChild with
    | some child =>
      rw [nextBelow, hchild] at ih
      exact .down hget hchild ih
    | none =>
      rw [nextBelow, hchild] at ih
      exact .on hget hchild (h.climbs top hget) ih

theorem Climbs.unique (h : t.Climbs top n place) (h' : t.Climbs top n place') : place = place' := by
  induction h with
  | sibling hnext | top hnext hparent | ended hnext hparent hnone => cases h' <;> simp_all
  | up hnext hparent hget _ ih =>
    cases h' with
    | sibling | top | ended => simp_all
    | up _ _ hget' h' =>
      rw [hget, Option.some.injEq] at hget'
      exact ih (hget' ▸ h')

theorem Walks.unique (h : t.Walks top place l) (h' : t.Walks top place l') : l = l' := by
  induction h generalizing l' with
  | stop => cases h'; rfl
  | missing hget => cases h' <;> simp_all
  | down hget hchild _ ih =>
    cases h' with
    | missing | on => simp_all
    | down hget' hchild' hrest =>
      obtain rfl := Option.some.inj (hget.symm.trans hget')
      obtain rfl := Option.some.inj (hchild.symm.trans hchild')
      rw [ih hrest]
  | on hget hchild hclimbs _ ih =>
    cases h' with
    | missing | down => simp_all
    | on hget' _ hclimbs' hrest =>
      obtain rfl := Option.some.inj (hget.symm.trans hget')
      rw [ih (hclimbs.unique hclimbs' ▸ hrest)]

/-! ## Texts -/

theorem ofKind_text (nodes : List NodeId) :
    nodes.filterMap (fun id => (t.get? id).bind Node.text?) =
      (t.ofKind .text nodes).map t.textContent := by
  have hread (id : NodeId) : (t.get? id).bind Node.text? =
      if (t.get? id).map Node.kind = some .text then some (t.textContent id) else none := by
    unfold textContent
    cases t.get? id with
    | none => rfl
    | some n => cases hcontent : n.content <;> simp [Node.text?, Node.kind, Content.kind, hcontent]
  rw [ofKind, ← List.filterMap_eq_map, List.filterMap_filter]
  simp [hread]

theorem textContent_eq (h : (t.get? x).map Node.kind = some .element ∨
    (t.get? x).map Node.kind = some .document) :
    t.textContent x = String.join ((t.ofKind .text (t.descendants x)).map t.textContent) := by
  rw [← ofKind_text]
  change t.textContent x = t.descendantText x
  rw [textContent]
  cases hget : t.get? x with
  | none => simp [hget] at h
  | some n => cases hcontent : n.content <;> simp_all [Node.kind, Content.kind]

/-! ## The walk -/

/-- Below every node of a tree in which no node was attached twice or below itself the walk ends,
and goes through what is below the node in preorder. -/
theorem walkedBelow (h : t.Assembled) (x : NodeId) : t.WalkedBelow x := by
  obtain ⟨kids, hlinked⟩ := h.exists_linked
  obtain rfl : t.children = kids := funext hlinked.children_eq
  constructor
  case walks =>
    intro l
    have hwalks := hlinked.walks_of_follows (hlinked.follows_descendants x)
    exact ⟨fun hl => hl.unique hwalks, fun hl => hl ▸ hwalks⟩
  case preorder => exact hlinked.preorder_descendants x
  case nodup => exact hlinked.nodup_descendants x
  case mem_iff => exact fun y => hlinked.mem_descendants
  case self_not_mem => exact fun hmem => hlinked.not_below_self x (hlinked.mem_descendants.1 hmem)
  case text => exact textContent_eq

/-- An element with an element that holds a text, a comment and a further text, and an element
behind it, which is not below it. -/
def nested : List Operation :=
  [.createElement "div", .createElement "b", .createText "x", .createComment "y", .createText "z",
    .createElement "p", .appendChild 2 3, .appendChild 1 2, .appendChild 1 4, .appendChild 1 5,
    .appendChild root 1, .appendChild root 6]

theorem permitsAll_nested : Tree.empty.PermitsAll nested := by
  refine ⟨permits_of_attachment?_eq_none rfl, permits_of_attachment?_eq_none rfl,
    permits_of_attachment?_eq_none rfl, permits_of_attachment?_eq_none rfl,
    permits_of_attachment?_eq_none rfl, permits_of_attachment?_eq_none rfl,
    permits_of_detached ?_ ?_ (by decide), permits_of_detached ?_ ?_ (by decide),
    permits_of_detached ?_ ?_ (by decide), permits_of_detached ?_ ?_ (by decide),
    permits_of_detached ?_ ?_ (by decide), permits_of_detached ?_ ?_ (by decide), trivial⟩
  all_goals decide +kernel

theorem walkedBelow_nested :
    let t := Tree.empty.performAll nested
    t.Assembled ∧ t.WalkedBelow 1 ∧ t.descendants 1 = [2, 3, 4, 5] ∧ t.textContent 1 = "xz" := by
  have hassembled := (Built.empty.performAll permitsAll_nested).assembled
  exact ⟨hassembled, walkedBelow hassembled 1, by decide +kernel, by decide +kernel⟩

end Tree

end MarkupQuery
