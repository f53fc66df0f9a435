import MarkupQuery.Proofs.Html.Conversion
import MarkupQuery.Proofs.Html.Shown
import MarkupQuery.Proofs.Tree.DocumentOrder

/-!
# Entered nodes

The tree of a document shows the nodes that were entered into it, but for the texts of blanks that
are left out, and with the attributes of each name given once.  What is entered under a node gets
the numbers from the size of the tree on, in preorder, and leaves all other lists of children alone;
from this invariant of entering follows that the numbers of a whole document are its ranks.
-/

namespace MarkupQuery

theorem cons_range'_append {a b c : Nat} (hab : a + 1 ≤ b) (hbc : b ≤ c) :
    a :: List.range' (a + 1) (b - (a + 1)) ++ List.range' b (c - b) = List.range' a (c - a) := by
  obtain ⟨m, rfl⟩ := Nat.exists_eq_add_of_le hab
  obtain ⟨n, rfl⟩ := Nat.exists_eq_add_of_le hbc
  have hlength : a + 1 + m + n - a = 1 + (m + n) := by omega
  rw [Nat.add_sub_cancel_left, Nat.add_sub_cancel_left, List.cons_append, List.range'_append_1,
    hlength, Nat.add_comm 1, List.range'_succ]

/-! ## Preorder in a growing tree -/

namespace Tree

variable {t t' : Tree} {kids kids' : NodeId → List NodeId} {xs l : List NodeId}

theorem Preorder.congr (h : Preorder kids xs l) (hsame : ∀ x ∈ l, kids' x = kids x) :
    Preorder kids' xs l := by
  induction h with
  | nil => exact .nil
  | cons _ _ ihbelow ihafter =>
    simp only [List.cons_append, List.forall_mem_cons, List.forall_mem_append] at hsame
    obtain ⟨hx, hbelow, hafter⟩ := hsame
    exact .cons (hx.symm ▸ ihbelow hbelow) (ihafter hafter)

theorem Preorder.mem_of_mem (h : Preorder kids xs l) {x : NodeId} (hx : x ∈ xs) : x ∈ l := by
  induction h with
  | nil => exact hx
  | cons _ _ _ ihafter =>
    rw [List.cons_append, List.mem_cons, List.mem_append]
    rcases List.mem_cons.1 hx with rfl | hx
    · exact .inl rfl
    · exact .inr (.inr (ihafter hx))

/-- In a preorder that goes up in numbers, children have greater numbers than their parents. -/
theorem Preorder.lt_of_mem_kids (h : Preorder kids xs l) (hl : l.Pairwise (· < ·)) {x c : NodeId}
    (hx : x ∈ l) (hc : c ∈ kids x) : x < c := by
  induction h with
  | nil => cases hx
  | cons hbelow _ ihbelow ihafter =>
    obtain ⟨hfirst, hrest⟩ := List.pairwise_cons.1 hl
    obtain ⟨hlbelow, hlafter, -⟩ := List.pairwise_append.1 hrest
    rcases List.mem_cons.1 hx with rfl | hx
    · exact hfirst c (List.mem_append_left _ (hbelow.mem_of_mem hc))
    · rcases List.mem_append.1 hx with hx | hx
      · exact ihbelow hlbelow hx
      · exact ihafter hlafter hx

theorem children_eq_nil (h : t.Built) {x : NodeId} (hx : t.size ≤ x) : t.children x = [] :=
  List.eq_nil_iff_forall_not_mem.2 fun _ hc =>
    absurd (h.linked_children.lt_size hc).1 (Nat.not_lt.2 hx)

theorem children_appendChild (h : t.Built) {parent child : NodeId} (hp : parent < t.size)
    (hc : child < t.size) (hchild : t.Fresh child) (hne : parent ≠ child) (x : NodeId) :
    (t.appendChild parent child).children x =
      if x = parent then t.children parent ++ [child] else t.children x :=
  (h.linked_children.appendChild hp hc hchild.parent hne (hchild.not_below parent)).children_eq x

/-! ## Nodes shown by a growing tree -/

theorem ShowsAll.append {xs ys : List NodeId} {nodes nodes' : List Html.Node}
    (h : t.ShowsAll xs nodes) (h' : t.ShowsAll ys nodes') :
    t.ShowsAll (xs ++ ys) (nodes ++ nodes') := by
  induction xs generalizing nodes with
  | nil =>
    cases h
    exact h'
  | cons x xs ih =>
    cases h with
    | cons hx hxs => exact .cons hx (ih hxs)

theorem eq_nil_of_showsAll_nil (h : t.ShowsAll xs []) : xs = [] := by
  cases h
  rfl

mutual

/-- A node shows what it did when the tree has grown elsewhere. -/
theorem Shows.of_keeps {x : NodeId} {l : List NodeId} {node : Html.Node} (h : t.Shows x node)
    (ht : t.Built)    (hkeeps : t.Keeps t') (hl : Preorder t.children (t.children x) l)
    (hsame : ∀ y ∈ x :: l, t'.children y = t.children y) : t'.Shows x node := by
  obtain ⟨hx, hl'⟩ := List.forall_mem_cons.1 hsame
  have hcontent {content : Content} (h : (t.get? x).map Node.content = some content) :
      (t'.get? x).map Node.content = some content :=
    (hkeeps.content (lt_size_of_content h)).trans h
  match h with
  | .doctype hdoctype hleaf =>
    rw [← hkeeps.resolve (ht.knowsNames x _ _ hdoctype rfl)]
    exact .doctype (hcontent hdoctype) (hx.trans hleaf)
  | .element htag hchildren =>
    obtain ⟨_, _, hget, -⟩ := Html.content_of_tagName? htag
    have hsize := lt_size_of_content hget
    rw [← hkeeps.attributes_eq ht hsize]
    refine .element ((hkeeps.tagName?_eq ht hsize).trans htag) ?_
    rw [hx]
    exact hchildren.of_keeps ht hkeeps hl hl'
  | .text htext hleaf => exact .text (hcontent htext) (hx.trans hleaf)
  | .comment hcomment hleaf => exact .comment (hcontent hcomment) (hx.trans hleaf)
  | .instruction hinstruction hleaf =>
    rw [← hkeeps.resolve (ht.knowsNames x _ _ hinstruction rfl)]
    exact .instruction (hcontent hinstruction) (hx.trans hleaf)

theorem ShowsAll.of_keeps {xs l : List NodeId} {nodes : List Html.Node} (h : t.ShowsAll xs nodes)
    (ht : t.Built) (hkeeps : t.Keeps t') (hl : Preorder t.children xs l)
    (hsame : ∀ y ∈ l, t'.children y = t.children y) : t'.ShowsAll xs nodes := by
  match h with
  | .nil => exact .nil
  | .cons hx hxs =>
    cases hl with
    | cons hbelow hafter =>
      rw [List.forall_mem_append] at hsame
      exact .cons (hx.of_keeps ht hkeeps hbelow hsame.1) (hxs.of_keeps ht hkeeps hafter hsame.2)

end

end Tree

namespace Html

open MarkupQuery.Tree

/-! ## What is kept -/

/-- The characters that a text may consist of to be left out. -/
def markupBlanks : List Char := [' ', '\t', '\n', '\x0c', '\r']

mutual

/-- What is kept of a node.  An element keeps every attribute name once. -/
def Node.kept (keepBlank : Bool) : Node → List Node
  | .element tag attributes children =>
    [.element tag (lastEntries attributes) (keptAll keepBlank children)]
  | .text value =>
    if !keepBlank && value.toList.all markupBlanks.contains then [] else [.text value]
  | .doctype name publicId systemId => [.doctype name publicId systemId]
  | .comment value => [.comment value]
  | .instruction target data => [.instruction target data]

/-- What is kept of nodes one after another. -/
def keptAll (keepBlank : Bool) : List Node → List Node
  | [] => []
  | node :: rest => node.kept keepBlank ++ keptAll keepBlank rest

end

variable {keepBlank : Bool} {t t' : Tree} {parent : NodeId} {nodes : List Node}

theorem all_blanks_iff {value : String} :
    value.toList.all markupBlanks.contains = true ↔ ∀ c ∈ value.toList, c ∈ markupBlanks := by
  simp only [List.all_eq_true, List.contains_iff_mem]

theorem isBlankText_iff (value : String) :
    isBlankText value = true ↔ ∀ c ∈ value.toList, c ∈ markupBlanks := by
  have hblank (c : Char) : Text.isMarkupBlank c = true ↔ c ∈ markupBlanks := by
    simp only [Text.isMarkupBlank, Text.isBlank, markupBlanks, Bool.or_eq_true, beq_iff_eq,
      List.mem_cons, List.not_mem_nil, or_false]
    tauto
  simp only [isBlankText, List.all_eq_true, hblank]

theorem kept_text (keepBlank : Bool) (value : String) :
    (Node.text value).kept keepBlank =
      if !keepBlank && isBlankText value then [] else [.text value] := by
  have hblank : value.toList.all markupBlanks.contains = isBlankText value := by
    rw [Bool.eq_iff_iff, isBlankText_iff, all_blanks_iff]
  rw [Node.kept, hblank]

theorem kept_of_createNode_eq_none {node : Node} (h : createNode keepBlank t node = none) :
    node.kept keepBlank = [] := by
  cases node with
  | text value =>
    rw [kept_text]
    split
    · rfl
    · rename_i hblank
      rw [createNode, if_neg hblank] at h
      cases h
  | element | doctype | comment | instruction => cases h

theorem made_element (ht : t.Built) (tag : String) (attributes : List (String × String)) :
    ((t.createElement tag).2.setAttributes t.size attributes).tagName? t.size = some tag ∧
      ((t.createElement tag).2.setAttributes t.size attributes).attributes t.size =
        lastEntries attributes := by
  have hnew := content_createElement t tag
  have hempty : (t.createElement tag).2.attributes t.size = [] := by
    rw [Tree.attributes, attributeList_of_content hnew, List.map_nil]
  obtain ⟨⟨_, hset⟩, hattributes⟩ := setAttributes_self (ht.createElement tag) hnew attributes
  have hkeeps : (t.intern tag).2.Keeps ((t.createElement tag).2.setAttributes t.size attributes) :=
    (Keeps.push (t.intern tag).2 _).setAttributes (Nat.le_refl _) attributes
  constructor
  · have hresolve := hkeeps.resolve (ht.namesValid.table.intern_lt tag)
    rw [content_eq_element hset]
    exact congrArg some (hresolve.trans (ht.namesValid.table.resolve_intern tag))
  · rw [hattributes, hempty, foldl_assignEntry]

/-- A made node shows what is kept of it when, later on, its children show what is kept of them. -/
theorem showsAll_of_createNode (ht : t.Built) {node : Node} {id : NodeId} {made : Tree}
    (h : createNode keepBlank t node = some (id, made)) (hkeeps : made.Keeps t')
    (hchildren : t'.ShowsAll (t'.children id) (keptAll keepBlank node.children)) :
    t'.ShowsAll [id] (node.kept keepBlank) := by
  obtain ⟨rfl, hmade⟩ := made_of_createNode ht h
  have hcontent {content : Content} (hx : (made.get? t.size).map Node.content = some content) :
      (t'.get? t.size).map Node.content = some content :=
    (hkeeps.content (lt_size_of_content hx)).trans hx
  have hspelled {content : Content} {name : NameId} {spelling : String}
      (hx : (made.get? t.size).map Node.content = some content)
      (hname : content.name? = some name) (hresolve : made.resolve name = spelling) :
      t'.resolve name = spelling :=
    (hkeeps.resolve (hmade.built.knowsNames _ _ _ hx hname)).trans hresolve
  cases node with
  | doctype name publicId systemId =>
    cases h
    have hx := content_push_self (t.intern name).2 (.doctype (t.intern name).1 publicId systemId)
    have hname := hspelled hx rfl (ht.namesValid.table.resolve_intern name)
    have hshows := Shows.doctype (hcontent hx) (eq_nil_of_showsAll_nil hchildren)
    rw [hname] at hshows
    exact .cons hshows .nil
  | element tag attributes children =>
    obtain ⟨htag, hattributes⟩ := made_element ht tag attributes
    obtain rfl : (t.createElement tag).2.setAttributes t.size attributes = made :=
      (Prod.mk.inj (Option.some.inj h)).2
    have hsize := Nat.lt_of_lt_of_eq (Nat.lt_succ_self t.size) hmade.size_eq.symm
    rw [← hkeeps.tagName?_eq hmade.built hsize] at htag
    rw [← hkeeps.attributes_eq hmade.built hsize] at hattributes
    rw [Node.kept, ← hattributes]
    exact .cons (.element htag hchildren) .nil
  | text value =>
    obtain ⟨hkept, hsome⟩ := Option.ite_none_left_eq_some.1 h
    cases hsome
    rw [kept_text, if_neg hkept]
    have hx := content_push_self t (.text value)
    exact .cons (.text (hcontent hx) (eq_nil_of_showsAll_nil hchildren)) .nil
  | comment value =>
    cases h
    have hx := content_push_self t (.comment value)
    exact .cons (.comment (hcontent hx) (eq_nil_of_showsAll_nil hchildren)) .nil
  | instruction target data =>
    cases h
    have hx := content_push_self (t.intern target).2 (.instruction (t.intern target).1 data)
    have hname := hspelled hx rfl (ht.namesValid.table.resolve_intern target)
    have hshows := Shows.instruction (hcontent hx) (eq_nil_of_showsAll_nil hchildren)
    rw [hname] at hshows
    exact .cons hshows .nil

/-! ## Entering -/

/-- What entering makes of a tree `t`: the nodes `xs`, which show `nodes`, come behind the children
of `parent`; they and what is below them have the numbers from the size of `t` on, in preorder; and
all that was there before is as it was. -/
structure Entered (t t' : Tree) (parent : NodeId) (xs : List NodeId) (nodes : List Node) :
    Prop where
  built : t'.Built
  keeps : t.Keeps t'
  children_parent : t'.children parent = t.children parent ++ xs
  children_other {x : NodeId} (hx : x < t.size) (hne : x ≠ parent) : t'.children x = t.children x
  preorder : Preorder t'.children xs (List.range' t.size (t'.size - t.size))
  shows : t'.ShowsAll xs nodes

namespace Entered

theorem nil (ht : t.Built) (parent : NodeId) : Entered t t parent [] [] where
  built := ht
  keeps := .refl t
  children_parent := (List.append_nil _).symm
  children_other _ _ := rfl
  preorder := by
    rw [Nat.sub_self]
    exact .nil
  shows := .nil

/-- One step: a node is made and attached, its children are entered, and then the nodes after it. -/
theorem cons {made below : Tree} {node : Node} {ys zs : List NodeId} {rest : List Node}
    (ht : t.Built) (hparent : parent < t.size)
    (hnode : createNode keepBlank t node = some (t.size, made)) (hmade : Made t made)
    (hbelow : Entered (made.appendChild parent t.size) below t.size ys
      (keptAll keepBlank node.children))
    (hrest : Entered below t' parent zs rest) :
    Entered t t' parent (t.size :: zs) (node.kept keepBlank ++ rest) := by
  have hne : parent ≠ t.size := Nat.ne_of_lt hparent
  have hattachedSize : (made.appendChild parent t.size).size = t.size + 1 :=
    (size_appendChild made parent t.size).trans hmade.size_eq
  have hbelowSize : t.size + 1 ≤ below.size := hattachedSize ▸ hbelow.keeps.size_le
  have hsize := hrest.keeps.size_le
  have hgrows : t.size ≤ (made.appendChild parent t.size).size := by omega
  have hparentAttached := Nat.lt_of_lt_of_le hparent hgrows
  have hkids : made.children = t.children :=
    funext (hmade.linked ht.linked_children).children_eq
  have hattached (x : NodeId) : (made.appendChild parent t.size).children x =
      if x = parent then t.children parent ++ [t.size] else t.children x := by
    have hnew : t.size < made.size := by have := hmade.size_eq; omega
    rw [children_appendChild hmade.built (Nat.lt_trans hparent hnew) hnew hmade.fresh hne, hkids]
  have hchildren : t'.children t.size = ys := by
    rw [hrest.children_other hbelowSize hne.symm, hbelow.children_parent, hattached,
      if_neg hne.symm, children_eq_nil ht (Nat.le_refl _), List.nil_append]
  -- what was entered below the new node is not touched by the nodes after it
  have hsame : ∀ x ∈ List.range' (made.appendChild parent t.size).size
      (below.size - (made.appendChild parent t.size).size), t'.children x = below.children x := by
    intro x hx
    rw [hattachedSize, List.mem_range'_1] at hx
    have hlt : x < below.size := by omega
    exact hrest.children_other hlt (Nat.ne_of_gt (Nat.lt_trans hparent hx.1))
  have hshows : t'.ShowsAll ys (keptAll keepBlank node.children) :=
    hbelow.shows.of_keeps hbelow.built hrest.keeps hbelow.preorder hsame
  have hpreorder := hbelow.preorder.congr hsame
  have hkeeps : made.Keeps t' :=
    ((Keeps.appendChild made parent t.size).trans hbelow.keeps).trans hrest.keeps
  constructor
  case built => exact hrest.built
  case keeps => exact hmade.keeps.trans hkeeps
  case children_parent =>
    rw [hrest.children_parent, hbelow.children_other hparentAttached hne, hattached, if_pos rfl,
      List.append_assoc, List.singleton_append]
  case children_other =>
    intro x hx hxne
    have hxattached := Nat.lt_of_lt_of_le hx hgrows
    rw [hrest.children_other (Nat.lt_of_lt_of_le hxattached hbelow.keeps.size_le) hxne,
      hbelow.children_other hxattached (Nat.ne_of_lt hx), hattached, if_neg hxne]
  case preorder =>
    rw [hattachedSize] at hpreorder
    have hcons := Preorder.cons (hchildren.symm ▸ hpreorder) hrest.preorder
    rwa [cons_range'_append hbelowSize hsize] at hcons
  case shows =>
    exact (showsAll_of_createNode ht hnode hkeeps (hchildren.symm ▸ hshows)).append hrest.shows

end Entered

/-- Entering nodes does what it should, whatever the nodes are. -/
theorem Enters.entered (h : Enters keepBlank t parent nodes t') (ht : t.Built)
    (hparent : parent < t.size) :
    ∃ xs, Entered t t' parent xs (keptAll keepBlank nodes) := by
  induction h with
  | nil => exact ⟨[], .nil ht _⟩
  | skip hnode _ ih =>
    obtain ⟨xs, hxs⟩ := ih ht hparent
    rw [keptAll, kept_of_createNode_eq_none hnode]
    exact ⟨xs, hxs⟩
  | enter hnode _ _ ihbelow ihrest =>
    obtain ⟨rfl, hmade⟩ := made_of_createNode ht hnode
    have hsize := hmade.size_eq
    rw [← size_appendChild] at hsize
    obtain ⟨ys, hys⟩ := ihbelow (hmade.built.attach hmade.fresh _)
      (Nat.lt_of_lt_of_eq (Nat.lt_succ_self _) hsize.symm)
    have hgrows := Nat.le_of_succ_le (Nat.le_trans (Nat.le_of_eq hsize.symm) hys.keeps.size_le)
    obtain ⟨zs, hzs⟩ := ihrest hys.built (Nat.lt_of_lt_of_le hparent hgrows)
    exact ⟨_, .cons ht hparent hnode hmade hys hzs⟩

/-! ## The whole document -/

/-- A tree is that of a document with `nodes`: it shows them and nothing else, and its nodes are
numbered in document order, which puts parents before their children. -/
structure TellsDocument (t : Tree) (nodes : List Node) : Prop where
  document : (t.get? root).map Node.content = some .document
  shows : t.ShowsAll (t.children root) nodes
  attached {x : NodeId} (hx : x < t.size) : t.Inside x root
  position {x : NodeId} (hx : x < t.size) : t.rank? x = some x
  parent_lt {x p : NodeId} (h : t.Up x p) : p < x

theorem entered_treeOfNodes (keepBlank : Bool) (nodes : List Node) :
    ∃ xs, Entered .empty (treeOfNodes keepBlank nodes) root xs (keptAll keepBlank nodes) :=
  (enters_treeOfNodes keepBlank nodes).entered .empty Nat.one_pos

theorem Entered.children_root {xs : List NodeId} (h : Entered .empty t root xs nodes) :
    t.children root = xs := by
  have hnone : Tree.empty.children root = [] := linked_empty.children_eq root
  rw [h.children_parent, hnone, List.nil_append]

/-- The numbers of a document entered into an empty tree are its document order. -/
theorem Entered.descendants_root {xs : List NodeId} (h : Entered .empty t root xs nodes) :
    root :: t.descendants root = List.range t.size := by
  have hpreorder : Preorder t.children (t.children root) (List.range' 1 (t.size - 1)) :=
    h.children_root.symm ▸ h.preorder
  have hpos : 1 ≤ t.size := h.keeps.size_le
  obtain ⟨n, hn⟩ := Nat.exists_eq_add_of_le hpos
  rw [h.built.linked_children.descendants_eq hpreorder, hn, Nat.add_sub_cancel_left,
    List.range_eq_range', Nat.add_comm, List.range'_succ]
  rfl

theorem Entered.tellsDocument {xs : List NodeId} (h : Entered .empty t root xs nodes) :
    TellsDocument t nodes := by
  have hlinked := h.built.linked_children
  have horder := h.descendants_root
  have hattached (x : NodeId) (hx : x < t.size) : t.Inside x root := by
    rw [← hlinked.mem_attached, horder]
    exact List.mem_range.2 hx
  constructor
  case document => exact h.keeps.content Nat.one_pos
  case shows => exact h.children_root.symm ▸ h.shows
  case attached => exact hattached _
  case position =>
    intro x hx
    refine h.built.assembled.rank?_eq_of_getElem? ?_
    rw [documentOrder_eq, horder, List.getElem?_append_left (by simpa using hx),
      List.getElem?_range hx]
  case parent_lt =>
    intro x p hup
    have hpreorder := hlinked.preorder_root
    rw [horder] at hpreorder
    have hchild := hlinked.up_iff.1 hup
    exact hpreorder.lt_of_mem_kids List.pairwise_lt_range
      (List.mem_range.2 (hlinked.lt_size hchild).1) hchild

/-- The tree of a document shows what is kept of its nodes, in whatever way they are nested, and
its numbers follow document order. -/
theorem tellsDocument_treeOfNodes (keepBlank : Bool) (nodes : List Node) :
    TellsDocument (treeOfNodes keepBlank nodes) (keptAll keepBlank nodes) := by
  obtain ⟨xs, hxs⟩ := entered_treeOfNodes keepBlank nodes
  exact hxs.tellsDocument

/-- With the numbers of document order the tree of a document shows what it shows without them. -/
theorem showsAll_rankNodes (keepBlank : Bool) (nodes : List Node) :
    (treeOfNodes keepBlank nodes).rankNodes.ShowsAll
      ((treeOfNodes keepBlank nodes).rankNodes.children root) (keptAll keepBlank nodes) := by
  obtain ⟨xs, hxs⟩ := entered_treeOfNodes keepBlank nodes
  have hkids := funext hxs.built.linked_children.rankNodes.children_eq
  rw [← hxs.children_root] at hxs
  rw [hkids]
  exact hxs.shows.of_keeps hxs.built (.rankNodes _) hxs.preorder fun x _ => congrFun hkids x

mutual

/-- The tags of a node and of what is below it in document order, none where there is no tag. -/
def Node.tags : Node → List (Option String)
  | .element tag _ children => some tag :: tagsAll children
  | _ => [none]

/-- The tags of nodes one after another. -/
def tagsAll : List Node → List (Option String)
  | [] => []
  | node :: rest => node.tags ++ tagsAll rest

end

theorem map_tagName?_of_showsAll {xs l : List NodeId} (hl : Preorder t.children xs l)
    (h : t.ShowsAll xs nodes) : l.map t.tagName? = tagsAll nodes := by
  induction hl generalizing nodes with
  | nil =>
    cases h
    rfl
  | @cons x rest below after _ _ ihbelow ihafter =>
    cases h with
    | @cons _ _ node nodes hx hrest =>
      have hbelow (hleaf : t.children x = []) : below.map t.tagName? = tagsAll [] :=
        ihbelow (hleaf.symm ▸ ShowsAll.nil)
      have hnode : t.tagName? x :: below.map t.tagName? = node.tags := by
        cases hx with
        | element htag hchildren => rw [ihbelow hchildren, htag, Node.tags]
        | doctype hcontent hleaf | text hcontent hleaf | comment hcontent hleaf
        | instruction hcontent hleaf =>
          rw [hbelow hleaf, tagName?_eq_none hcontent (by simp [Content.kind])]
          rfl
      rw [List.cons_append, List.map_cons, List.map_append, ihafter hrest, tagsAll, ← hnode,
        List.cons_append]

end Html

/-- The tags of a document in document order are those of its nodes. -/
theorem Document.map_tagName?_descendants (number : Nat) (nodes : List Html.Node)
    (config : Config) :
    ((ofNodes number nodes config).tree.descendants Tree.root).map
      (ofNodes number nodes config).tree.tagName? =
        Html.tagsAll (Html.keptAll config.keepBlankText nodes) :=
  Html.map_tagName?_of_showsAll
    ((built_ofNodes number nodes config).linked_children.preorder_descendants Tree.root)
    (Html.showsAll_rankNodes config.keepBlankText nodes)

end MarkupQuery
