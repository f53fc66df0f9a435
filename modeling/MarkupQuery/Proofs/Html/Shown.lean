import MarkupQuery.Proofs.Html.Markup

/-!
# What a tree shows

A node of a tree with all that is below it is a node of a markup text: its kind, its names spelled
out, its contents, and its children in order.  The writer goes through the tree with a stack of
pending work; what it writes is the markup of the node shown, which is told by recursion.
-/

namespace MarkupQuery

namespace Tree

mutual

/-- A node of a tree with what is below it, as a node of a markup text.  Only elements have nodes
below them. -/
inductive Shows (t : Tree) : NodeId → Html.Node → Prop where
  | doctype {x : NodeId} {name : NameId} {publicId systemId : String}
      (hx : (t.get? x).map Node.content = some (.doctype name publicId systemId))
      (hleaf : t.children x = []) : Shows t x (.doctype (t.resolve name) publicId systemId)
  | element {x : NodeId} {tag : String} {children : List Html.Node}
      (htag : t.tagName? x = some tag) (hchildren : ShowsAll t (t.children x) children) :
      Shows t x (.element tag (t.attributes x) children)
  | text {x : NodeId} {value : String} (hx : (t.get? x).map Node.content = some (.text value))
      (hleaf : t.children x = []) : Shows t x (.text value)
  | comment {x : NodeId} {value : String}
      (hx : (t.get? x).map Node.content = some (.comment value))
      (hleaf : t.children x = []) : Shows t x (.comment value)
  | instruction {x : NodeId} {target : NameId} {data : String}
      (hx : (t.get? x).map Node.content = some (.instruction target data))
      (hleaf : t.children x = []) : Shows t x (.instruction (t.resolve target) data)

/-- Nodes of a tree one after another, as nodes of a markup text. -/
inductive ShowsAll (t : Tree) : List NodeId → List Html.Node → Prop where
  | nil : ShowsAll t [] []
  | cons {x : NodeId} {xs : List NodeId} {node : Html.Node} {nodes : List Html.Node}
      (hx : Shows t x node) (hxs : ShowsAll t xs nodes) : ShowsAll t (x :: xs) (node :: nodes)

end

variable {t : Tree} {kids : NodeId → List NodeId}

theorem content_eq_element {x : NodeId} {name : NameId} {attributes : List Attribute}
    (hx : (t.get? x).map Node.content = some (.element name attributes)) :
    t.tagName? x = some (t.resolve name) := by
  obtain ⟨n, hn, hcontent⟩ := Option.map_eq_some_iff.1 hx
  rw [tagName?, hn, Option.bind_some, Node.tag?, hcontent, Option.map_some]

theorem tagName?_eq_none {x : NodeId} {content : Content}
    (hx : (t.get? x).map Node.content = some content) (hkind : content.kind ≠ .element) :
    t.tagName? x = none := by
  obtain ⟨n, hn, rfl⟩ := Option.map_eq_some_iff.1 hx
  rw [tagName?, hn, Option.bind_some, Node.tag?]
  split
  · rename_i hcontent
    rw [hcontent] at hkind
    exact absurd rfl hkind
  · rfl

/-- A node is shown when its children are. -/
theorem exists_shows_of_children {x : NodeId} {children : List Html.Node} (hx : x < t.size)
    (hdocument : (t.get? x).map Node.content ≠ some .document)
    (hleaf : t.tagName? x = none → t.children x = [])
    (hchildren : t.ShowsAll (t.children x) children) : ∃ node, t.Shows x node := by
  obtain ⟨n, hn⟩ := exists_get?_of_lt hx
  have hcontent : (t.get? x).map Node.content = some n.content := by rw [hn, Option.map_some]
  have hnone (hkind : n.content.kind ≠ .element) : t.children x = [] :=
    hleaf (tagName?_eq_none hcontent hkind)
  cases heq : n.content with
  | document => exact absurd (heq ▸ hcontent) hdocument
  | element name attributes =>
    exact ⟨_, .element (content_eq_element (heq ▸ hcontent)) hchildren⟩
  | doctype name publicId systemId =>
    exact ⟨_, .doctype (heq ▸ hcontent) (hnone (by simp [heq, Content.kind]))⟩
  | text value => exact ⟨_, .text (heq ▸ hcontent) (hnone (by simp [heq, Content.kind]))⟩
  | comment value => exact ⟨_, .comment (heq ▸ hcontent) (hnone (by simp [heq, Content.kind]))⟩
  | instruction target data =>
    exact ⟨_, .instruction (heq ▸ hcontent) (hnone (by simp [heq, Content.kind]))⟩

/-- A node is shown when no document is below it and only elements have children there. -/
theorem Linked.exists_shows (h : t.Linked kids) {x : NodeId} (hx : x < t.size)
    (hdocument : ∀ y, t.Inside y x → (t.get? y).map Node.content ≠ some .document)
    (hleaf : ∀ y, t.Inside y x → t.tagName? y = none → t.children y = []) :
    ∃ node, t.Shows x node := by
  have forest {xs l : List NodeId} (hl : Preorder kids xs l)
      (hxs : ∀ y ∈ xs, y < t.size ∧ t.Inside y x) : ∃ nodes, t.ShowsAll xs nodes := by
    induction hl with
    | nil => exact ⟨[], .nil⟩
    | @cons y rest below after _ _ ihbelow ihafter =>
      obtain ⟨⟨hy, hinside⟩, hrest⟩ := List.forall_mem_cons.1 hxs
      obtain ⟨nodes, hnodes⟩ := ihafter hrest
      obtain ⟨children, hchildren⟩ := ihbelow fun c hc =>
        ⟨(h.lt_size hc).2, hinside.head (h.up_iff.2 hc)⟩
      rw [← h.children_eq] at hchildren
      obtain ⟨node, hnode⟩ := exists_shows_of_children hy (hdocument y hinside) (hleaf y hinside)
        hchildren
      exact ⟨node :: nodes, .cons hnode hnodes⟩
  obtain ⟨l, hl⟩ := h.exists_preorder [x]
  obtain ⟨nodes, hnodes⟩ := forest hl fun y hy => by
    obtain rfl := List.mem_singleton.1 hy
    exact ⟨hx, .refl⟩
  cases hnodes with
  | cons hnode _ => exact ⟨_, hnode⟩

end Tree

namespace Html

open MarkupQuery.Tree

/-- The text of a node that is a text. -/
def Node.ownText? : Node → Option String
  | text value => some value
  | _ => none

mutual

/-- The markup of a node with what is below it. -/
def Node.markup : Node → String
  | .doctype name publicId systemId => doctypeText name publicId systemId
  | .element tag attributes children =>
    if tag ∈ voidElements then startTag tag attributes
    else if tag ∈ rawTextElements then
      startTag tag attributes ++ String.join (children.filterMap Node.ownText?) ++ endTag tag
    else startTag tag attributes ++ markupAll children ++ endTag tag
  | .text value => escapeText value
  | .comment value => commentText value
  | .instruction target data => instructionText target data

/-- The markup of nodes one after another. -/
def markupAll : List Node → String
  | [] => ""
  | node :: rest => node.markup ++ markupAll rest

end

variable {t : Tree} {kids : NodeId → List NodeId} {x : NodeId}

theorem outerMarkup_of_visit (h : t.Linked kids) (hx : x < t.size) {text : String}
    (hvisit : Frame.visit t (.node x) = (text, [])) : outerMarkup t x = text := by
  have hwrites : Writes t (Frame.visit t (.node x)).2 0 "" := hvisit ▸ .done
  rw [outerMarkup_eq_visit h hx hwrites, hvisit, String.append_empty]

/-- A void element is written as its start tag. -/
theorem outerMarkup_void (h : t.Linked kids) {tag : String} (htag : t.tagName? x = some tag)
    (hvoid : tag ∈ voidElements) : outerMarkup t x = startTag tag (t.attributes x) := by
  obtain ⟨name, attributes, hx, rfl⟩ := content_of_tagName? htag
  refine outerMarkup_of_visit h (lt_size_of_content hx) ?_
  rw [Frame.visit, hx]
  simp [hvoid]

theorem text?_eq_ownText? {node : Node} (hx : t.Shows x node) :
    (t.get? x).bind Node.text? = node.ownText? := by
  have hnone {content : Content} (hx : (t.get? x).map Node.content = some content)
      (hcontent : ∀ value, content ≠ .text value) : (t.get? x).bind Node.text? = none := by
    refine Option.eq_none_iff_forall_ne_some.2 fun value hvalue => hcontent value ?_
    rw [text?_eq_some_iff.1 hvalue] at hx
    exact (Option.some.inj hx).symm
  cases hx with
  | text hx => exact text?_eq_some_iff.2 hx
  | element htag =>
    obtain ⟨name, attributes, hx, -⟩ := content_of_tagName? htag
    exact hnone hx (by simp)
  | doctype hx | comment hx | instruction hx => exact hnone hx (by simp)

theorem filterMap_ownText? {xs : List NodeId} {nodes : List Node} (hxs : t.ShowsAll xs nodes) :
    xs.filterMap (fun c => (t.get? c).bind Node.text?) = nodes.filterMap Node.ownText? := by
  match hxs with
  | .nil => rfl
  | .cons hx hxs => rw [List.filterMap_cons, List.filterMap_cons, text?_eq_ownText? hx,
      filterMap_ownText? hxs]

mutual

/-- What is written of a node is the markup of what it shows. -/
theorem outerMarkup_of_shows (h : t.Linked kids) {x : NodeId} {node : Node}
    (hx : t.Shows x node) : outerMarkup t x = node.markup := by
  match hx with
  | .doctype hx _ | .comment hx _ | .instruction hx _ =>
    refine outerMarkup_of_visit h (lt_size_of_content hx) ?_
    rw [Frame.visit, hx, Node.markup]
  | .text hx _ => rw [outerMarkup_text h hx, Node.markup]
  | .element htag hchildren =>
    rename_i tag children
    rw [Node.markup]
    split_ifs with hvoid hraw
    · exact outerMarkup_void h htag hvoid
    · rw [outerMarkup_element h htag hvoid, if_pos hraw, rawText, filterMap_ownText? hchildren]
    · rw [outerMarkup_element h htag hvoid, if_neg hraw, innerMarkup_eq_join h,
        join_outerMarkup_of_showsAll h hchildren]

theorem join_outerMarkup_of_showsAll (h : t.Linked kids) {xs : List NodeId} {nodes : List Node}
    (hxs : t.ShowsAll xs nodes) : String.join (xs.map (outerMarkup t)) = markupAll nodes := by
  match hxs with
  | .nil => rfl
  | .cons hx hxs =>
    rw [List.map_cons, String.join_cons, outerMarkup_of_shows h hx,
      join_outerMarkup_of_showsAll h hxs, markupAll]

end

/-- A new element shows its tag and its text. -/
theorem shows_addElement (tag text : String) (ht : t.Built) :
    (addElement t tag text).Shows t.size (.element tag [] [.text text]) := by
  have hattributes : (addElement t tag text).attributes t.size = [] := by
    obtain ⟨n, hn, hcontent⟩ := Option.map_eq_some_iff.1 (content_addElement (t := t) tag text)
    simp [Tree.attributes, Tree.attributeList, hn, MarkupQuery.Node.attributes, hcontent]
  rw [← hattributes]
  refine .element (tagName?_addElement tag text ht) ?_
  rw [children_addElement tag text ht]
  exact .cons (.text (content_addElement_text tag text) (children_addElement_text tag text ht)) .nil

end Html

end MarkupQuery
