import MarkupQuery.Proofs.Document.Searches
import MarkupQuery.Proofs.Html.Alike

/-!
# Documents without blank texts

A document may be read with the texts of blanks or without them.  Its elements are the same either
way, a search for elements finds the same ones in the same order, and an element consists of the
same text or comment.  The blanks of markup are white space, so that they count for nothing there.
-/

namespace MarkupQuery

open XPath

/-! ## Wordings -/

namespace Item

/-- The kind of an item, and its content unless it is an element. -/
def wording (item : Item) : ItemKind × Option String := (item.kind, item.content?)

end Item

namespace Document

/-- The elements of a document in document order. -/
def elements (d : Document) : List NodeId := (d.tree.descendants Tree.root).filter d.tree.isElement

/-- The wording of a node's item, unless it is a text of white space. -/
def wording? (d : Document) (id : NodeId) : Option (ItemKind × Option String) :=
  ((d.item id).toOption.filter (!·.isWhiteText)).map Item.wording

end Document

variable {a b d : Document} {x y : NodeId} {xs ys : List NodeId} {pairs : List (NodeId × NodeId)}

theorem isWhiteSpace_of_mem_markupBlanks {c : Char} (h : c ∈ Html.markupBlanks) :
    Text.isWhiteSpace c = true := by
  simp only [Html.markupBlanks, List.mem_cons, List.not_mem_nil, or_false] at h
  rcases h with rfl | rfl | rfl | rfl | rfl <;> simp [Text.isWhiteSpace]

/-- The wording of a read node, unless it is a text of white space. -/
def Html.Node.wording? : Html.Node → Option (ItemKind × Option String)
  | .text value => if (Text.trim value).isEmpty then none else some (.text, some value)
  | .comment value => some (.comment, some value)
  | .element .. => some (.element, none)
  | .doctype .. | .instruction .. => none

theorem trim_of_blanks {value : String} (h : ∀ c ∈ value.toList, c ∈ Html.markupBlanks) :
    (Text.trim value).isEmpty = true := by
  have hdrop : value.toList.dropWhile Text.isWhiteSpace = [] :=
    List.dropWhile_eq_nil_iff.2 fun c hc => isWhiteSpace_of_mem_markupBlanks (h c hc)
  rw [Text.trim, Text.strip, hdrop]
  rfl

theorem Document.item_of_content {content : Content}
    (hx : (d.tree.get? x).map Node.content = some content) :
    d.item x = match ItemKind.ofNodeKind? content.kind with
      | some kind => .ok ⟨d, kind, x⟩
      | none => .error (.unknownNodeKind (.kind content.kind)) := by
  obtain ⟨n, hn, rfl⟩ := Option.map_eq_some_iff.1 hx
  simp only [item, hn]
  rfl

theorem wording?_of_element {tag : String} (h : d.tree.tagName? x = some tag) :
    d.wording? x = some (.element, none) := by
  rw [Document.wording?, Document.item_of_tagName? h]
  rfl

theorem wording?_of_shows {node : Html.Node} (h : d.tree.Shows x node) :
    d.wording? x = node.wording? := by
  cases h with
  | doctype hx | instruction hx =>
    rw [Document.wording?, Document.item_of_content hx]
    rfl
  | element htag =>
    exact wording?_of_element htag
  | @comment _ value hx =>
    have hcontent : (⟨d, .comment, x⟩ : Item).content? = some value := by
      obtain ⟨n, hn, hcontent⟩ := Option.map_eq_some_iff.1 hx
      simp [Item.content?, Item.tree, hn, Node.comment?, hcontent]
    rw [Document.wording?, Document.item_of_content hx]
    exact congrArg (fun content => some (ItemKind.comment, content)) hcontent
  | @text _ value hx =>
    have hcontent : (⟨d, .text, x⟩ : Item).content? = some value := by
      obtain ⟨n, hn, hcontent⟩ := Option.map_eq_some_iff.1 hx
      simp [Item.content?, Item.tree, hn, Node.text?, hcontent]
    have hwhite : (⟨d, .text, x⟩ : Item).isWhiteText = (Text.trim value).isEmpty := by
      rw [Item.isWhiteText, hcontent]
      rfl
    rw [Document.wording?, Document.item_of_content hx, Html.Node.wording?]
    change ((some (⟨d, .text, x⟩ : Item)).filter (!·.isWhiteText)).map Item.wording = _
    rw [Option.filter_some, hwhite]
    cases (Text.trim value).isEmpty
    · exact congrArg (fun content => some (ItemKind.text, content)) hcontent
    · rfl

/-- Texts of blanks aside, alike nodes have the same wordings. -/
theorem wordings_eq (h : Tree.Alike a.tree b.tree xs ys pairs) :
    xs.filterMap a.wording? = ys.filterMap b.wording? := by
  induction h with
  | nil => rfl
  | @blank x value xs ys pairs hx hvalue _ ih =>
    have hnone : a.wording? x = none := by
      rw [wording?_of_shows hx, Html.Node.wording?, if_pos (trim_of_blanks hvalue)]
    rw [List.filterMap_cons_none hnone, ih]
  | leaf hx hy _ _ ih =>
    rw [List.filterMap_cons, List.filterMap_cons, wording?_of_shows hx, wording?_of_shows hy, ih]
  | element hx hy _ _ _ _ ih =>
    rw [List.filterMap_cons, List.filterMap_cons, wording?_of_element hx, wording?_of_element hy,
      ih]

/-! ## Own strings -/

theorem map_wording_childItems (d : Document) (id : NodeId) :
    ((d.childItems id).filter (!·.isWhiteText)).map Item.wording =
      (d.tree.children id).filterMap d.wording? := by
  rw [Document.childItems, List.filter_filterMap, List.map_filterMap]
  rfl

/-- What an element consists of is told by the wordings of its children. -/
theorem map_wording_ownString? (d : Document) (id : NodeId) :
    (d.element id).ownString?.map Item.wording =
      if ((d.tree.children id).filterMap d.wording?).length = 1 then
        ((d.tree.children id).filterMap d.wording?).head?.filter (·.1 != .element)
      else none := by
  rw [← map_wording_childItems]
  have hkind : (d.element id).kind = .element := rfl
  have hchildren : (d.element id).children = d.childItems id := rfl
  rw [Item.ownString?, hchildren]
  simp only [hkind]
  generalize (d.childItems id).filter (!·.isWhiteText) = items
  rcases items with _ | ⟨⟨document, kind, id⟩, _ | ⟨second, others⟩⟩
  · rfl
  · cases kind <;> rfl
  · rfl

/-! ## Searches -/

namespace Filter

theorem accepts_congr {config config' : Config}
    (hconfig : config.listAttributes = config'.listAttributes) :
    Accepts config = Accepts config' := by
  funext name wanted actual
  rw [Accepts, Accepts, Config.isListAttribute, Config.isListAttribute, hconfig]

variable {s t : Tree} {config config' : Config} {x y : NodeId}

theorem AttributeTest.admits_congr (hconfig : config.listAttributes = config'.listAttributes)
    (hattributes : s.attributes x = t.attributes y) (name : String) (test : AttributeTest) :
    test.Admits config s x name ↔ test.Admits config' t y name := by
  cases test <;>
    simp only [AttributeTest.Admits, hattributes, accepts_congr hconfig]

theorem seeksLeaves_eq_false {spec : Spec} (h : spec.name ≠ .unspecified) :
    spec.seeksLeaves = false := by
  rw [Spec.seeksLeaves, decide_eq_false h, Bool.false_and]

theorem AttributesTest.admits_congr (hconfig : config.listAttributes = config'.listAttributes)
    (hattributes : s.attributes x = t.attributes y) (test : AttributesTest) :
    test.Admits config s x ↔ test.Admits config' t y := by
  have hadmits := AttributeTest.admits_congr hconfig hattributes
  cases test <;> simp only [AttributesTest.Admits, hattributes, hadmits]

/-- Without a test by text an element answers to a normal form by its tag and its attributes. -/
theorem Spec.matches_congr {spec : Spec} (hname : spec.name ≠ .unspecified)
    (htext : spec.text = .unspecified) (hconfig : config.listAttributes = config'.listAttributes)
    (htag : s.tagName? x = t.tagName? y) (hattributes : s.attributes x = t.attributes y) :
    spec.Matches config s x ↔ spec.Matches config' t y := by
  have hleaves := seeksLeaves_eq_false hname
  have hadmits := AttributesTest.admits_congr hconfig hattributes spec.attributes
  have htexts (t : Tree) (x : NodeId) : spec.text.AdmitsElement t x := by
    rw [htext]
    trivial
  rw [Matches, Matches, hleaves, if_neg Bool.false_ne_true, if_neg Bool.false_ne_true]
  constructor
  · intro h
    exact ⟨htag ▸ h.name, hadmits.1 h.attributes, htexts t y⟩
  · intro h
    exact ⟨htag ▸ h.name, hadmits.2 h.attributes, htexts s x⟩

end Filter

/-- What a search for elements finds, as a part of all elements. -/
theorem found_eq_filter {spec : Filter.Spec} {scope : Scope} {found : List NodeId}
    (ht : d.tree.Built) (hname : spec.name ≠ .unspecified)
    (hscope : d.tree.Inside scope.start Tree.root)
    (h : Filter.Selects d.config d.tree spec scope found) :
    found = d.elements.filter (· ∈ found) := by
  have helement : ∀ x ∈ found, d.tree.isElement x = true := by
    intro x hx
    have hmatches := ((h.mem_iff x).1 hx).2
    rw [Filter.Spec.Matches, Filter.seeksLeaves_eq_false hname, if_neg Bool.false_ne_true]
      at hmatches
    obtain ⟨tag, htag, -⟩ := hmatches.name
    rw [Tree.isElement_eq, htag]
    rfl
  have helements : found.Sublist d.elements := by
    have hfilter := (h.sublist_below ht hscope).filter d.tree.isElement
    rwa [List.filter_eq_self.2 helement] at hfilter
  have hnodup := (ht.linked_children.nodup_descendants Tree.root).filter d.tree.isElement
  exact Tree.eq_filter_of_sublist hnodup helements

/-! ## Documents with and without blank texts -/

/-- Two documents have the same elements, paired off in document order: with the same tags and
attributes, and with own strings of the same kind and content, if they have any. -/
structure SameElements (a b : Document) (pairs : List (NodeId × NodeId)) : Prop where
  left : pairs.map Prod.fst = a.elements
  right : pairs.map Prod.snd = b.elements
  tagName : ∀ p ∈ pairs, (a.element p.1).tagName = (b.element p.2).tagName
  attributes : ∀ p ∈ pairs, (a.element p.1).attributes = (b.element p.2).attributes
  ownString : ∀ p ∈ pairs, (a.element p.1).ownString?.map Item.wording =
    (b.element p.2).ownString?.map Item.wording

/-- Two searches find elements that are paired off, in the same order. -/
def FindSame (a b : Document) (pairs : List (NodeId × NodeId))
    (left right : Except Error ResultSet) : Prop :=
  ∃ found : List (NodeId × NodeId), found.Sublist pairs ∧
    left = .ok (.ofList (found.map fun p => a.element p.1)) ∧
    right = .ok (.ofList (found.map fun p => b.element p.2))

theorem sameElements_of_paired (h : Tree.Paired a.tree b.tree pairs) : SameElements a b pairs := by
  obtain ⟨hleft, hright⟩ := h.map_eq
  refine ⟨hleft, hright, fun p hp => ?_, fun p hp => ?_, fun p hp => ?_⟩
  · obtain ⟨⟨tag, hx, hy⟩, -, -⟩ := h.alike.of_mem hp
    exact congrArg (Option.getD · "") (hx.trans hy.symm)
  · exact (h.alike.of_mem hp).2.1
  · obtain ⟨-, -, sub, -, hchildren⟩ := h.alike.of_mem hp
    rw [map_wording_ownString?, map_wording_ownString?, wordings_eq hchildren]

/-- Searches that start at the documents or at paired elements find paired elements. -/
theorem findSame_of_paired (h : Tree.Paired a.tree b.tree pairs)
    (hconfig : a.config.listAttributes = b.config.listAttributes) {filter : Filter}
    (htext : filter.normalize.text = .unspecified) {scope scope' : Scope}
    (hscope : a.tree.Inside scope.start Tree.root) (hscope' : b.tree.Inside scope'.start Tree.root)
    (hcovers : ∀ p ∈ pairs, filter.normalize.Covers a.tree scope p.1 ↔
      filter.normalize.Covers b.tree scope' p.2) :
    FindSame a b pairs (a.findAllIn scope filter) (b.findAllIn scope' filter) := by
  have hname : filter.normalize.name ≠ .unspecified := fun hname =>
    filter.text_ne_unspecified hname htext
  obtain ⟨left, hleft, hgoes⟩ :=
    Document.exists_found h.left filter (Filter.size_start_lt h.left hscope)
  obtain ⟨right, hright, hgoes'⟩ :=
    Document.exists_found h.right filter (Filter.size_start_lt h.right hscope')
  have hsame : ∀ p ∈ pairs, p.1 ∈ left ↔ p.2 ∈ right := by
    intro p hp
    obtain ⟨⟨tag, hx, hy⟩, hattributes, -⟩ := h.alike.of_mem hp
    rw [hleft.mem_iff, hright.mem_iff, hcovers p hp,
      Filter.Spec.matches_congr hname htext hconfig (hx.trans hy.symm) hattributes]
  obtain ⟨hfsts, hsnds⟩ := h.map_eq
  have hfound : left = (pairs.filter (·.1 ∈ left)).map Prod.fst := by
    have hall := found_eq_filter h.left hname hscope hleft
    rw [Document.elements, ← hfsts, List.filter_map] at hall
    exact hall
  have hfound' : right = (pairs.filter (·.1 ∈ left)).map Prod.snd := by
    have hall := found_eq_filter h.right hname hscope' hright
    rw [Document.elements, ← hsnds, List.filter_map] at hall
    rw [List.filter_congr fun p hp => decide_eq_decide.2 (hsame p hp)]
    exact hall
  have hpaired : ∀ p ∈ pairs.filter (·.1 ∈ left),
      a.item p.1 = .ok (a.element p.1) ∧ b.item p.2 = .ok (b.element p.2) := by
    intro p hp
    obtain ⟨⟨tag, hx, hy⟩, -, -⟩ := h.alike.of_mem (List.mem_filter.1 hp).1
    exact ⟨Document.item_of_tagName? hx, Document.item_of_tagName? hy⟩
  refine ⟨Filter.limited filter.normalize.limit (pairs.filter (·.1 ∈ left)), ?_, ?_, ?_⟩
  · exact (Filter.sublist_limited _ _).trans List.filter_sublist
  · exact Document.findAllIn_of_found hgoes hfound fun p hp => (hpaired p hp).1
  · exact Document.findAllIn_of_found hgoes' hfound' fun p hp => (hpaired p hp).2

/-- A normal form covers one of two paired elements when it covers the other, if it starts at the
documents or at paired elements. -/
theorem covers_iff (h : Tree.Paired a.tree b.tree pairs) {spec : Filter.Spec} (scope scope' : Scope)
    {sub : List (NodeId × NodeId)} (hsub : sub ⊆ pairs)
    (halike : Tree.Alike a.tree b.tree (a.tree.children scope.start) (b.tree.children scope'.start)
      sub) {p : NodeId × NodeId} (hp : p ∈ pairs) :
    spec.Covers a.tree scope p.1 ↔ spec.Covers b.tree scope' p.2 := by
  unfold Filter.Spec.Covers
  split
  · exact h.below_iff hsub halike hp
  · exact h.up_iff hsub halike hp

theorem paired_ofNodes (number number' : Nat) (nodes : List Html.Node) {config config' : Config}
    (hkeep : config.keepBlankText = true) (hdrop : config'.keepBlankText = false) :
    ∃ pairs, Tree.Paired (Document.ofNodes number nodes config).tree
      (Document.ofNodes number' nodes config').tree pairs := by
  obtain ⟨pairs, hpairs⟩ := Html.exists_alike (Html.showsAll_rankNodes true nodes)
    (Html.showsAll_rankNodes false nodes)
  rw [← hkeep, ← hdrop] at hpairs
  exact ⟨pairs, Document.built_ofNodes .., Document.built_ofNodes .., hpairs⟩

/-- Whether texts of blanks are kept makes no difference to the elements of a document, to what
searches for elements find from the document or from an element, and to own strings. -/
theorem blankTexts_makeNoDifference (number number' : Nat) (nodes : List Html.Node)
    (config : Config) :
    let a := Document.ofNodes number nodes { config with keepBlankText := true }
    let b := Document.ofNodes number' nodes { config with keepBlankText := false }
    ∃ pairs, SameElements a b pairs ∧
      ∀ filter : Filter, filter.normalize.text = .unspecified →
        FindSame a b pairs (a.findAll filter) (b.findAll filter) ∧
          ∀ p ∈ pairs, FindSame a b pairs ((a.element p.1).findAll filter)
            ((b.element p.2).findAll filter) := by
  intro a b
  obtain ⟨pairs, hpairs⟩ : ∃ pairs, Tree.Paired a.tree b.tree pairs :=
    paired_ofNodes number number' nodes rfl rfl
  refine ⟨pairs, sameElements_of_paired hpairs, fun filter htext => ⟨?_, fun p hp => ?_⟩⟩
  · exact findSame_of_paired hpairs rfl htext .refl .refl fun p hp =>
      covers_iff hpairs .document .document (List.Subset.refl _) hpairs.alike hp
  · obtain ⟨-, -, sub, hsub, halike⟩ := hpairs.alike.of_mem hp
    obtain ⟨hx, hy⟩ := hpairs.inside_root hp
    exact findSame_of_paired hpairs rfl htext hx hy fun q hq =>
      covers_iff hpairs (.node p.1) (.node p.2) hsub halike hq

def blankNodes : List Html.Node :=
  [.text "\n", .element "p" [] [.text " ", .comment "a"], .text " ", .element "p" [] [.text "b"]]

theorem tagged_blankNodes :
    (Document.ofNodes 0 blankNodes {}).tagged "p" = [2, 6] ∧
      (Document.ofNodes 1 blankNodes { keepBlankText := false }).tagged "p" = [1, 3] := by
  rw [Document.tagged_ofNodes, Document.tagged_ofNodes]
  decide +kernel

/-- Two paragraphs between blank texts, found with other numbers when these are dropped. -/
theorem blankTexts_makeNoDifference_paragraph :
    let a := Document.ofNodes 0 blankNodes {}
    let b := Document.ofNodes 1 blankNodes { keepBlankText := false }
    Filter.normalize (.tag "p") = { name := .oneOf ["p"] } ∧
      a.findAll (.tag "p") = .ok (.ofList [a.element 2, a.element 6]) ∧
      b.findAll (.tag "p") = .ok (.ofList [b.element 1, b.element 3]) ∧
      ∃ pairs, SameElements a b pairs ∧
        FindSame a b pairs (a.findAll (.tag "p")) (b.findAll (.tag "p")) := by
  intro a b
  obtain ⟨pairs, hsame, hfind⟩ := blankTexts_makeNoDifference 0 1 blankNodes {}
  refine ⟨rfl, ?_, ?_, pairs, hsame, (hfind (.tag "p") rfl).1⟩
  · rw [Document.findAll_tag (Document.built_ofNodes ..), tagged_blankNodes.1]
    rfl
  · rw [Document.findAll_tag (Document.built_ofNodes ..), tagged_blankNodes.2]
    rfl

end MarkupQuery
