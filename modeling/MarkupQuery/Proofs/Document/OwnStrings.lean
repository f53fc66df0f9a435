import MarkupQuery.Proofs.Document.BlankTexts
import MarkupQuery.Proofs.Text.Trimming

/-!
# Own strings and texts

An element may consist of a single text or comment, where texts of white space beside it do not
count, and it has a text, which is all text inside it without the white space around.  In a document
only elements have anything inside, so that an element that consists of a text has the text of that
one, and an element that consists of a comment has none.
-/

namespace MarkupQuery

/-! ## Nodes of a document -/

namespace Tree

variable {t : Tree} {xs l : List NodeId} {nodes : List Html.Node}

theorem ShowsAll.exists_of_mem (h : t.ShowsAll xs nodes) {node : Html.Node} (hnode : node ∈ nodes) :
    ∃ x ∈ xs, t.Shows x node := by
  induction nodes generalizing xs with
  | nil => cases hnode
  | cons first rest ih =>
    cases h with
    | @cons x xs _ _ hx hxs =>
      rcases List.mem_cons.1 hnode with rfl | hnode
      · exact ⟨x, List.mem_cons_self, hx⟩
      · obtain ⟨y, hy, hshows⟩ := ih hxs hnode
        exact ⟨y, List.mem_cons_of_mem x hy, hshows⟩

/-- What is below shown nodes is shown. -/
theorem ShowsAll.exists_shows (h : t.ShowsAll xs nodes) (hl : Preorder t.children xs l) {y : NodeId}
    (hy : y ∈ l) : ∃ node, t.Shows y node := by
  induction hl generalizing nodes with
  | nil => cases hy
  | @cons x rest below after hbelow _ ihbelow ihafter =>
    cases h with
    | @cons _ _ node _ hx hrest =>
      rw [List.cons_append, List.mem_cons, List.mem_append] at hy
      rcases hy with rfl | hy | hy
      · exact ⟨node, hx⟩
      · cases hx with
        | element _ hchildren => exact ihbelow hchildren hy
        | doctype _ hleaf | text _ hleaf | comment _ hleaf | instruction _ hleaf =>
          rw [hleaf] at hbelow
          cases hbelow
          cases hy
      · exact ihafter hrest hy

end Tree

open MarkupQuery.Tree

/-- Every node of a document below its root is shown. -/
theorem Html.exists_shows_rankNodes (keepBlank : Bool) (nodes : List Html.Node) {x : NodeId}
    (hroot : x ≠ Tree.root) (hx : x < (treeOfNodes keepBlank nodes).rankNodes.size) :
    ∃ node, (treeOfNodes keepBlank nodes).rankNodes.Shows x node := by
  obtain ⟨xs, hxs⟩ := entered_treeOfNodes keepBlank nodes
  have hkids := funext hxs.built.linked_children.rankNodes.children_eq
  have hpreorder := hxs.preorder
  rw [← hxs.children_root, ← hkids] at hpreorder
  have hmem : x ∈ List.range' Tree.empty.size
      ((treeOfNodes keepBlank nodes).size - Tree.empty.size) := by
    have hpos : 0 < x := Nat.pos_of_ne_zero hroot
    have hlt : x < (treeOfNodes keepBlank nodes).size := hx
    rw [List.mem_range'_1, Nat.add_sub_cancel' hxs.keeps.size_le]
    exact ⟨hpos, hlt⟩
  exact (showsAll_rankNodes keepBlank nodes).exists_shows hpreorder hmem

/-- The children of an element of a document are shown. -/
theorem Document.exists_showsAll_children (number : Nat) (nodes : List Html.Node) (config : Config)
    {x : NodeId} {tag : String} (hx : (ofNodes number nodes config).tree.tagName? x = some tag) :
    ∃ children, (ofNodes number nodes config).tree.ShowsAll
      ((ofNodes number nodes config).tree.children x) children := by
  have hroot : x ≠ Tree.root := by
    rintro rfl
    have hdocument := (Html.tellsDocument_treeOfNodes config.keepBlankText nodes).document
    have hnone := tagName?_eq_none hdocument (by simp [Content.kind])
    exact Option.some_ne_none tag (hx.symm.trans hnone)
  obtain ⟨name, attributes, hcontent, -⟩ := Html.content_of_tagName? hx
  obtain ⟨node, hnode⟩ := Html.exists_shows_rankNodes config.keepBlankText nodes hroot
    (lt_size_of_content hcontent)
  cases hnode with
  | @element _ _ children _ hchildren => exact ⟨children, hchildren⟩
  | doctype hother | text hother | comment hother | instruction hother =>
    cases hcontent.symm.trans hother

/-! ## The text of an element -/

variable {d : Document} {x : NodeId} {tag : String} {nodes : List Html.Node}

theorem ownText_element (hx : d.tree.tagName? x = some tag) :
    (d.element x).ownText = Text.trim (d.tree.descendantText x) := by
  obtain ⟨name, attributes, hcontent, -⟩ := Html.content_of_tagName? hx
  obtain ⟨n, hn, hcontent⟩ := Option.map_eq_some_iff.1 hcontent
  have htext : d.tree.textContent x = d.tree.descendantText x := by
    simp only [textContent, hn, hcontent]
  exact congrArg Text.trim htext

theorem wordings_of_showsAll {xs : List NodeId} (h : d.tree.ShowsAll xs nodes) :
    xs.filterMap d.wording? = nodes.filterMap Html.Node.wording? := by
  induction nodes generalizing xs with
  | nil =>
    cases h
    rfl
  | cons node rest ih =>
    cases h with
    | cons hx hxs => rw [List.filterMap_cons, List.filterMap_cons, wording?_of_shows hx, ih hxs]

/-- The text inside an element with no elements inside is that of its children. -/
theorem descendantText_of_showsAll (h : d.tree.Built)
    (hchildren : d.tree.ShowsAll (d.tree.children x) nodes)
    (hleaf : ∀ node ∈ nodes, node.tag? = none) :
    d.tree.descendantText x = String.join (nodes.filterMap Html.Node.ownText?) := by
  have forest (xs : List NodeId) (nodes : List Html.Node) (hxs : d.tree.ShowsAll xs nodes)
      (hleaf : ∀ node ∈ nodes, node.tag? = none) : Preorder d.tree.children xs xs := by
    induction nodes generalizing xs with
    | nil =>
      cases hxs
      exact .nil
    | cons node rest ih =>
      obtain ⟨hnode, hrest⟩ := List.forall_mem_cons.1 hleaf
      cases hxs with
      | @cons c _ _ _ hc hxs =>
        have hbelow : Preorder d.tree.children (d.tree.children c) [] := by
          rw [children_of_shows hc hnode]
          exact .nil
        exact .cons hbelow (ih _ hxs hrest)
  rw [descendantText, h.linked_children.descendants_eq (forest _ _ hchildren hleaf),
    Html.filterMap_ownText? hchildren]

theorem toList_join_ownText? (nodes : List Html.Node) :
    (String.join (nodes.filterMap Html.Node.ownText?)).toList =
      nodes.flatMap fun node => (node.ownText?.getD "").toList := by
  rw [String.toList_join]
  induction nodes with
  | nil => rfl
  | cons node rest ih =>
    rw [List.flatMap_cons, ← ih, List.filterMap_cons]
    cases node.ownText? <;> simp

/-- A node that does not count is no text, or a text of white space. -/
theorem isWhiteSpace_of_wording?_eq_none {node : Html.Node} (hnone : node.wording? = none) :
    ∀ c ∈ (node.ownText?.getD "").toList, Text.isWhiteSpace c = true := by
  cases node with
  | text value =>
    have hwhite : (Text.trim value).isEmpty = true := by
      by_contra hwhite
      rw [Html.Node.wording?, if_neg hwhite] at hnone
      cases hnone
    exact Text.forall_isWhiteSpace_of_isEmpty_trim hwhite
  | comment | element => cases hnone
  | doctype | instruction => simp [Html.Node.ownText?]

theorem wording?_of_tag? {node : Html.Node} (h : node.tag? ≠ none) :
    node.wording? = some (.element, none) := by
  cases node with
  | element => rfl
  | text | comment | doctype | instruction => exact absurd rfl h

/-- An element of which one child counts, which is no element, has the text of that child. -/
theorem exists_ownText_of_wordings (h : d.tree.Built) (hx : d.tree.tagName? x = some tag)
    (hchildren : d.tree.ShowsAll (d.tree.children x) nodes) {kind : ItemKind}
    {content : Option String} (hone : (d.tree.children x).filterMap d.wording? = [(kind, content)])
    (hkind : kind ≠ .element) : ∃ node : Html.Node, node.wording? = some (kind, content) ∧
      (d.element x).ownText = Text.trim (node.ownText?.getD "") := by
  rw [wordings_of_showsAll hchildren] at hone
  have hleaf : ∀ node ∈ nodes, node.tag? = none := by
    intro node hnode
    by_contra htag
    have hmem : (ItemKind.element, none) ∈ nodes.filterMap Html.Node.wording? :=
      List.mem_filterMap.2 ⟨node, hnode, wording?_of_tag? htag⟩
    rw [hone, List.mem_singleton] at hmem
    exact hkind (congrArg Prod.fst hmem).symm
  obtain ⟨before, node, after, hsplit, hbefore, hnode, hafter⟩ := List.filterMap_eq_cons_iff.1 hone
  rw [List.filterMap_eq_nil_iff] at hafter
  refine ⟨node, hnode, ?_⟩
  rw [ownText_element hx, descendantText_of_showsAll h hchildren hleaf, ← String.toList_inj,
    Text.toList_trim, Text.toList_trim, toList_join_ownText?, hsplit]
  apply Text.strip_flatMap
  · exact fun other hother => isWhiteSpace_of_wording?_eq_none (hbefore other hother)
  · exact fun other hother => isWhiteSpace_of_wording?_eq_none (hafter other hother)

/-! ## Own strings -/

/-- An element consists of the only child that counts, if that is no element. -/
theorem wordings_of_ownString? {s : Item} (hs : (d.element x).ownString? = some s) :
    (d.tree.children x).filterMap d.wording? = [(s.kind, s.content?)] ∧ s.kind ≠ .element := by
  have hwording := map_wording_ownString? d x
  rw [hs, Option.map_some] at hwording
  split_ifs at hwording with hone
  obtain ⟨w, hw⟩ := List.length_eq_one_iff.1 hone
  rw [hw, List.head?_cons, eq_comm, Option.filter_eq_some_iff] at hwording
  obtain ⟨hsame, hkind⟩ := hwording
  cases hsame
  exact ⟨hw, by simpa [Item.wording] using hkind⟩

theorem exists_text_of_wording? {node : Html.Node} {content : Option String}
    (h : node.wording? = some (.text, content)) :
    ∃ value, content = some value ∧ node.ownText? = some value := by
  cases node with
  | text value =>
    rw [Html.Node.wording?] at h
    split_ifs at h
    exact ⟨value, (congrArg Prod.snd (Option.some.inj h)).symm, rfl⟩
  | comment | element | doctype | instruction => cases h

theorem exists_comment_of_wording? {node : Html.Node} {content : Option String}
    (h : node.wording? = some (.comment, content)) :
    ∃ value, content = some value ∧ node.ownText? = none := by
  cases node with
  | comment value => exact ⟨value, (congrArg Prod.snd (Option.some.inj h)).symm, rfl⟩
  | text value =>
    rw [Html.Node.wording?] at h
    split_ifs at h
    cases h
  | element | doctype | instruction => cases h

theorem stringValue_of_ownString? {e s : Item} {value : String} (hs : e.ownString? = some s)
    (hcontent : s.content? = some value) : e.stringValue = value := by
  rw [Item.stringValue, hs, Option.bind_some, hcontent, Option.getD_some]

section Shown

variable {s : Item} (h : d.tree.Built) (hx : d.tree.tagName? x = some tag)
  (hchildren : d.tree.ShowsAll (d.tree.children x) nodes)

include h hx hchildren

theorem exists_ownText_of_ownString? (hs : (d.element x).ownString? = some s) :
    ∃ node : Html.Node, node.wording? = some (s.kind, s.content?) ∧
      (d.element x).ownText = Text.trim (node.ownText?.getD "") := by
  obtain ⟨hwordings, hkind⟩ := wordings_of_ownString? hs
  exact exists_ownText_of_wordings h hx hchildren hwordings hkind

theorem ownText_of_text (hs : (d.element x).ownString? = some s) (hkind : s.kind = .text) :
    ∃ value, s.content? = some value ∧ (d.element x).ownText = Text.trim value := by
  obtain ⟨node, hwording, hown⟩ := exists_ownText_of_ownString? h hx hchildren hs
  rw [hkind] at hwording
  obtain ⟨value, hcontent, hvalue⟩ := exists_text_of_wording? hwording
  rw [hvalue] at hown
  exact ⟨value, hcontent, hown⟩

theorem ownText_of_comment (hs : (d.element x).ownString? = some s) (hkind : s.kind = .comment) :
    ∃ value, s.content? = some value ∧ (d.element x).stringValue = value ∧
      (d.element x).ownText = "" := by
  obtain ⟨node, hwording, hown⟩ := exists_ownText_of_ownString? h hx hchildren hs
  rw [hkind] at hwording
  obtain ⟨value, hcontent, hvalue⟩ := exists_comment_of_wording? hwording
  rw [hvalue] at hown
  exact ⟨value, hcontent, stringValue_of_ownString? hs hcontent, hown⟩

/-- The text of an element that does not consist of a comment is its string value without the white
space around it. -/
theorem trim_stringValue (hnot : ∀ s, (d.element x).ownString? = some s → s.kind ≠ .comment) :
    Text.trim (d.element x).stringValue = (d.element x).ownText := by
  cases hs : (d.element x).ownString? with
  | none =>
    rw [Item.stringValue, hs, Option.bind_none, Option.getD_none, ownText_element hx,
      Text.trim_trim]
  | some s =>
    have hkind : s.kind = .text := by
      cases heq : s.kind with
      | text => rfl
      | element => exact absurd heq (wordings_of_ownString? hs).2
      | comment => exact absurd heq (hnot s hs)
    obtain ⟨value, hcontent, hown⟩ := ownText_of_text h hx hchildren hs hkind
    rw [stringValue_of_ownString? hs hcontent, hown]

end Shown

/-- The text of an element agrees with what the element consists of: it is that text without the
white space around it, and empty beside a comment.  Unless the element consists of a comment its
string value, which results report, is its text apart from white space at the two ends. -/
theorem ownText_eq_ownString (number : Nat) (nodes : List Html.Node) (config : Config) {x : NodeId}
    {tag : String} (hx : (Document.ofNodes number nodes config).tree.tagName? x = some tag) :
    let e := (Document.ofNodes number nodes config).element x
    (∀ s, e.ownString? = some s → s.kind = .text →
      ∃ value, s.content? = some value ∧ e.ownText = Text.trim value) ∧
    (∀ s, e.ownString? = some s → s.kind = .comment →
      ∃ value, s.content? = some value ∧ e.stringValue = value ∧ e.ownText = "") ∧
    ((∀ s, e.ownString? = some s → s.kind ≠ .comment) → Text.trim e.stringValue = e.ownText ∧
      ∀ (r : ResultSet) (i : Nat), r.toList[i]? = some e →
        r.strings[i]?.map Text.trim = some e.ownText) := by
  intro e
  have hbuilt : (Document.ofNodes number nodes config).tree.Built := Document.built_ofNodes ..
  obtain ⟨children, hchildren⟩ := Document.exists_showsAll_children number nodes config hx
  refine ⟨fun s => ownText_of_text hbuilt hx hchildren,
    fun s => ownText_of_comment hbuilt hx hchildren, fun hnot => ?_⟩
  have htrim := trim_stringValue hbuilt hx hchildren hnot
  refine ⟨htrim, fun r i hi => ?_⟩
  rw [ResultSet.strings, List.getElem?_map, hi, Option.map_some, Option.map_some, htrim]

/-- Beside blank text and an instruction the own string is the text ` a `. -/
theorem ownText_eq_ownString_paragraph :
    let nodes := [Html.Node.element "p" [] [.text "\n", .text " a ", .instruction "b" ""]]
    let d := Document.ofNodes 0 nodes {}
    ∃ x, d.tree.tagName? x = some "p" ∧
      (d.element x).ownString?.map Item.wording = some (.text, some " a ") ∧
      (d.element x).ownText = "a" ∧ Text.trim (d.element x).stringValue = "a" := by
  intro nodes d
  have hkept : Html.keptAll true nodes = nodes := by
    simp [nodes, Html.keptAll, Html.Node.kept, lastEntries]
  have hshows : d.tree.ShowsAll (d.tree.children Tree.root) (Html.keptAll true nodes) :=
    Html.showsAll_rankNodes true nodes
  rw [hkept] at hshows
  obtain ⟨x, -, hx⟩ := hshows.exists_of_mem List.mem_cons_self
  obtain ⟨htag, -, hchildren⟩ := hx.of_element
  obtain ⟨htext, -, hvalue⟩ := ownText_eq_ownString 0 nodes {} htag
  have hwording : (d.element x).ownString?.map Item.wording = some (.text, some " a ") := by
    rw [map_wording_ownString?, wordings_of_showsAll hchildren]
    decide +kernel
  obtain ⟨s, hs, htold⟩ := Option.map_eq_some_iff.1 hwording
  have hkind : s.kind = .text := congrArg Prod.fst htold
  obtain ⟨value, hcontent, hown⟩ := htext s hs hkind
  have hspoken : some value = some " a " := hcontent.symm.trans (congrArg Prod.snd htold)
  cases hspoken
  have htrim : Text.trim " a " = "a" := by decide +kernel
  have hnot : ∀ s', (d.element x).ownString? = some s' → s'.kind ≠ .comment := by
    intro s' hs'
    cases hs.symm.trans hs'
    simp [hkind]
  exact ⟨x, htag, hwording, hown.trans htrim, (hvalue hnot).1.trans (hown.trans htrim)⟩

end MarkupQuery
