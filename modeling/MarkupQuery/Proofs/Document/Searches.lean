import MarkupQuery.Document.Property
import MarkupQuery.Proofs.Filter.Limits
import MarkupQuery.Proofs.Html.Entered

/-!
# Searches

Whatever is asked of a document of read nodes, a search with a filter gives a result: the normal
form has a query, the query is read and evaluated, and what it finds are items.  A limit leaves the
first of the items.
-/

namespace MarkupQuery

open XPath

variable {d : Document}

/-! ## Normal forms -/

/-- No filter asks for nothing at all: without names it asks for texts, or for all elements. -/
theorem Filter.text_ne_unspecified (filter : Filter) (h : filter.normalize.name = .unspecified) :
    filter.normalize.text ≠ .unspecified := by
  intro htext
  have hname : filter.normalize.name ≠ .unspecified := by
    unfold normalize at htext ⊢
    simp only at htext ⊢
    rw [htext]
    cases filter.name with
    | flag value => cases value <;> simp
    | _ => simp
  exact hname h

/-! ## Items -/

namespace Document

/-- The item of a node that has one. -/
def itemOf (d : Document) (id : NodeId) : Item := (d.item id).toOption.getD default

/-- The item of an element. -/
def element (d : Document) (id : NodeId) : Item := ⟨d, .element, id⟩

theorem item_of_kind {id : NodeId} {n : Node} {kind : ItemKind} (hget : d.tree.get? id = some n)
    (hkind : ItemKind.ofNodeKind? n.kind = some kind) : d.item id = .ok ⟨d, kind, id⟩ := by
  simp only [item, hget, hkind]

theorem item_of_tagName? {id : NodeId} {tag : String} (h : d.tree.tagName? id = some tag) :
    d.item id = .ok (d.element id) := by
  obtain ⟨name, hname, -⟩ := Option.map_eq_some_iff.1 h
  obtain ⟨n, hget, htag⟩ := Option.bind_eq_some_iff.1 hname
  cases hn : n.content with
  | element tag attributes => exact item_of_kind hget (by rw [Node.kind, hn]; rfl)
  | _ => simp [Node.tag?, hn] at htag

theorem of_item_eq_ok {id : NodeId} {item : Item} (h : d.item id = .ok item) :
    id < d.tree.size ∧ ∃ kind, item = ⟨d, kind, id⟩ := by
  unfold Document.item at h
  split at h
  · cases h
  · rename_i n hget
    refine ⟨Tree.lt_size_of_get? hget, ?_⟩
    split at h
    · exact ⟨_, (Except.ok.inj h).symm⟩
    · cases h

theorem exists_item {config : Config} {spec : Filter.Spec} {id : NodeId}
    (h : spec.Matches config d.tree id) : ∃ item, d.item id = .ok item := by
  unfold Filter.Spec.Matches at h
  split at h
  · obtain ⟨content, hleaf, -⟩ := h
    rw [Tree.leaf?, Option.bind_eq_some_iff] at hleaf
    obtain ⟨n, hget, hcontent⟩ := hleaf
    cases hn : n.content with
    | text value => exact ⟨_, item_of_kind hget (by rw [Node.kind, hn]; rfl)⟩
    | comment value => exact ⟨_, item_of_kind hget (by rw [Node.kind, hn]; rfl)⟩
    | _ => simp [Node.text?, Node.comment?, hn] at hcontent
  · obtain ⟨tag, htag, -⟩ := h.name
    exact ⟨_, item_of_tagName? htag⟩

theorem classify_eq {id : NodeId} (h : ∃ item, d.item id = .ok item) :
    d.classify (.tree id) = .ok (d.itemOf id) := by
  obtain ⟨item, hitem⟩ := h
  rw [classify, itemOf, hitem]
  rfl

theorem mapM_classify {found : List NodeId} (h : ∀ id ∈ found, ∃ item, d.item id = .ok item) :
    (found.map NodeRef.tree).mapM d.classify = .ok (found.map d.itemOf) := by
  have hall : ∀ m ∈ found.map NodeRef.tree, d.classify m = .ok (d.itemOf m.nodeId) := by
    intro m hm
    obtain ⟨id, hid, rfl⟩ := List.mem_map.1 hm
    exact classify_eq (h id hid)
  rw [mapM_eq_ok hall, List.map_map]
  rfl

/-! ## From a normal form to items -/

/-- A normal form has a query, the query is read, what it is evaluated to are nodes, and these are
items. -/
def GoesThrough (d : Document) (scope : Scope) (spec : Filter.Spec) (items : List Item) : Prop :=
  ∃ query e nodes, spec.query d.config scope = .ok query ∧ XPath.parse query = .ok e ∧
    e.evaluate d.tree scope.start = .ok (.nodeSet nodes) ∧ nodes.mapM d.classify = .ok items

theorem GoesThrough.search_eq {scope : Scope} {spec : Filter.Spec} {items : List Item}
    (h : d.GoesThrough scope spec items) : d.search scope spec = .ok (.ofList items) := by
  obtain ⟨query, e, nodes, hquery, hparse, heval, hitems⟩ := h
  have hselect : XPath.select d.tree query scope.nodeId? = .ok nodes :=
    Filter.select_eq_ok hparse heval
  rw [search, hquery, bind_ok, run, hselect, Except.mapError, bind_ok, hitems]
  rfl

/-- A filter finds the nodes that answer to its normal form, of which each limit leaves some. -/
theorem exists_found (ht : d.tree.Built) (filter : Filter) {scope : Scope}
    (hstart : scope.start < d.tree.size) :
    ∃ found : List NodeId, Filter.Selects d.config d.tree filter.normalize scope found ∧
      ∀ limit, d.GoesThrough scope { filter.normalize with limit }
        ((Filter.limited limit found).map d.itemOf) := by
  have hallowed : filter.normalize.seeksLeaves → filter.normalize.text ≠ .unspecified := by
    intro hleaves
    rw [Filter.Spec.seeksLeaves, Bool.and_eq_true, decide_eq_true_iff] at hleaves
    exact filter.text_ne_unspecified hleaves.1
  obtain ⟨query, e, found, hquery, hspells, heval, hselects⟩ :=
    Filter.exists_selects ht d.config hallowed hstart
  refine ⟨found, hselects, fun limit => ?_⟩
  obtain ⟨text, e', htext, hspells', heval'⟩ := Filter.select_limited hquery hspells heval limit
  refine ⟨text, e', _, htext, parse_of_spells hspells', heval', ?_⟩
  rw [Filter.limited_map]
  refine mapM_classify fun id hid => ?_
  have hfound := (Filter.sublist_limited limit found).subset hid
  exact exists_item ((hselects.mem_iff id).1 hfound).2

/-- There are items that a filter finds, of which each limit leaves some. -/
theorem exists_goesThrough (ht : d.tree.Built) (filter : Filter) {scope : Scope}
    (hstart : scope.start < d.tree.size) :
    ∃ items : List Item, items.length ≤ d.tree.size ∧
      ∀ limit, d.GoesThrough scope { filter.normalize with limit }
        (Filter.limited limit items) := by
  obtain ⟨found, hselects, hgoes⟩ := exists_found ht filter hstart
  refine ⟨found.map d.itemOf, ?_, fun limit => ?_⟩
  · have hlt : ∀ id ∈ found, id < d.tree.size := fun id hid =>
      hselects.inOrder.valid _ (List.mem_map_of_mem hid)
    rw [List.length_map]
    exact Tree.length_le_size hselects.nodup hlt
  · rw [Filter.limited_map]
    exact hgoes limit

theorem findAllIn_of_found {α : Type} {filter : Filter} {scope : Scope} {found : List NodeId}
    (hgoes : ∀ limit, d.GoesThrough scope { filter.normalize with limit }
      ((Filter.limited limit found).map d.itemOf)) {l : List α} {id : α → NodeId}
    (hfound : found = l.map id) (hitem : ∀ p ∈ l, d.item (id p) = .ok (d.element (id p))) :
    d.findAllIn scope filter =
      .ok (.ofList ((Filter.limited filter.normalize.limit l).map fun p => d.element (id p))) := by
  have hitems : ((Filter.limited filter.normalize.limit l).map id).map d.itemOf =
      (Filter.limited filter.normalize.limit l).map fun p => d.element (id p) := by
    rw [List.map_map]
    refine List.map_congr_left fun p hp => ?_
    have hmem := (Filter.sublist_limited _ l).subset hp
    rw [Function.comp, itemOf, hitem p hmem]
    rfl
  rw [← hitems, ← Filter.limited_map, ← hfound]
  exact (hgoes filter.normalize.limit).search_eq

end Document

/-! ## Elements with a tag -/

/-- From the document everything below it is searched, the document itself left out. -/
theorem Filter.Selects.sublist_below (ht : d.tree.Built) {spec : Filter.Spec} {scope : Scope}
    {found : List NodeId} (h : Filter.Selects d.config d.tree spec scope found)
    (hscope : d.tree.Inside scope.start Tree.root) :
    found.Sublist (d.tree.descendants Tree.root) := by
  have hroot : Tree.root ∉ found := fun hx =>
    ht.linked_children.not_below_self Tree.root (h.below_root hscope hx)
  rcases List.sublist_cons_iff.1 (h.sublist_descendants ht hscope) with hsub | ⟨_, heq, -⟩
  · exact hsub
  · exact absurd (heq ▸ List.mem_cons_self) hroot

namespace Document

/-- The elements with a tag, in document order. -/
def tagged (d : Document) (tag : String) : List NodeId :=
  (d.tree.descendants Tree.root).filter fun id => d.tree.tagName? id = some tag

theorem tagName?_of_mem_tagged {tag : String} {id : NodeId} (h : id ∈ d.tagged tag) :
    d.tree.tagName? id = some tag :=
  of_decide_eq_true (List.mem_filter.1 h).2

theorem matches_tag {config : Config} {t : Tree} {tag : String} {id : NodeId} :
    (Filter.tag tag).normalize.Matches config t id ↔ t.tagName? id = some tag := by
  constructor
  · intro h
    obtain ⟨actual, htag, hname⟩ := h.name
    rwa [← List.mem_singleton.1 hname]
  · intro h
    exact ⟨⟨tag, h, List.mem_singleton_self tag⟩, nofun, trivial⟩

/-- A search for a tag finds the elements with this tag. -/
theorem findAll_tag (ht : d.tree.Built) (tag : String) :
    d.findAll (.tag tag) = .ok (.ofList ((d.tagged tag).map d.element)) := by
  have hstart : Scope.document.start < d.tree.size := ht.size_pos
  obtain ⟨found, hselects, hgoes⟩ := exists_found ht (.tag tag) hstart
  have hlinked := ht.linked_children
  have hfound : found = (d.tagged tag).map id := by
    rw [List.map_id, Tree.eq_filter_of_sublist (hlinked.nodup_descendants Tree.root)
      (hselects.sublist_below ht .refl)]
    refine List.filter_congr fun x hx => decide_eq_decide.2 ?_
    rw [hselects.mem_iff, matches_tag]
    exact and_iff_right (hlinked.mem_descendants.1 hx)
  exact findAllIn_of_found hgoes hfound fun x hx => item_of_tagName? (tagName?_of_mem_tagged hx)

theorem tagged_ofNodes (number : Nat) (nodes : List Html.Node) (config : Config) (tag : String) :
    (ofNodes number nodes config).tagged tag =
      ((((ofNodes number nodes config).tree.descendants Tree.root).zip
        (Html.tagsAll (Html.keptAll config.keepBlankText nodes))).filter
          fun entry => entry.2 = some tag).map Prod.fst := by
  rw [← map_tagName?_descendants number nodes config, ← List.map_prod_left_eq_zip, List.filter_map,
    List.map_map]
  exact (List.map_id _).symm

def divisionNodes : List Html.Node :=
  [.element "p" [] [.text "a"],
    .element "div" [("id", "b")]
      [.text "c", .element "p" [] [], .comment "d", .element "p" [] [.text "e"]]]

/-- A document with a paragraph, and with a division around two more. -/
def division : Document := ofNodes 0 divisionNodes

theorem tagged_division : division.tagged "div" = [3] ∧ division.tagged "p" = [1, 5, 7] := by
  rw [division, tagged_ofNodes, tagged_ofNodes]
  decide +kernel

theorem findAll_division : division.findAll (.tag "p") =
    .ok (.ofList [division.element 1, division.element 5, division.element 7]) := by
  have hbuilt : division.tree.Built := built_ofNodes ..
  rw [findAll_tag hbuilt, tagged_division.2]
  rfl

end Document

theorem Filter.normalize_limit (filter : Filter) (limit : Nat) :
    ({ filter with limit } : Filter).normalize = { filter.normalize with limit } := by
  unfold normalize
  cases filter.attributes <;> rfl

theorem ResultSet.first?_ofList (items : List Item) : (ofList items).first? = items.head? := by
  simp [first?, toList, ofList]

theorem ResultSet.ofList_inj {items items' : List Item} :
    ofList items = ofList items' ↔ items = items' := by
  refine ⟨fun h => ?_, congrArg ofList⟩
  have htoList (items : List Item) : (ofList items).toList = items := by simp [toList, ofList]
  rw [← htoList items, h, htoList]

/-! ## No search fails -/

/-- All searches that start in one place, with filters and by name, give results: what a normal form
goes through to, and the first of it. -/
structure SearchesSucceed (d : Document) (scope : Scope)
    (find : Filter → Except Error (Option Item)) (findAll : Filter → Except Error ResultSet)
    (property : String → Except Error Property) : Prop where
  goesThrough : ∀ (filter : Filter) (limit : Nat), ∃ items,
    d.GoesThrough scope { filter.normalize with limit } items
  find_ok : ∀ filter, ∃ items, d.GoesThrough scope { filter.normalize with limit := 1 } items ∧
    find filter = .ok items.head?
  findAll_ok : ∀ filter, ∃ items, d.GoesThrough scope filter.normalize items ∧
    findAll filter = .ok (.ofList items)
  property_ok : ∀ name, ∃ value, property name = .ok value

theorem Document.findIn_eq {scope : Scope} {filter : Filter} {items : List Item}
    (h : d.GoesThrough scope { filter.normalize with limit := 1 } items) :
    d.findIn scope filter = .ok items.head? := by
  rw [findIn, h.search_eq, bind_ok, ResultSet.first?_ofList]
  rfl

/-- All is said about the search in a scope; only what is asked by name is left. -/
theorem searchesSucceed_of_findIn (ht : d.tree.Built) {scope : Scope}
    (hstart : scope.start < d.tree.size) {property : String → Except Error Property}
    (hproperty : (∀ filter, ∃ item?, d.findIn scope filter = .ok item?) →
      ∀ name, ∃ value, property name = .ok value) :
    SearchesSucceed d scope (d.findIn scope) (d.findAllIn scope) property := by
  have hgoes (filter : Filter) (limit : Nat) : ∃ items,
      d.GoesThrough scope { filter.normalize with limit } items := by
    obtain ⟨items, -, hitems⟩ := Document.exists_goesThrough ht filter hstart
    exact ⟨_, hitems limit⟩
  have hfind (filter : Filter) : ∃ items,
      d.GoesThrough scope { filter.normalize with limit := 1 } items ∧
        d.findIn scope filter = .ok items.head? := by
    obtain ⟨items, hitems⟩ := hgoes filter 1
    exact ⟨items, hitems, Document.findIn_eq hitems⟩
  have hnames := hproperty fun filter => (hfind filter).imp' List.head? fun _ h => h.2
  refine ⟨hgoes, hfind, fun filter => ?_, hnames⟩
  obtain ⟨items, hitems⟩ := hgoes filter filter.normalize.limit
  exact ⟨items, hitems, hitems.search_eq⟩

theorem searchesSucceed_document (ht : d.tree.Built) :
    SearchesSucceed d .document d.find d.findAll d.property := by
  have hstart : Scope.document.start < d.tree.size := ht.size_pos
  refine searchesSucceed_of_findIn ht hstart fun hfind name => ?_
  obtain ⟨item?, hitem⟩ := hfind (.tag name)
  unfold Document.property
  split
  case h_5 =>
    rw [Document.find, hitem]
    exact ⟨_, rfl⟩
  all_goals exact ⟨_, rfl⟩

theorem searchesSucceed_element (ht : d.tree.Built) {id : NodeId} (hid : id < d.tree.size) :
    SearchesSucceed d (.node id) (Item.find ⟨d, .element, id⟩) (Item.findAll ⟨d, .element, id⟩)
      (Item.property ⟨d, .element, id⟩) := by
  have hstart : (Scope.node id).start < d.tree.size := hid
  refine searchesSucceed_of_findIn ht hstart fun hfind name => ?_
  obtain ⟨item?, hitem⟩ := hfind (.tag name)
  have hname : (⟨d, .element, id⟩ : Item).find (.tag name) = .ok item? := hitem
  have hproperty : (⟨d, .element, id⟩ : Item).property name =
      (⟨d, .element, id⟩ : Item).elementProperty name :=
    rfl
  rw [hproperty]
  unfold Item.elementProperty
  split
  case h_12 =>
    rw [hname]
    exact ⟨_, rfl⟩
  all_goals exact ⟨_, rfl⟩

theorem Document.of_item_element {id : NodeId} {item : Item} (h : d.item id = .ok item)
    (helement : item.isElement = true) : id < d.tree.size ∧ item = ⟨d, .element, id⟩ := by
  obtain ⟨hid, kind, rfl⟩ := of_item_eq_ok h
  cases kind with
  | element => exact ⟨hid, rfl⟩
  | text => cases helement
  | comment => cases helement

/-- Whatever is asked of a document of read nodes or of an element of it, a search gives a result,
because no filter asks for nothing and every step on the way from it to items goes through. -/
theorem searches_succeed (number : Nat) (nodes : List Html.Node) (config : Config) :
    (∀ filter : Filter, filter.normalize.name = .unspecified →
      filter.normalize.text ≠ .unspecified) ∧
    let d := Document.ofNodes number nodes config
    SearchesSucceed d .document d.find d.findAll d.property ∧
      ∀ id item, d.item id = .ok item → item.isElement = true →
        SearchesSucceed d (.node id) item.find item.findAll item.property := by
  have ht := Document.built_ofNodes number nodes config
  refine ⟨Filter.text_ne_unspecified, searchesSucceed_document ht, fun id item hitem helement => ?_⟩
  obtain ⟨hid, rfl⟩ := Document.of_item_element hitem helement
  exact searchesSucceed_element ht hid

/-- A search of the document and of its division.  From the document it goes through to all three
paragraphs. -/
theorem searches_succeed_division :
    SearchesSucceed .division .document Document.division.find Document.division.findAll
      Document.division.property ∧
    Document.division.GoesThrough .document (Filter.tag "p").normalize
      [Document.division.element 1, Document.division.element 5, Document.division.element 7] ∧
    ∃ item, Document.division.item 3 = .ok item ∧ item.isElement = true ∧
      SearchesSucceed .division (.node 3) item.find item.findAll item.property := by
  obtain ⟨-, hdocument, helements⟩ := searches_succeed 0 Document.divisionNodes {}
  have hmem : 3 ∈ Document.division.tagged "div" :=
    Document.tagged_division.1 ▸ List.mem_singleton_self 3
  have hdivision := Document.item_of_tagName? (Document.tagName?_of_mem_tagged hmem)
  refine ⟨hdocument, ?_, _, hdivision, rfl, helements 3 _ hdivision rfl⟩
  obtain ⟨items, hgoes, hitems⟩ := hdocument.findAll_ok (.tag "p")
  have hall := Document.findAll_division.symm.trans hitems
  rwa [← ResultSet.ofList_inj.1 (Except.ok.inj hall)] at hgoes

/-! ## Limits -/

/-- What limits do to the searches that start in one place: a limit leaves the first of the items
that are found without it, and the first item of all is found whatever the limit. -/
structure LimitsTruncate (find : Filter → Except Error (Option Item))
    (findAll : Filter → Except Error ResultSet) : Prop where
  findAll_limit : ∀ filter : Filter, ∃ items,
    findAll { filter with limit := 0 } = .ok (.ofList items) ∧
    ∀ limit, 0 < limit → findAll { filter with limit } = .ok (.ofList (items.take limit))
  find_eq_head? : ∀ filter, ∃ items, findAll filter = .ok (.ofList items) ∧
    find filter = .ok items.head?

theorem head?_limited {α : Type} {limit : Nat} {l : List α} (hl : l.length < 2 ^ 53) :
    (Filter.limited limit l).head? = l.head? := by
  by_cases hlimit : 0 < limit
  · rw [Filter.limited_eq_take hlimit hl, List.head?_take, if_neg (by omega)]
  · rw [Filter.limited, if_neg hlimit]

theorem limitsTruncate_of_built (ht : d.tree.Built) (hsize : d.tree.size < 2 ^ 53) {scope : Scope}
    (hstart : scope.start < d.tree.size) :
    LimitsTruncate (d.findIn scope) (d.findAllIn scope) := by
  refine ⟨fun filter => ?_, fun filter => ?_⟩
  · obtain ⟨items, hlength, hitems⟩ := Document.exists_goesThrough ht filter hstart
    have hlimit (limit : Nat) : d.findAllIn scope { filter with limit } =
        .ok (.ofList (Filter.limited limit items)) := by
      rw [Document.findAllIn, Filter.normalize_limit]
      exact (hitems limit).search_eq
    refine ⟨items, hlimit 0, fun limit hpos => ?_⟩
    rw [hlimit, Filter.limited_eq_take hpos (Nat.lt_of_le_of_lt hlength hsize)]
  · obtain ⟨items, hlength, hitems⟩ := Document.exists_goesThrough ht filter hstart
    have hlt : items.length < 2 ^ 53 := Nat.lt_of_le_of_lt hlength hsize
    refine ⟨_, (hitems filter.normalize.limit).search_eq, ?_⟩
    rw [Document.findIn_eq (hitems 1), head?_limited hlt, head?_limited hlt]

/-- In a document of read nodes and in its elements limits truncate searches, as long as the
positions of nodes can be told apart as floating-point numbers. -/
theorem limits_truncate (number : Nat) (nodes : List Html.Node) (config : Config)
    (hsize : (Document.ofNodes number nodes config).tree.size < 2 ^ 53) :
    let d := Document.ofNodes number nodes config
    LimitsTruncate d.find d.findAll ∧
      ∀ id item, d.item id = .ok item → item.isElement = true →
        LimitsTruncate item.find item.findAll := by
  have ht := Document.built_ofNodes number nodes config
  have hdocument : Scope.document.start < (Document.ofNodes number nodes config).tree.size :=
    ht.size_pos
  refine ⟨limitsTruncate_of_built ht hsize hdocument, fun id item hitem helement => ?_⟩
  obtain ⟨hid, rfl⟩ := Document.of_item_element hitem helement
  have helement : (Scope.node id).start < (Document.ofNodes number nodes config).tree.size := hid
  exact limitsTruncate_of_built ht hsize helement

/-- Three paragraphs, of which a limit leaves two, and the first of them. -/
theorem limits_truncate_division : Document.division.tree.size < 2 ^ 53 ∧
    LimitsTruncate Document.division.find Document.division.findAll ∧
    Document.division.findAll (.tag "p") = .ok (.ofList [Document.division.element 1,
      Document.division.element 5, Document.division.element 7]) ∧
    Document.division.findAll { Filter.tag "p" with limit := 2 } =
      .ok (.ofList [Document.division.element 1, Document.division.element 5]) ∧
    Document.division.find { Filter.tag "p" with limit := 2 } =
      .ok (some (Document.division.element 1)) := by
  have hsize : Document.division.tree.size < 2 ^ 53 := by decide +kernel
  obtain ⟨hlimits, -⟩ := limits_truncate 0 Document.divisionNodes {} hsize
  obtain ⟨items, hitems, htake⟩ := hlimits.findAll_limit (.tag "p")
  obtain rfl := ResultSet.ofList_inj.1 (Except.ok.inj (Document.findAll_division.symm.trans hitems))
  have htwo := htake 2 (by decide)
  obtain ⟨items, hitems, hfirst⟩ := hlimits.find_eq_head? { Filter.tag "p" with limit := 2 }
  obtain rfl := ResultSet.ofList_inj.1 (Except.ok.inj (htwo.symm.trans hitems))
  exact ⟨hsize, hlimits, Document.findAll_division, htwo, hfirst⟩

end MarkupQuery
