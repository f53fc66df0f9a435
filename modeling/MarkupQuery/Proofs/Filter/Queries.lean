import MarkupQuery.Proofs.Filter.Conditions

/-!
# Queries of filters

The text of a query is read as a union of paths that lead to just the nodes that are looked for, in
every tree that can be built.
-/

namespace MarkupQuery.Filter

open XPath

/-- An expression leads from nodes to those that stand in the relation to them. -/
def Traces (e : Expr) (R : Tree → NodeId → NodeId → Prop) : Prop :=
  ∀ t : Tree, t.Built →
    ∃ finds, Finds t e finds ∧ ∀ id m, finds (.tree id) m ↔ ∃ c, m = .tree c ∧ R t id c

/-- A text is read as a path that leads to these nodes. -/
def Route (cs : List Char) (R : Tree → NodeId → NodeId → Prop) : Prop :=
  ∃ e, Phrase.path.Spells cs e ∧ Traces e R

/-- A text is read as a union of paths that leads to these nodes. -/
def Routes (cs : List Char) (R : Tree → NodeId → NodeId → Prop) : Prop :=
  ∃ e, Phrase.union.Spells cs e ∧ Traces e R

variable {a b : List Char} {P : Tree → NodeId → Prop} {R S : Tree → NodeId → NodeId → Prop}

theorem Traces.congr {e : Expr} (h : Traces e R) (hiff : ∀ t id c, R t id c ↔ S t id c) :
    Traces e S := by
  intro t ht
  obtain ⟨finds, hfinds, htree⟩ := h t ht
  refine ⟨finds, hfinds, fun id m => ?_⟩
  simp only [htree, hiff]

theorem Route.congr (h : Route a R) (hiff : ∀ t id c, R t id c ↔ S t id c) : Route a S := by
  obtain ⟨e, hspells, htraces⟩ := h
  exact ⟨e, hspells, htraces.congr hiff⟩

theorem Route.routes (h : Route a R) : Routes a R := by
  obtain ⟨e, hspells, htraces⟩ := h
  exact ⟨e, hspells.map fun _ => .member, htraces⟩

theorem Routes.congr (h : Routes a R) (hiff : ∀ t id c, R t id c ↔ S t id c) : Routes a S := by
  obtain ⟨e, hspells, htraces⟩ := h
  exact ⟨e, hspells, htraces.congr hiff⟩

theorem Routes.union (ha : Routes a R) (hb : Route b S) :
    Routes (a ++ [' ', '|', ' '] ++ b) fun t id c => R t id c ∨ S t id c := by
  obtain ⟨x, hx, hR⟩ := ha
  obtain ⟨y, hy, hS⟩ := hb
  refine ⟨_, hx.union hy, fun t ht => ?_⟩
  obtain ⟨r, hr, hrt⟩ := hR t ht
  obtain ⟨s, hs, hst⟩ := hS t ht
  refine ⟨_, hr.union ht.assembled hs, fun id m => ?_⟩
  simp only [hrt, hst, and_or_left, exists_or]

theorem routes_unionOf {α : Type} {l : List α} {text : α → String}
    {R : α → Tree → NodeId → NodeId → Prop} (hne : l ≠ [])
    (h : ∀ x ∈ l, Route (text x).toList (R x)) :
    Routes (unionOf (l.map text)).toList fun t id c => ∃ x ∈ l, R x t id c :=
  alternatives (fun cs R => Route cs fun t id c => R (t, id, c))
    (fun cs R => Routes cs fun t id c => R (t, id, c)) " | " Route.routes
    (fun ha hb => Routes.union ha hb) (fun x y => R x y.1 y.2.1 y.2.2) hne h

theorem routes_emptyQuery : Routes emptyQuery.toList fun _ _ _ => False := by
  have htext : emptyQuery.toList = ['/', '.', '.'] := by simp [emptyQuery]
  rw [htext]
  refine Route.routes ⟨_, Phrase.Spells.parentOfRoot, fun t ht => ⟨_, finds_parentOfRoot ht, ?_⟩⟩
  simp

/-! ## Steps -/

/-- Where the start of a query leads to. -/
def Reaches (recursive : Bool) (scope : Scope) (t : Tree) (id c : NodeId) : Prop :=
  match recursive, scope with
  | false, _ => t.Up c id
  | true, .document => t.Below c Tree.root
  | true, .node _ => t.Below c id

/-- A step with predicates behind the start of a query. -/
theorem route_step (recursive : Bool) (scope : Scope) {test : NodeTest} (ha : SpellsTest a test)
    (hb : Restriction b P) :
    Route ((queryStart recursive scope).toList ++ (a ++ b)) fun t id c =>
      Reaches recursive scope t id c ∧ test.admits t .child (.tree c) = true ∧ P t c := by
  obtain ⟨predicates, hpredicates, hmeans⟩ := hb
  have hstep := (Phrase.Spells.childStep ha hpredicates).lastStep
  cases recursive with
  | false =>
    have htext : (queryStart false scope).toList ++ (a ++ b) = a ++ b := by simp [queryStart]
    rw [htext]
    refine ⟨_, hstep.relative, fun t ht => ?_⟩
    obtain ⟨keeps, hkeeps, htree⟩ := hmeans t ht.assembled
    refine ⟨_, (hkeeps.walks_child ht.assembled test).relative, fun id m => ?_⟩
    simp [onTree_tree, childTest, htree, Reaches]
  | true =>
    cases scope with
    | document =>
      have htext : (queryStart true .document).toList ++ (a ++ b) = '/' :: '/' :: (a ++ b) := by
        simp [queryStart]
      rw [htext]
      refine ⟨_, hstep.anywhere, fun t ht => ?_⟩
      obtain ⟨keeps, hkeeps, htree⟩ := hmeans t ht.assembled
      have hwalks := hkeeps.walks_anywhere ht.assembled test
      refine ⟨_, hwalks.absolute ht.assembled, fun id m => ?_⟩
      simp [onTree_tree, childTest, htree, Reaches]
    | node start =>
      have htext : (queryStart true (.node start)).toList ++ (a ++ b) =
          '.' :: '/' :: '/' :: (a ++ b) := by
        simp [queryStart]
      rw [htext]
      refine ⟨_, hstep.anywhereBelow, fun t ht => ?_⟩
      obtain ⟨keeps, hkeeps, htree⟩ := hmeans t ht.assembled
      refine ⟨_, (hkeeps.walks_anywhereBelow ht.assembled test).relative, fun id m => ?_⟩
      simp [onTree_tree, childTest, htree, Reaches]

/-! ## Texts and comments -/

theorem condition_content (content : String) :
    Condition .or (".=" ++ literalText content).toList
      fun t id => (NodeRef.tree id).stringValue t = content := by
  have hequal := Phrase.Spells.self.equal (spells_literalText content).path_of_primary
  have htext : (".=" ++ literalText content).toList =
      ['.'] ++ ['='] ++ (literalText content).toList := by
    simp
  rw [htext]
  refine ⟨_, hequal.loosen, fun t ht => ?_⟩
  refine ⟨_, (leads_self.walks ht).relative.equal (means_literalExpr t content), fun id => ?_⟩
  simp

theorem route_leaf (recursive : Bool) (scope : Scope) {p : String × NodeTest} (h : p ∈ leafTests) :
    Route (queryStart recursive scope ++ p.1).toList fun t id c =>
      Reaches recursive scope t id c ∧ p.2.admits t .child (.tree c) = true := by
  have hroute := route_step recursive scope (spellsTest_of_mem_leafTests h) restriction_nil
  have htext : (queryStart recursive scope ++ p.1).toList =
      (queryStart recursive scope).toList ++ (p.1.toList ++ []) := by
    simp
  rw [htext]
  simpa using hroute

theorem route_leafOf (recursive : Bool) (scope : Scope) {p : String × NodeTest}
    (h : p ∈ leafTests) (content : String) :
    Route (queryStart recursive scope ++ p.1 ++ bracketed (".=" ++ literalText content)).toList
      fun t id c => Reaches recursive scope t id c ∧ p.2.admits t .child (.tree c) = true ∧
        (NodeRef.tree c).stringValue t = content := by
  have hroute := route_step recursive scope (spellsTest_of_mem_leafTests h)
    (condition_content content).bracketed
  have htext : (queryStart recursive scope ++ p.1 ++
      bracketed (".=" ++ literalText content)).toList = (queryStart recursive scope).toList ++
        (p.1.toList ++ (bracketed (".=" ++ literalText content)).toList) := by
    simp
  rw [htext]
  exact hroute

/-- The members for one text are those for the pairs with it. -/
theorem unionOf_leafPairs (start : String) (texts : List String) :
    unionOf (texts.map fun content =>
      unionOf [start ++ "text()" ++ bracketed (".=" ++ literalText content),
        start ++ "comment()" ++ bracketed (".=" ++ literalText content)]) =
      unionOf ((leafPairs texts).map fun q =>
        start ++ q.1.1 ++ bracketed (".=" ++ literalText q.2)) := by
  simp only [unionOf]
  rw [intercalate_flatMap _ _ _ (by simp), leafPairs, List.map_flatMap]
  simp [leafTests]

theorem routes_textQuery (recursive : Bool) (scope : Scope) {test : TextTest}
    (htest : test ≠ .unspecified) :
    ∃ query, textQuery (queryStart recursive scope) test = .ok query ∧
      Routes query.toList fun t id c => Reaches recursive scope t id c ∧
        ∃ content, t.leaf? c = some content ∧ test.AdmitsLeaf content := by
  cases test with
  | unspecified => contradiction
  | any =>
    have hroutes := routes_unionOf (by simp [leafTests]) fun p (hp : p ∈ leafTests) =>
      route_leaf recursive scope hp
    refine ⟨_, rfl, hroutes.congr fun t id c => ?_⟩
    simp only [TextTest.AdmitsLeaf, leaf?_eq_some_iff]
    constructor
    · rintro ⟨p, hp, hreaches, hadmits⟩
      exact ⟨hreaches, _, ⟨p, hp, hadmits, rfl⟩, trivial⟩
    · rintro ⟨hreaches, content, ⟨p, hp, hadmits, -⟩, -⟩
      exact ⟨p, hp, hreaches, hadmits⟩
  | oneOf texts =>
    by_cases hnone : texts = []
    · refine ⟨emptyQuery, by simp [textQuery, hnone], routes_emptyQuery.congr fun t id c => ?_⟩
      simp [TextTest.AdmitsLeaf, hnone]
    · have hpairs : leafPairs texts ≠ [] := by
        simpa [leafPairs, leafTests] using List.exists_mem_of_ne_nil texts hnone
      have hroutes := routes_unionOf hpairs fun q hq =>
        route_leafOf recursive scope (fst_mem_of_mem_leafPairs hq) q.2
      rw [← unionOf_leafPairs] at hroutes
      refine ⟨_, by simp [textQuery, hnone], hroutes.congr fun t id c => ?_⟩
      simp only [exists_mem_leafPairs, TextTest.AdmitsLeaf, leaf?_eq_some_iff]
      constructor
      · rintro ⟨content, hcontent, p, hp, hreaches, hadmits, htext⟩
        exact ⟨hreaches, content, ⟨p, hp, hadmits, htext⟩, hcontent⟩
      · rintro ⟨hreaches, content, ⟨p, hp, hadmits, htext⟩, hcontent⟩
        exact ⟨content, hcontent, p, hp, hreaches, hadmits, htext⟩

/-! ## Elements -/

theorem admits_anyName_iff {t : Tree} {id : NodeId} :
    NodeTest.anyName.admits t .child (.tree id) = true ↔ ∃ tag, t.tagName? id = some tag := by
  simp only [NodeTest.admits, Tree.tagName?]
  cases t.get? id with
  | none => simp
  | some n => cases hn : n.content <;> simp [Node.tag?, hn]

theorem admits_name_iff {t : Tree} {id : NodeId} {tag : String} :
    (NodeTest.name tag).admits t .child (.tree id) = true ↔ t.tagName? id = some tag := by
  simp only [NodeTest.admits, Tree.tagName?]
  cases t.get? id with
  | none => simp
  | some n => cases hn : n.content <;> simp [Node.tag?, hn]

theorem name_eq_of_tagName? {t : Tree} {id : NodeId} {tag : String} (h : t.tagName? id = some tag) :
    (NodeRef.tree id).name t = tag := by
  simp only [Tree.tagName?, NodeRef.name] at *
  cases hget : t.get? id with
  | none => simp [hget] at h
  | some n => cases hn : n.content <;> simp_all [Node.tag?]

theorem route_anyElement (recursive : Bool) (scope : Scope) (hb : Restriction b P) :
    Route ((queryStart recursive scope).toList ++ (['*'] ++ b)) fun t id c =>
      Reaches recursive scope t id c ∧ (∃ tag, t.tagName? c = some tag) ∧ P t c := by
  have hroute := route_step recursive scope spellsTest_anyName hb
  simpa only [admits_anyName_iff] using hroute

theorem route_tagQuery (recursive : Bool) (scope : Scope) (tag : String) (hb : Restriction b P) :
    Route ((queryStart recursive scope).toList ++ ((tagQuery tag).toList ++ b)) fun t id c =>
      Reaches recursive scope t id c ∧ t.tagName? c = some tag ∧ P t c := by
  by_cases hplain : isPlainName tag = true
  · have hroute := route_step recursive scope (spellsTest_of_isPlainName hplain) hb
    simpa only [admits_name_iff, tagQuery, hplain, ↓reduceIte] using hroute
  · have hroute := route_anyElement recursive scope ((condition_nameEqual tag).restriction hb)
    have htext : (tagQuery tag).toList ++ b =
        ['*'] ++ ('[' :: ("name()=".toList ++ (literalText tag).toList) ++ ']' :: b) := by
      simp [tagQuery, hplain]
    rw [htext]
    refine hroute.congr fun t id c => ?_
    constructor
    · intro ⟨hreaches, ⟨called, hcalled⟩, hname, hc⟩
      rw [name_eq_of_tagName? hcalled] at hname
      exact ⟨hreaches, hname ▸ hcalled, hc⟩
    · intro ⟨hreaches, htag, hc⟩
      exact ⟨hreaches, ⟨tag, htag⟩, name_eq_of_tagName? htag, hc⟩

theorem routes_anyElement (config : Config) (spec : Spec) (scope : Scope)
    (hname : ∀ tag, spec.name.Admits tag) :
    Routes (queryStart spec.recursive scope ++ "*" ++
      (attributePredicates config spec.attributes ++ textPredicate spec.text)).toList fun t id c =>
        Reaches spec.recursive scope t id c ∧ spec.MatchesElement config t c := by
  have hroute := route_anyElement spec.recursive scope (restriction_element config spec)
  have htext : (queryStart spec.recursive scope ++ "*" ++
      (attributePredicates config spec.attributes ++ textPredicate spec.text)).toList =
        (queryStart spec.recursive scope).toList ++
          (['*'] ++
            (attributePredicates config spec.attributes ++ textPredicate spec.text).toList) := by
    simp
  rw [htext]
  refine hroute.routes.congr fun t id c => and_congr_right fun _ => ?_
  constructor
  · intro ⟨⟨tag, htag⟩, hattributes, hcontent⟩
    exact ⟨⟨tag, htag, hname tag⟩, hattributes, hcontent⟩
  · intro ⟨⟨tag, htag, _⟩, hattributes, hcontent⟩
    exact ⟨⟨tag, htag⟩, hattributes, hcontent⟩

theorem route_tagElement (config : Config) (spec : Spec) (scope : Scope) (tag : String) :
    Route (queryStart spec.recursive scope ++ tagQuery tag ++
      (attributePredicates config spec.attributes ++ textPredicate spec.text)).toList fun t id c =>
        Reaches spec.recursive scope t id c ∧ t.tagName? c = some tag ∧
          spec.attributes.Admits config t c ∧ spec.text.AdmitsElement t c := by
  have hroute := route_tagQuery spec.recursive scope tag (restriction_element config spec)
  have htext : (queryStart spec.recursive scope ++ tagQuery tag ++
      (attributePredicates config spec.attributes ++ textPredicate spec.text)).toList =
        (queryStart spec.recursive scope).toList ++ ((tagQuery tag).toList ++
          (attributePredicates config spec.attributes ++ textPredicate spec.text).toList) := by
    simp
  rw [htext]
  exact hroute

/-- The query for elements leads to those that answer to the normal form. -/
theorem routes_elementQuery (config : Config) (spec : Spec) (scope : Scope) :
    Routes (elementQuery config (queryStart spec.recursive scope) spec).toList fun t id c =>
      Reaches spec.recursive scope t id c ∧ spec.MatchesElement config t c := by
  cases hname : spec.name with
  | unspecified =>
    have hroutes := routes_anyElement config spec scope (by simp [hname, NameTest.Admits])
    simpa only [elementQuery, hname] using hroutes
  | any =>
    have hroutes := routes_anyElement config spec scope (by simp [hname, NameTest.Admits])
    simpa only [elementQuery, hname] using hroutes
  | oneOf names =>
    by_cases hnone : names = []
    · have htext : elementQuery config (queryStart spec.recursive scope) spec = emptyQuery := by
        simp [elementQuery, hname, hnone]
      rw [htext]
      refine routes_emptyQuery.congr fun t id c => ?_
      constructor
      · exact False.elim
      · intro ⟨_, hmatch⟩
        obtain ⟨tag, -, hadmits⟩ := hmatch.name
        simp [hname, hnone, NameTest.Admits] at hadmits
    · have hroutes := routes_unionOf hnone fun tag _ => route_tagElement config spec scope tag
      have htext : elementQuery config (queryStart spec.recursive scope) spec =
          unionOf (names.map fun tag => queryStart spec.recursive scope ++ tagQuery tag ++
            (attributePredicates config spec.attributes ++ textPredicate spec.text)) := by
        simp [elementQuery, hname, hnone]
      rw [htext]
      refine hroutes.congr fun t id c => ?_
      constructor
      · intro ⟨tag, hmem, hreaches, htag, hattributes, hcontent⟩
        exact ⟨hreaches, ⟨tag, htag, by simpa [hname, NameTest.Admits] using hmem⟩, hattributes,
          hcontent⟩
      · intro ⟨hreaches, ⟨tag, htag, hadmits⟩, hattributes, hcontent⟩
        have hmem : tag ∈ names := by simpa [hname, NameTest.Admits] using hadmits
        exact ⟨tag, hmem, hreaches, htag, hattributes, hcontent⟩

theorem unlimitedQuery_eq (config : Config) (spec : Spec) (scope : Scope) :
    spec.unlimitedQuery config scope =
      if spec.seeksLeaves then textQuery (queryStart spec.recursive scope) spec.text
      else .ok (elementQuery config (queryStart spec.recursive scope) spec) :=
  rfl

/-- The query for a normal form, before its limit, leads to what answers to it. -/
theorem routes_unlimitedQuery (config : Config) {spec : Spec} (scope : Scope)
    (hallowed : spec.seeksLeaves → spec.text ≠ .unspecified) :
    ∃ query, spec.unlimitedQuery config scope = .ok query ∧
      Routes query.toList fun t id c =>
        Reaches spec.recursive scope t id c ∧ spec.Matches config t c := by
  rw [unlimitedQuery_eq]
  unfold Spec.Matches
  split
  · rename_i hleaves
    exact routes_textQuery spec.recursive scope (hallowed hleaves)
  · exact ⟨_, rfl, routes_elementQuery config spec scope⟩

end MarkupQuery.Filter
