import MarkupQuery.Proofs.Filter.Matching
import MarkupQuery.Proofs.Text.Words
import MarkupQuery.Proofs.XPath.Kinds
import MarkupQuery.Proofs.XPath.Literals
import MarkupQuery.Proofs.XPath.Paths

/-!
# Conditions of queries

Each condition in the text of a query is read as an expression that holds of just the elements that
are meant, in every tree that can be built.
-/

namespace MarkupQuery.Filter

open XPath

/-- A text is read as a condition that holds of the nodes with the property. -/
def Condition (level : Level) (cs : List Char) (P : Tree → NodeId → Prop) : Prop :=
  ∃ e, (Phrase.level level).Spells cs e ∧ ∀ t : Tree, t.Assembled →
    ∃ holds, Holds t e holds ∧ ∀ id, holds (.tree id) ↔ P t id

/-- A text is read as predicates that keep the nodes with the property. -/
def Restriction (cs : List Char) (P : Tree → NodeId → Prop) : Prop :=
  ∃ predicates, SpellsPredicates cs predicates ∧ ∀ t : Tree, t.Assembled →
    ∃ keeps, Keeps t predicates keeps ∧ ∀ id, keeps (.tree id) ↔ P t id

variable {a b : List Char} {P Q : Tree → NodeId → Prop} {level : Level}

/-! ## Putting conditions together -/

namespace Condition

theorem congr (h : Condition level a P) (hiff : ∀ t id, P t id ↔ Q t id) :
    Condition level a Q := by
  obtain ⟨e, hspells, hmeans⟩ := h
  refine ⟨e, hspells, fun t ht => ?_⟩
  obtain ⟨holds, hholds, htree⟩ := hmeans t ht
  exact ⟨holds, hholds, fun id => (htree id).trans (hiff t id)⟩

theorem loosen (h : Condition .and a P) : Condition .or a P := by
  obtain ⟨e, hspells, hmeans⟩ := h
  exact ⟨e, hspells.loosen, hmeans⟩

theorem or (ha : Condition .or a P) (hb : Condition .and b Q) :
    Condition .or (a ++ [' ', 'o', 'r', ' '] ++ b) fun t id => P t id ∨ Q t id := by
  obtain ⟨x, hx, hP⟩ := ha
  obtain ⟨y, hy, hQ⟩ := hb
  have hoperand : (Phrase.operand .or).Spells b y := hy.map fun _ hd => .tighter .or hd
  refine ⟨_, hx.binary hoperand separates_or .or, fun t ht => ?_⟩
  obtain ⟨p, hp, hpt⟩ := hP t ht
  obtain ⟨q, hq, hqt⟩ := hQ t ht
  exact ⟨_, hp.or hq, fun id => or_congr (hpt id) (hqt id)⟩

theorem not (ha : Condition .or a P) :
    Condition .or ("not(".toList ++ a ++ [')']) fun t id => ¬ P t id := by
  obtain ⟨x, hx, hP⟩ := ha
  have hcall := Phrase.Spells.call .not (hx.map fun _ => .expr).lastArgument rfl
  have hspells : (Phrase.level .or).Spells ("not(".toList ++ a ++ [')']) (.call .not [x]) := by
    simpa [Function.name] using hcall.path_of_primary.level_of_path
  refine ⟨_, hspells, fun t ht => ?_⟩
  obtain ⟨p, hp, hpt⟩ := hP t ht
  exact ⟨_, hp.not, fun id => not_congr (hpt id)⟩

end Condition

theorem condition_false : Condition .or "false()".toList fun _ _ => False :=
  ⟨_, (Phrase.Spells.callNone .alwaysFalse rfl).path_of_primary.level_of_path, fun _ _ =>
    ⟨_, holds_alwaysFalse, fun _ => Iff.rfl⟩⟩

theorem intercalate_cons_eq {α : Type} (s x : List α) (l : List (List α)) :
    s.intercalate (x :: l) = x ++ l.flatMap (s ++ ·) := by
  induction l generalizing x with
  | nil => simp
  | cons y l ih => rw [List.intercalate_cons_cons, ih, List.flatMap_cons, List.append_assoc]; simp

section Alternatives

variable {α β : Type} (Part Whole : List Char → (β → Prop) → Prop) (separator : String)

/-- If a whole with a part behind it means that the one or the other holds, then a whole with
several parts behind it means that it or one of these holds. -/
theorem alternatives_behind
    (hjoin : ∀ {a b P Q}, Whole a P → Part b Q →
      Whole (a ++ separator.toList ++ b) fun x => P x ∨ Q x)
    (text : α → List Char) (P : α → β → Prop) {rest : List α} {a : List Char} {Q : β → Prop}
    (hwhole : Whole a Q) (hrest : ∀ y ∈ rest, Part (text y) (P y)) :
    Whole (a ++ rest.flatMap fun y => separator.toList ++ text y)
      fun x => Q x ∨ ∃ y ∈ rest, P y x := by
  induction rest generalizing a Q with
  | nil => simpa using hwhole
  | cons y rest ih =>
    have hlonger := ih (hjoin hwhole (hrest y (by simp))) fun z hz => hrest z (by simp [hz])
    rw [List.append_assoc] at hlonger
    simpa [or_assoc] using hlonger

theorem alternatives (hsingle : ∀ {a P}, Part a P → Whole a P)
    (hjoin : ∀ {a b P Q}, Whole a P → Part b Q →
      Whole (a ++ separator.toList ++ b) fun x => P x ∨ Q x)
    {text : α → String} (P : α → β → Prop) {l : List α} (hne : l ≠ [])
    (h : ∀ y ∈ l, Part (text y).toList (P y)) :
    Whole (separator.intercalate (l.map text)).toList fun x => ∃ y ∈ l, P y x := by
  obtain ⟨y, rest, rfl⟩ := List.exists_cons_of_ne_nil hne
  have hjoined := alternatives_behind Part Whole separator hjoin (fun z => (text z).toList) P
    (hsingle (h y (by simp))) fun z hz => h z (List.mem_cons_of_mem y hz)
  have htext : (separator.intercalate ((y :: rest).map text)).toList =
      (text y).toList ++ rest.flatMap fun z => separator.toList ++ (text z).toList := by
    rw [String.toList_intercalate, List.map_cons, List.map_cons, intercalate_cons_eq]
    simp [List.flatMap_map]
  rw [htext]
  simpa using hjoined

end Alternatives

theorem condition_anyOf {α : Type} {l : List α} {text : α → String}
    {P : α → Tree → NodeId → Prop} (hne : l ≠ [])
    (h : ∀ x ∈ l, Condition .and (text x).toList (P x)) :
    Condition .or (anyOf (l.map text)).toList fun t id => ∃ x ∈ l, P x t id :=
  alternatives (fun cs P => Condition .and cs fun t id => P (t, id))
    (fun cs P => Condition .or cs fun t id => P (t, id)) " or " Condition.loosen
    (fun ha hb => Condition.or ha hb) (fun x y => P x y.1 y.2) hne h

theorem restriction_nil : Restriction [] fun _ _ => True :=
  ⟨[], spellsPredicates_nil, fun _ _ => ⟨_, keeps_nil, fun _ => Iff.rfl⟩⟩

theorem Restriction.congr (h : Restriction a P) (hiff : ∀ t id, P t id ↔ Q t id) :
    Restriction a Q := by
  obtain ⟨predicates, hspells, hmeans⟩ := h
  refine ⟨predicates, hspells, fun t ht => ?_⟩
  obtain ⟨keeps, hkeeps, htree⟩ := hmeans t ht
  exact ⟨keeps, hkeeps, fun id => (htree id).trans (hiff t id)⟩

theorem Condition.restriction (ha : Condition .or a P) (hb : Restriction b Q) :
    Restriction ('[' :: a ++ ']' :: b) fun t id => P t id ∧ Q t id := by
  obtain ⟨x, hx, hP⟩ := ha
  obtain ⟨predicates, hpredicates, hQ⟩ := hb
  refine ⟨_, SpellsPredicates.cons (hx.map fun _ => .expr) hpredicates, fun t ht => ?_⟩
  obtain ⟨p, hp, hpt⟩ := hP t ht
  obtain ⟨q, hq, hqt⟩ := hQ t ht
  exact ⟨_, hq.cons hp, fun id => and_congr (hpt id) (hqt id)⟩

theorem Condition.bracketed {text : String} (h : Condition .or text.toList P) :
    Restriction (bracketed text).toList P := by
  have htext : (Filter.bracketed text).toList = '[' :: text.toList ++ ']' :: [] := by
    simp [Filter.bracketed]
  rw [htext]
  exact (h.restriction restriction_nil).congr fun t id => by simp

theorem condition_of_finds {e : Expr} (ha : Phrase.path.Spells a e)
    (hfinds : ∀ t : Tree, t.Assembled → ∃ finds, Finds t e finds ∧
      ∀ id, (∃ m, finds (.tree id) m) ↔ P t id) : Condition level a P := by
  refine ⟨e, ha.level_of_path, fun t ht => ?_⟩
  obtain ⟨finds, hf, hiff⟩ := hfinds t ht
  exact ⟨_, hf.holds, hiff⟩

/-! ## Names and literals -/

theorem isNameStart_of_isPlainName {name : String} (h : isPlainName name = true) :
    ∃ c cs, name.toList = c :: cs ∧ isNameStart c = true ∧ ∀ d ∈ cs, isNameChar d = true := by
  unfold isPlainName at h
  split at h
  · cases h
  · rename_i c cs hlist
    rw [Bool.and_eq_true, List.all_eq_true] at h
    refine ⟨c, cs, hlist, h.1, fun d hd => ?_⟩
    have hchar := h.2 d hd
    simp only [Text.isAlphanumeric, Bool.or_eq_true] at hchar
    simp only [isNameChar, isNameStart, Bool.or_eq_true]
    tauto

theorem spellsTest_of_isPlainName {name : String} (h : isPlainName name = true) :
    SpellsTest name.toList (.name name) := by
  obtain ⟨c, cs, hlist, hc, hcs⟩ := isNameStart_of_isPlainName h
  have htest := spellsTest_name hc hcs
  rwa [← hlist, String.ofList_toList] at htest

theorem spells_nameEqual (name : String) :
    (Phrase.level .or).Spells ("name()=".toList ++ (literalText name).toList)
      (.binary (.relation .equal) (.call .nameOf []) (literalExpr name)) := by
  have hspells := (Phrase.Spells.callNone .nameOf rfl).path_of_primary.equal
    (spells_literalText name).path_of_primary
  exact hspells.loosen

theorem condition_nameEqual (name : String) :
    Condition .or ("name()=".toList ++ (literalText name).toList)
      fun t id => (NodeRef.tree id).name t = name :=
  ⟨_, spells_nameEqual name, fun t _ =>
    ⟨_, (means_literalExpr t name).nameOf_equal, fun _ => Iff.rfl⟩⟩

/-! ## Conditions on attributes -/

theorem finds_attributeQuery (name : String) :
    ∃ e, Phrase.path.Spells (attributeQuery name).toList e ∧ ∀ t : Tree, t.Assembled →
      Finds t e fun n m => ∃ id called value, n = .tree id ∧ called = name ∧
        AttributeAt t id called value m := by
  by_cases hplain : isPlainName name = true
  · have htext : (attributeQuery name).toList = '@' :: name.toList ++ [] := by
      simp [attributeQuery, hplain]
    have hspells := (Phrase.Spells.attributeStep (spellsTest_of_isPlainName hplain)
      spellsPredicates_nil).lastStep.relative
    rw [htext]
    refine ⟨_, hspells, fun t ht => ?_⟩
    refine ((keeps_nil.leads_attribute (.name name) (· = name) ?_).walks ht).relative
    intro owner i a ha
    simp [NodeTest.admits, ha]
  · have htext : (attributeQuery name).toList =
        '@' :: ['*'] ++ ('[' :: ("name()=".toList ++ (literalText name).toList) ++ ']' :: []) := by
      simp [attributeQuery, hplain]
    have hspells := (Phrase.Spells.attributeStep spellsTest_anyName
      (SpellsPredicates.cons ((spells_nameEqual name).map fun _ => .expr)
        spellsPredicates_nil)).lastStep.relative
    rw [htext]
    refine ⟨_, hspells, fun t ht => ?_⟩
    have hkeeps := keeps_nil.cons (means_literalExpr t name).nameOf_equal
    refine ((hkeeps.leads_attribute .anyName (· = name) ?_).walks ht).relative
    intro owner i a ha
    simp [NodeTest.admits, NodeRef.name, ha]

/-- What a path to attributes finds at an element, when something more is asked of the value. -/
theorem exists_attributeAt_iff (t : Tree) (id : NodeId) (called accepts : String → Prop) :
    (∃ m, (∃ owner name value, NodeRef.tree id = .tree owner ∧ called name ∧
      AttributeAt t owner name value m) ∧ accepts (m.stringValue t)) ↔
        ∃ name value, called name ∧ (name, value) ∈ t.attributes id ∧ accepts value := by
  constructor
  · rintro ⟨m, ⟨owner, name, value, heq, hcalled, hm⟩, haccepts⟩
    cases heq
    exact ⟨name, value, hcalled, AttributeAt.exists_iff.1 ⟨m, hm⟩, hm.stringValue ▸ haccepts⟩
  · rintro ⟨name, value, hcalled, hmem, haccepts⟩
    obtain ⟨m, hm⟩ := AttributeAt.exists_iff.2 hmem
    exact ⟨m, ⟨id, name, value, rfl, hcalled, hm⟩, hm.stringValue.symm ▸ haccepts⟩

theorem condition_attributeQuery (name : String) :
    Condition level (attributeQuery name).toList
      fun t id => ∃ value, (name, value) ∈ t.attributes id := by
  obtain ⟨e, hspells, hfinds⟩ := finds_attributeQuery name
  refine condition_of_finds hspells fun t ht => ⟨_, hfinds t ht, fun id => ?_⟩
  simpa using exists_attributeAt_iff t id (· = name) fun _ => True

theorem spells_containsWords {path text : List Char} {e x : Expr}
    (hpath : Phrase.path.Spells path e) (htext : Phrase.path.Spells text x) :
    (Phrase.level .and).Spells
      (path ++ " and contains(concat(\" \", normalize-space(".toList ++ path ++
        "), \" \"), ".toList ++ text ++ [')'])
      (.binary .and e (.call .contains
        [.call .concat [.literal " ", .call .normalizeSpace [e], .literal " "], x])) := by
  have hspace : Phrase.expr.Spells ['"', ' ', '"'] (.literal " ") :=
    (Phrase.Spells.literal (.inl rfl) (by decide : '"' ∉ [' '])).expr_of_primary
  have hnormal := Phrase.Spells.call .normalizeSpace hpath.expr_of_path.lastArgument rfl
  have hconcat := Phrase.Spells.call .concat
    (hspace.argument (hnormal.expr_of_primary.argument hspace.lastArgument)) rfl
  have hcontains := Phrase.Spells.call .contains
    (hconcat.expr_of_primary.argument htext.expr_of_path.lastArgument) rfl
  have hboth := hpath.level_of_path.binary hcontains.path_of_primary.operand_of_path
    separates_and .and
  simpa [Function.name] using hboth

/-- The condition on a list attribute has a truth value: whether the words that are asked for stand
side by side in the attribute. -/
theorem exists_listCondition {config : Config} {name : String}
    (hlist : config.isListAttribute name = true) (wanted : String) :
    ∃ e, (Phrase.level .and).Spells (valueCondition config name wanted).toList e ∧
      e.kind = .truth ∧ ∀ t : Tree, t.Assembled → ∃ holds, Holds t e holds ∧ ∀ id,
        holds (.tree id) ↔ ∃ value, (name, value) ∈ t.attributes id ∧
          Accepts config name wanted value := by
  obtain ⟨e, hspells, hfinds⟩ := finds_attributeQuery name
  have hliteral := (spells_literalText (" " ++ Text.normalizeSpace wanted ++ " ")).path_of_primary
  have htext : (valueCondition config name wanted).toList =
      (attributeQuery name).toList ++ " and contains(concat(\" \", normalize-space(".toList ++
        (attributeQuery name).toList ++ "), \" \"), ".toList ++
        (literalText (" " ++ Text.normalizeSpace wanted ++ " ")).toList ++ [')'] := by
    simp [valueCondition, hlist]
  rw [htext]
  refine ⟨_, spells_containsWords hspells hliteral, rfl, fun t ht => ?_⟩
  refine ⟨_, (hfinds t ht).containsWords ?_ (means_literalExpr t _), fun id => ?_⟩
  · rintro n m k - ⟨id, called, value, rfl, rfl, hm⟩ ⟨owner, called', value', heq, rfl, hk⟩
    cases heq
    exact hm.unique ht hk
  · have haccepts (value : String) :
        (" " ++ Text.normalizeSpace wanted ++ " ").toList <:+:
          (" " ++ Text.normalizeSpace value ++ " ").toList ↔
            Accepts config name wanted value := by
      rw [Text.padded_infix_iff]
      simp [Accepts, hlist]
    simp only [haccepts]
    simpa using exists_attributeAt_iff t id (· = name) (Accepts config name wanted)

theorem condition_valueCondition (config : Config) (name wanted : String) :
    Condition .and (valueCondition config name wanted).toList
      fun t id => ∃ value, (name, value) ∈ t.attributes id ∧ Accepts config name wanted value := by
  by_cases hlist : config.isListAttribute name = true
  · obtain ⟨e, hspells, -, hholds⟩ := exists_listCondition hlist wanted
    exact ⟨e, hspells, hholds⟩
  · obtain ⟨e, hspells, hfinds⟩ := finds_attributeQuery name
    have htext : (valueCondition config name wanted).toList =
        (attributeQuery name).toList ++ ['='] ++ (literalText wanted).toList := by
      simp [valueCondition, hlist]
    rw [htext]
    refine ⟨_, hspells.equal (spells_literalText wanted).path_of_primary, fun t ht => ?_⟩
    refine ⟨_, (hfinds t ht).equal (means_literalExpr t wanted), fun id => ?_⟩
    have haccepts (value : String) : value = wanted ↔ Accepts config name wanted value := by
      simp [Accepts, hlist]
    simp only [haccepts]
    simpa using exists_attributeAt_iff t id (· = name) (Accepts config name wanted)

theorem condition_attributeCondition (config : Config) (name : String) (test : AttributeTest) :
    Condition .or (attributeCondition config name test).toList
      fun t id => test.Admits config t id name := by
  cases test with
  | absent =>
    have hspells := (condition_attributeQuery name).not
    have htext : (attributeCondition config name .absent).toList =
        "not(".toList ++ (attributeQuery name).toList ++ [')'] := by
      simp [attributeCondition]
    rw [htext]
    exact hspells
  | present => exact condition_attributeQuery name
  | exact wanted => exact (condition_valueCondition config name wanted).loosen
  | oneOf several =>
    simp only [attributeCondition, List.isEmpty_iff]
    split
    · rename_i hnone
      refine condition_false.congr fun t id => ?_
      simp [AttributeTest.Admits, hnone]
    · rename_i hsome
      exact condition_anyOf (P := fun wanted t id => ∃ value, (name, value) ∈ t.attributes id ∧
        Accepts config name wanted value) hsome fun wanted _ =>
          condition_valueCondition config name wanted

theorem condition_anyAttribute (wanted : String) :
    Condition .and ("@*=" ++ literalText wanted).toList
      fun t id => ∃ name, (name, wanted) ∈ t.attributes id := by
  have hpath := (Phrase.Spells.attributeStep spellsTest_anyName
    spellsPredicates_nil).lastStep.relative
  have hequal := hpath.equal (spells_literalText wanted).path_of_primary
  have htext : ("@*=" ++ literalText wanted).toList =
      '@' :: ['*'] ++ [] ++ ['='] ++ (literalText wanted).toList := by
    simp
  rw [htext]
  refine ⟨_, hequal, fun t ht => ?_⟩
  have hleads := keeps_nil.leads_attribute (t := t) .anyName (fun _ => True) fun owner i a ha => by
    simp [NodeTest.admits, ha]
  refine ⟨_, (hleads.walks ht).relative.equal (means_literalExpr t wanted), fun id => ?_⟩
  simpa using exists_attributeAt_iff t id (fun _ => True) (· = wanted)

/-! ## Conditions on texts -/

/-- The node tests that texts and comments are looked for with. -/
def leafTests : List (String × NodeTest) := [("text()", .text), ("comment()", .comment)]

theorem spellsTest_of_mem_leafTests {p : String × NodeTest} (h : p ∈ leafTests) :
    SpellsTest p.1.toList p.2 := by
  simp only [leafTests, List.mem_cons, List.not_mem_nil, or_false] at h
  rcases h with rfl | rfl
  · simpa using spellsTest_text
  · simpa using spellsTest_comment

/-- A leaf passes one of the tests, and has its content as its text. -/
theorem leaf?_eq_some_iff {t : Tree} {id : NodeId} {content : String} :
    t.leaf? id = some content ↔ ∃ p ∈ leafTests, p.2.admits t .child (.tree id) = true ∧
      (NodeRef.tree id).stringValue t = content := by
  simp only [leafTests, List.mem_cons, List.not_mem_nil, or_false, exists_eq_or_imp,
    exists_eq_left, Tree.leaf?, NodeTest.admits, NodeRef.stringValue, Tree.textContent]
  cases t.get? id with
  | none => simp
  | some n => cases hn : n.content <;> simp [Node.text?, Node.comment?, hn]

theorem condition_leafChild {p : String × NodeTest} (h : p ∈ leafTests) :
    Condition .and p.1.toList
      fun t id => ∃ c, t.Up c id ∧ p.2.admits t .child (.tree c) = true := by
  have hspells := (Phrase.Spells.childStep (spellsTest_of_mem_leafTests h)
    spellsPredicates_nil).lastStep.relative
  rw [List.append_nil] at hspells
  refine condition_of_finds hspells fun t ht => ?_
  refine ⟨_, (keeps_nil.walks_child ht p.2).relative, fun id => ?_⟩
  simp [onTree_tree, childTest]

theorem condition_leafBelow {p : String × NodeTest} (h : p ∈ leafTests) (content : String) :
    Condition .and (".//" ++ p.1 ++ "=" ++ literalText content).toList
      fun t id => ∃ d, t.Below d id ∧ p.2.admits t .child (.tree d) = true ∧
        (NodeRef.tree d).stringValue t = content := by
  have hpath := (Phrase.Spells.childStep (spellsTest_of_mem_leafTests h)
    spellsPredicates_nil).lastStep.anywhereBelow
  have hequal := hpath.equal (spells_literalText content).path_of_primary
  have htext : (".//" ++ p.1 ++ "=" ++ literalText content).toList =
      '.' :: '/' :: '/' :: (p.1.toList ++ []) ++ ['='] ++ (literalText content).toList := by
    simp
  rw [htext]
  refine ⟨_, hequal, fun t ht => ?_⟩
  have hfinds := (keeps_nil.walks_anywhereBelow ht p.2).relative
  refine ⟨_, hfinds.equal (means_literalExpr t content), fun id => ?_⟩
  simp [onTree_tree, childTest, and_assoc]

/-- Alternatives that are written out in groups. -/
theorem intercalate_flatMap {α : Type} (sep : String) (l : List α) (f : α → List String)
    (hne : ∀ x ∈ l, f x ≠ []) :
    sep.intercalate (l.map fun x => sep.intercalate (f x)) = sep.intercalate (l.flatMap f) := by
  induction l with
  | nil => rfl
  | cons x l ih =>
    have hl := ih fun y hy => hne y (by simp [hy])
    cases l with
    | nil => simp
    | cons y l =>
      have hsome : (y :: l).flatMap f ≠ [] := by
        simp [hne y (by simp)]
      rw [List.flatMap_cons, String.intercalate_append_of_ne_nil (hne x (by simp)) hsome,
        List.map_cons, String.intercalate_cons_of_ne_nil (by simp), hl]

/-- Each of several texts with each of the tests for leaves. -/
def leafPairs (texts : List String) : List ((String × NodeTest) × String) :=
  texts.flatMap fun content => leafTests.map fun p => (p, content)

theorem exists_mem_leafPairs {texts : List String} {P : (String × NodeTest) × String → Prop} :
    (∃ q ∈ leafPairs texts, P q) ↔ ∃ content ∈ texts, ∃ p ∈ leafTests, P (p, content) := by
  simp only [leafPairs, List.mem_flatMap, List.mem_map]
  constructor
  · rintro ⟨q, ⟨content, hcontent, p, hp, rfl⟩, hq⟩
    exact ⟨content, hcontent, p, hp, hq⟩
  · rintro ⟨content, hcontent, p, hp, hq⟩
    exact ⟨_, ⟨content, hcontent, p, hp, rfl⟩, hq⟩

theorem fst_mem_of_mem_leafPairs {texts : List String} {q : (String × NodeTest) × String}
    (h : q ∈ leafPairs texts) : q.1 ∈ leafTests := by
  obtain ⟨content, -, p, hp, rfl⟩ := exists_mem_leafPairs.1 ⟨q, h, rfl⟩
  exact hp

/-- The alternatives for one text are those for the pairs with it. -/
theorem anyOf_leafPairs (texts : List String) :
    anyOf (texts.map fun content =>
      ".//text()=" ++ literalText content ++ " or .//comment()=" ++ literalText content) =
      anyOf ((leafPairs texts).map fun q => ".//" ++ q.1.1 ++ "=" ++ literalText q.2) := by
  have hgroup (content : String) :
      ".//text()=" ++ literalText content ++ " or .//comment()=" ++ literalText content =
        anyOf (leafTests.map fun p => ".//" ++ p.1 ++ "=" ++ literalText content) := by
    simp [anyOf, leafTests, ← String.toList_inj]
  simp only [hgroup, anyOf]
  rw [intercalate_flatMap _ _ _ (by simp [leafTests]), leafPairs, List.map_flatMap]
  simp only [List.map_map, Function.comp_def]

theorem restriction_textPredicate (test : TextTest) :
    Restriction (textPredicate test).toList fun t id => test.AdmitsElement t id := by
  cases test with
  | unspecified => exact restriction_nil
  | any =>
    have hany := condition_anyOf (by simp [leafTests]) fun p (hp : p ∈ leafTests) =>
      condition_leafChild hp
    refine hany.bracketed.congr fun t id => ?_
    simp only [TextTest.AdmitsElement, leaf?_eq_some_iff]
    constructor
    · rintro ⟨p, hp, c, hup, hadmits⟩
      exact ⟨c, _, hup, p, hp, hadmits, rfl⟩
    · rintro ⟨c, content, hup, p, hp, hadmits, -⟩
      exact ⟨p, hp, c, hup, hadmits⟩
  | oneOf texts =>
    unfold textPredicate
    simp only [List.isEmpty_iff]
    split
    · rename_i hnone
      exact condition_false.bracketed.congr fun t id => by simp [TextTest.AdmitsElement, hnone]
    · rename_i hsome
      have hpairs : leafPairs texts ≠ [] := by
        simpa [leafPairs, leafTests] using List.exists_mem_of_ne_nil texts hsome
      have hone := condition_anyOf hpairs fun q hq =>
        condition_leafBelow (fst_mem_of_mem_leafPairs hq) q.2
      rw [← anyOf_leafPairs] at hone
      refine hone.bracketed.congr fun t id => ?_
      simp only [exists_mem_leafPairs, TextTest.AdmitsElement, leaf?_eq_some_iff]
      constructor
      · rintro ⟨content, hcontent, p, hp, d, hbelow, hd⟩
        exact ⟨content, hcontent, d, hbelow, p, hp, hd⟩
      · rintro ⟨content, hcontent, d, hbelow, p, hp, hd⟩
        exact ⟨content, hcontent, p, hp, d, hbelow, hd⟩

/-! ## All predicates of an element -/

/-- The predicates for constraints by attribute, in front of further ones. -/
theorem restriction_constraintPredicates (config : Config) (tests : List (String × AttributeTest))
    (hb : Restriction b Q) :
    Restriction ((constraintPredicates config tests).toList ++ b)
      fun t id => (∀ entry ∈ tests, entry.2.Admits config t id entry.1) ∧ Q t id := by
  induction tests with
  | nil => exact (by simpa [constraintPredicates] using hb)
  | cons entry tests ih =>
    have hfirst := (condition_attributeCondition config entry.1 entry.2).restriction ih
    have htext : (constraintPredicates config (entry :: tests)).toList ++ b =
        '[' :: (attributeCondition config entry.1 entry.2).toList ++ ']' ::
          ((constraintPredicates config tests).toList ++ b) := by
      simp [constraintPredicates, bracketed]
    rw [htext]
    exact hfirst.congr fun t id => by simp [and_assoc]

/-- The predicate for values that any attribute may have, in front of further ones. -/
theorem restriction_valuesPredicate (values : List String) (hb : Restriction b Q) :
    Restriction ((valuesPredicate values).toList ++ b) fun t id =>
      (values ≠ [] → ∃ wanted ∈ values, ∃ name, (name, wanted) ∈ t.attributes id) ∧ Q t id := by
  by_cases hnone : values = []
  · simpa [valuesPredicate, hnone] using hb
  · have hany := condition_anyOf hnone fun wanted _ => condition_anyAttribute wanted
    have htext : (valuesPredicate values).toList ++ b =
        '[' :: (anyOf (values.map fun value => "@*=" ++ literalText value)).toList ++
          ']' :: b := by
      simp [valuesPredicate, bracketed, hnone]
    rw [htext]
    exact (hany.restriction hb).congr fun t id => by simp [hnone]

theorem restriction_attributePredicates (config : Config) (test : AttributesTest)
    (hb : Restriction b Q) :
    Restriction ((attributePredicates config test).toList ++ b)
      fun t id => test.Admits config t id ∧ Q t id := by
  cases test with
  | named constraints => exact restriction_constraintPredicates config constraints hb
  | wildcard values constraints =>
    have hrest := restriction_constraintPredicates config constraints hb
    have hall := restriction_valuesPredicate values hrest
    rw [attributePredicates, String.toList_append, List.append_assoc]
    exact hall.congr fun t id => and_assoc.symm

/-- The predicates for the elements that a normal form looks for. -/
theorem restriction_element (config : Config) (spec : Spec) :
    Restriction (attributePredicates config spec.attributes ++ textPredicate spec.text).toList
      fun t id => spec.attributes.Admits config t id ∧ spec.text.AdmitsElement t id := by
  rw [String.toList_append]
  exact restriction_attributePredicates config spec.attributes (restriction_textPredicate spec.text)

end MarkupQuery.Filter
