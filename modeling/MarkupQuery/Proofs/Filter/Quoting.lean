import MarkupQuery.Proofs.Filter.Splicing

/-!
# Where queries hold literals

A query is written with the names and values of its filter as literals.  They stand in it one behind
the other, in the order in which the filter has them, and each behind equality or as an argument of
a call.  So what holds of a literal in such a place holds of all that a query is written with.
-/

namespace MarkupQuery

namespace XPath

variable {afterOperand between behind : Bool} {cs ds text : List Char} {ss ss' : List String}

/-! ## Texts in front of others -/

/-- The text has the same tokens in front of every text that may stand behind it.  What follows an
operand has to begin with a fence. -/
def Heads (afterOperand : Bool) (cs : List Char) (behind : Bool) : Prop :=
  ∃ tokens, ∀ rest more, (behind = true → Fence rest) → Scans behind rest more →
    (afterOperand = true → Fence (cs ++ rest)) ∧ Scans afterOperand (cs ++ rest) (tokens ++ more)

theorem Heads.nil : Heads afterOperand [] afterOperand :=
  ⟨[], fun _ _ hfence hmore => ⟨hfence, hmore⟩⟩

theorem Heads.append (h : Heads afterOperand cs between) (h' : Heads between ds behind) :
    Heads afterOperand (cs ++ ds) behind := by
  obtain ⟨ts, hts⟩ := h
  obtain ⟨us, hus⟩ := h'
  refine ⟨ts ++ us, fun rest more hfence hmore => ?_⟩
  obtain ⟨hfence, hmore⟩ := hus rest more hfence hmore
  rw [List.append_assoc, List.append_assoc]
  exact hts _ _ hfence hmore

theorem Phrase.Spells.heads {p : Phrase} {r : p.Result} (h : p.Spells cs r) :
    Heads false cs true := by
  obtain ⟨tokens, -, hscans⟩ := h
  exact ⟨tokens, fun rest more hfence hmore => ⟨nofun, hscans rest more (hfence rfl) hmore⟩⟩

theorem SpellsTest.heads {test : NodeTest} (h : SpellsTest cs test) : Heads false cs true := by
  obtain ⟨tokens, -, hscans⟩ := h
  exact ⟨tokens, fun rest more hfence hmore => ⟨nofun, hscans rest more (hfence rfl) hmore⟩⟩

theorem SpellsPredicates.heads {predicates : List Expr} (h : SpellsPredicates cs predicates) :
    Heads true cs true := by
  obtain ⟨tokens, -, hscans⟩ := h
  refine ⟨tokens, fun rest more hfence hmore => ?_⟩
  obtain ⟨hfence, hmore⟩ := hscans rest more (hfence rfl) hmore
  exact ⟨fun _ => hfence, hmore⟩

theorem Separates.heads {token : Token} (h : Separates cs token) : Heads true cs false :=
  ⟨[token], fun rest _ _ hmore => ⟨fun _ => h.fence rest, h.scans hmore⟩⟩

theorem Starts.heads {tokens : List Token} (h : Starts false cs tokens behind) :
    Heads false cs behind :=
  ⟨tokens, fun rest more _ hmore => ⟨nofun, (h rest _).2 ⟨more, rfl, hmore⟩⟩⟩

theorem heads_call (function : Function) : Heads false (function.name.toList ++ ['(']) false :=
  ⟨[.function function.name, .leftParen], fun rest more _ hmore =>
    ⟨nofun, by simpa using Scans.function function hmore⟩⟩

theorem heads_rightParen : Heads true [')'] true :=
  ⟨[.rightParen], fun rest _ _ hmore =>
    ⟨fun _ => fence_rightParen rest, Scans.symbol [')'] rfl rfl hmore⟩⟩

theorem heads_rightBracket : Heads true [']'] true :=
  ⟨[.rightBracket], fun rest _ _ hmore =>
    ⟨fun _ => fence_rightBracket rest, Scans.symbol [']'] rfl rfl hmore⟩⟩

/-! ## Literals in a text -/

/-- Behind `before` the text goes on with the literal of `s`, in a place for literals. -/
structure QuotedAt (afterOperand : Bool) (text before : List Char) (s : String) : Prop where
  within : before ++ (literalText s).toList <+: text
  fence : afterOperand = true → Fence before
  invited : ∃ tokens, Scans afterOperand before tokens ∧ Invites tokens

/-- The text holds the literals of these texts, one behind the other, in places for literals. -/
def Quotes (afterOperand : Bool) (text : List Char) (ss : List String) : Prop :=
  ∃ places : List (List Char × String), places.map Prod.snd = ss ∧
    (∀ p ∈ places, QuotedAt afterOperand text p.1 p.2) ∧
    places.Pairwise fun p q => p.1.length < q.1.length

theorem Invites.append {tokens : List Token} (h : Invites tokens) (front : List Token) :
    Invites (front ++ tokens) := by
  cases h with
  | equation front' => exact List.append_assoc front front' _ ▸ .equation (front ++ front')
  | firstArgument front' name =>
    exact List.append_assoc front front' _ ▸ .firstArgument (front ++ front') name
  | nextArgument front' => exact List.append_assoc front front' _ ▸ .nextArgument (front ++ front')

theorem length_literalText_pos (s : String) : 0 < (literalText s).toList.length := by
  unfold literalText
  dsimp only
  split_ifs <;> simp [enclose]

namespace QuotedAt

variable {before : List Char} {s : String}

theorem length_lt (h : QuotedAt afterOperand text before s) : before.length < text.length := by
  have hle := h.within.length_le
  have hpos := length_literalText_pos s
  rw [List.length_append] at hle
  omega

theorem append (h : QuotedAt afterOperand text before s) (rest : List Char) :
    QuotedAt afterOperand (text ++ rest) before s where
  within := h.within.trans (List.prefix_append text rest)
  fence := h.fence
  invited := h.invited

theorem opened (h : QuotedAt behind text before s) (hcs : Heads afterOperand cs behind) :
    QuotedAt afterOperand (cs ++ text) (cs ++ before) s := by
  obtain ⟨ts, hts⟩ := hcs
  obtain ⟨tokens, hscans, hinvites⟩ := h.invited
  obtain ⟨hfence, hscans⟩ := hts before tokens h.fence hscans
  refine ⟨?_, hfence, _, hscans, hinvites.append ts⟩
  rw [List.append_assoc]
  exact (List.prefix_append_right_inj cs).2 h.within

end QuotedAt

namespace Quotes

theorem nil : Quotes afterOperand text [] :=
  ⟨[], rfl, nofun, .nil⟩

/-- A text with literals behind another one. -/
theorem append (h : Quotes afterOperand text ss) (htext : Heads afterOperand text behind)
    (h' : Quotes behind cs ss') : Quotes afterOperand (text ++ cs) (ss ++ ss') := by
  obtain ⟨places, rfl, hplaces, hpairs⟩ := h
  obtain ⟨places', rfl, hplaces', hpairs'⟩ := h'
  refine ⟨places ++ places'.map fun p => (text ++ p.1, p.2), by simp, fun p hp => ?_, ?_⟩
  · rcases List.mem_append.1 hp with hp | hp
    · exact (hplaces p hp).append cs
    · obtain ⟨q, hq, rfl⟩ := List.mem_map.1 hp
      exact (hplaces' q hq).opened htext
  · refine List.pairwise_append.2 ⟨hpairs, ?_, fun p hp q hq => ?_⟩
    · rw [List.pairwise_map]
      exact hpairs'.imp fun hlt => by simpa using hlt
    · obtain ⟨r, -, rfl⟩ := List.mem_map.1 hq
      have hlt := (hplaces p hp).length_lt
      rw [List.length_append]
      omega

end Quotes

/-- The text holds literals in front of any text that may stand behind it. -/
structure Writes (afterOperand : Bool) (cs : List Char) (behind : Bool) (ss : List String) :
    Prop where
  heads : Heads afterOperand cs behind
  quotes : Quotes afterOperand cs ss

theorem Heads.writes (h : Heads afterOperand cs behind) : Writes afterOperand cs behind [] :=
  ⟨h, .nil⟩

/-- The literal behind a token that it may stand behind. -/
theorem Separates.writes {separator : List Char} {token : Token} (h : Separates separator token)
    (hinvites : ∀ front, Invites (front ++ [token])) (s : String) :
    Writes true (separator ++ (literalText s).toList) true [s] := by
  have hfence := h.fence []
  have hscans := h.scans .nil
  rw [List.append_nil] at hfence hscans
  have hquoted : QuotedAt true (separator ++ (literalText s).toList) separator s :=
    ⟨List.prefix_rfl, fun _ => hfence, _, hscans, hinvites []⟩
  exact ⟨h.heads.append (starts_literalText s).heads, [(separator, s)], rfl,
    List.forall_mem_singleton.2 hquoted, List.pairwise_singleton _ _⟩

namespace Writes

theorem append (h : Writes afterOperand cs between ss) (h' : Writes between ds behind ss') :
    Writes afterOperand (cs ++ ds) behind (ss ++ ss') :=
  ⟨h.heads.append h'.heads, h.quotes.append h.heads h'.quotes⟩

/-- Several texts with a separator between them. -/
theorem intercalate {α : Type} {separator : String} {write : α → String}
    {quoted : α → List String} {l : List α} (hseparator : Heads true separator.toList false)
    (hne : l ≠ []) (h : ∀ x ∈ l, Writes false (write x).toList true (quoted x)) :
    Writes false (separator.intercalate (l.map write)).toList true (l.flatMap quoted) := by
  induction l with
  | nil => contradiction
  | cons x l ih =>
    obtain ⟨hx, hl⟩ := List.forall_mem_cons.1 h
    cases l with
    | nil => simpa using hx
    | cons y l =>
      have hrest := hseparator.writes.append (ih (List.cons_ne_nil y l) hl)
      rw [List.map_cons, String.intercalate_cons_of_ne_nil (by simp), String.toList_append,
        String.toList_append, List.append_assoc, List.flatMap_cons]
      exact hx.append hrest

end Writes

/-- Places for the literals that a text holds, each behind the one before. -/
theorem Quotes.exists_splices {source : String} (h : Quotes false source.toList ss) :
    ∃ places : List Splice, List.Forall₂ (fun place s => place.fill s = source) places ss ∧
      places.Pairwise fun p q => p.before.toList.length < q.before.toList.length := by
  obtain ⟨quoted, rfl, hquoted, hpairs⟩ := h
  have hplaces : ∃ places : List Splice,
      places.map (fun place => place.before.toList) = quoted.map Prod.fst ∧
        List.Forall₂ (fun place s => place.fill s = source) places (quoted.map Prod.snd) := by
    clear hpairs
    induction quoted with
    | nil => exact ⟨[], rfl, .nil⟩
    | cons p quoted ih =>
      obtain ⟨hp, hrest⟩ := List.forall_mem_cons.1 hquoted
      obtain ⟨places, hbefore, hfill⟩ := ih hrest
      obtain ⟨after, hafter⟩ := hp.within
      obtain ⟨tokens, hscans, hinvites⟩ := hp.invited
      rw [← String.toList_ofList (l := p.1)] at hscans
      refine ⟨⟨String.ofList p.1, String.ofList after, tokens, hscans, hinvites⟩ :: places, ?_, ?_⟩
      · rw [List.map_cons, hbefore, String.toList_ofList, List.map_cons]
      · refine .cons ?_ hfill
        rw [← String.toList_inj, Splice.fill]
        simpa using hafter
  obtain ⟨places, hbefore, hfill⟩ := hplaces
  have hlengths : (quoted.map Prod.fst).Pairwise fun cs ds => cs.length < ds.length :=
    List.pairwise_map.2 hpairs
  rw [← hbefore, List.pairwise_map] at hlengths
  exact ⟨places, hfill, hlengths⟩

end XPath

namespace Filter

open XPath

/-! ## The literals of a filter -/

/-- The texts of the literals in the test for a name. -/
def nameLiterals (name : String) : List String :=
  if isPlainName name then [] else [name]

/-- The texts of the literals in the condition that an attribute has a value; a list attribute is
named twice in it. -/
def valueLiterals (config : Config) (name value : String) : List String :=
  if config.isListAttribute name then
    nameLiterals name ++ nameLiterals name ++ [" " ++ Text.normalizeSpace value ++ " "]
  else nameLiterals name ++ [value]

/-- The texts of the literals in the condition on one attribute. -/
def attributeLiterals (config : Config) (name : String) : AttributeTest → List String
  | .absent | .present => nameLiterals name
  | .exact value => valueLiterals config name value
  | .oneOf values => values.flatMap (valueLiterals config name)

/-- The texts of the literals in the predicates for constraints by attribute. -/
def constraintLiterals (config : Config) (constraints : List (String × AttributeTest)) :
    List String :=
  constraints.flatMap fun entry => attributeLiterals config entry.1 entry.2

/-- The texts of the literals in the predicates for what is asked of attributes. -/
def attributesLiterals (config : Config) : AttributesTest → List String
  | .named constraints => constraintLiterals config constraints
  | .wildcard values constraints => values ++ constraintLiterals config constraints

/-- The texts of the literals in what is asked of texts: each is compared with the texts and with
the comments. -/
def textLiterals : TextTest → List String
  | .unspecified | .any => []
  | .oneOf texts => texts.flatMap fun text => [text, text]

/-- The texts of all literals in the query for a normal form, in order. -/
def Spec.literals (config : Config) (spec : Spec) : List String :=
  if spec.seeksLeaves then textLiterals spec.text
  else
    let predicates := attributesLiterals config spec.attributes ++ textLiterals spec.text
    match spec.name with
    | .unspecified | .any => predicates
    | .oneOf names => names.flatMap fun name => nameLiterals name ++ predicates

/-! ## Names and attributes -/

variable {config : Config} {ss : List String}

theorem writes_bracketed {condition : String} (h : Writes false condition.toList true ss) :
    Writes true (bracketed condition).toList true ss := by
  have hall := separates_leftBracket.heads.writes.append (h.append heads_rightBracket.writes)
  simpa [bracketed] using hall

theorem writes_tagQuery (name : String) :
    Writes false (tagQuery name).toList true (nameLiterals name) := by
  unfold tagQuery nameLiterals
  split
  · rename_i hplain
    exact (spellsTest_of_isPlainName hplain).heads.writes
  · have hcall : Heads false "name()".toList true := (Phrase.Spells.callNone .nameOf rfl).heads
    have hequal : Writes false ("name()=" ++ literalText name).toList true [name] := by
      simpa using hcall.writes.append (separates_equal.writes .equation name)
    have hall := spellsTest_anyName.heads.writes.append (writes_bracketed hequal)
    simpa [bracketed] using hall

theorem writes_attributeQuery (name : String) :
    Writes false (attributeQuery name).toList true (nameLiterals name) := by
  have htext : (attributeQuery name).toList = ['@'] ++ (tagQuery name).toList := by
    unfold attributeQuery tagQuery
    split <;> simp
  have hat : Starts false ['@'] [.atSign] false := .symbol (fun _ => rfl) (by decide)
  rw [htext]
  exact hat.heads.writes.append (writes_tagQuery name)

theorem writes_valueCondition (config : Config) (name value : String) :
    Writes false (valueCondition config name value).toList true
      (valueLiterals config name value) := by
  have hpath := writes_attributeQuery name
  unfold valueCondition valueLiterals
  dsimp only
  split
  · -- the path stands in front of the condition and once more in the calls
    have hspace : Heads false ['"', ' ', '"'] true :=
      (Starts.literal (.inl rfl) (by decide : '"' ∉ [' '])).heads
    have hcalls : Heads true " and contains(concat(\" \", normalize-space(".toList false := by
      have hcall := (heads_call .contains).append ((heads_call .concat).append
        (hspace.append (separates_comma.heads.append (heads_call .normalizeSpace))))
      simpa [Function.name] using separates_and.heads.append hcall
    have hclose : Heads true "), \" \")".toList true := by
      simpa using heads_rightParen.append (separates_comma.heads.append
        (hspace.append heads_rightParen))
    have hvalue := (separates_comma.writes .nextArgument
      (" " ++ Text.normalizeSpace value ++ " ")).append heads_rightParen.writes
    have hall := hpath.append (hcalls.writes.append (hpath.append (hclose.writes.append hvalue)))
    simpa using hall
  · simpa using hpath.append (separates_equal.writes .equation value)

theorem writes_anyOf {α : Type} {write : α → String} {quoted : α → List String} {l : List α}
    (hne : l ≠ []) (h : ∀ x ∈ l, Writes false (write x).toList true (quoted x)) :
    Writes false (anyOf (l.map write)).toList true (l.flatMap quoted) :=
  .intercalate separates_or.heads hne h

theorem heads_false : Heads false "false()".toList true :=
  (Phrase.Spells.callNone .alwaysFalse rfl).heads

theorem writes_attributeCondition (config : Config) (name : String) (test : AttributeTest) :
    Writes false (attributeCondition config name test).toList true
      (attributeLiterals config name test) := by
  have hpath := writes_attributeQuery name
  cases test with
  | absent =>
    have hall := (heads_call .not).writes.append (hpath.append heads_rightParen.writes)
    simpa [attributeCondition, attributeLiterals, Function.name] using hall
  | present => exact hpath
  | exact value => exact writes_valueCondition config name value
  | oneOf values =>
    simp only [attributeCondition, attributeLiterals, List.isEmpty_iff]
    split
    · rename_i hnone
      simpa [hnone] using heads_false.writes
    · rename_i hsome
      exact writes_anyOf hsome fun value _ => writes_valueCondition config name value

theorem writes_constraintPredicates (config : Config)
    (constraints : List (String × AttributeTest)) :
    Writes true (constraintPredicates config constraints).toList true
      (constraintLiterals config constraints) := by
  induction constraints with
  | nil => exact Heads.nil.writes
  | cons entry constraints ih =>
    have hfirst := writes_bracketed (writes_attributeCondition config entry.1 entry.2)
    simpa [constraintPredicates, constraintLiterals] using hfirst.append ih

theorem writes_valuesPredicate (values : List String) :
    Writes true (valuesPredicate values).toList true values := by
  have hany (value : String) : Writes false ("@*=" ++ literalText value).toList true [value] := by
    have hpath := (Phrase.Spells.attributeStep spellsTest_anyName spellsPredicates_nil).heads
    simpa using hpath.writes.append (separates_equal.writes .equation value)
  simp only [valuesPredicate, List.isEmpty_iff]
  split
  · rename_i hnone
    simpa [hnone] using Heads.nil.writes
  · rename_i hsome
    simpa using writes_bracketed (writes_anyOf hsome fun value _ => hany value)

theorem writes_attributePredicates (config : Config) (test : AttributesTest) :
    Writes true (attributePredicates config test).toList true (attributesLiterals config test) := by
  cases test with
  | named constraints => exact writes_constraintPredicates config constraints
  | wildcard values constraints =>
    have hall := (writes_valuesPredicate values).append
      (writes_constraintPredicates config constraints)
    simpa [attributePredicates, attributesLiterals] using hall

/-! ## Texts -/

/-- What is written for each of the texts with one test and then with the other holds each text
twice. -/
theorem flatMap_leafPairs (texts : List String) :
    (leafPairs texts).flatMap (fun q => [q.2]) = textLiterals (.oneOf texts) := by
  simp [leafPairs, leafTests, textLiterals, List.flatMap_assoc]

theorem writes_textPredicate (test : TextTest) :
    Writes true (textPredicate test).toList true (textLiterals test) := by
  cases test with
  | unspecified => exact Heads.nil.writes
  | any =>
    obtain ⟨predicates, hspells, -⟩ := restriction_textPredicate .any
    exact hspells.heads.writes
  | oneOf texts =>
    have hpair : ∀ q ∈ leafPairs texts,
        Writes false (".//" ++ q.1.1 ++ "=" ++ literalText q.2).toList true [q.2] := by
      intro q hq
      have htest := spellsTest_of_mem_leafTests (fst_mem_of_mem_leafPairs hq)
      have hpath := (Phrase.Spells.childStep htest spellsPredicates_nil).lastStep.anywhereBelow
      simpa using hpath.heads.writes.append (separates_equal.writes .equation q.2)
    simp only [textPredicate, List.isEmpty_iff]
    split
    · rename_i hnone
      simpa [hnone, textLiterals, bracketed] using writes_bracketed heads_false.writes
    · rename_i hsome
      have hpairs : leafPairs texts ≠ [] := by
        simpa [leafPairs, leafTests] using List.exists_mem_of_ne_nil texts hsome
      have hany := writes_bracketed (writes_anyOf hpairs hpair)
      rwa [← anyOf_leafPairs, flatMap_leafPairs] at hany

/-! ## Queries -/

theorem heads_queryStart (recursive : Bool) (scope : Scope) :
    Heads false (queryStart recursive scope).toList false := by
  have hslashes (afterOperand : Bool) (rest : List Char) (more : List Token)
      (hmore : Scans false rest more) :
      Scans afterOperand ('/' :: '/' :: rest) (.doubleSlash :: more) :=
    Scans.symbol ['/', '/'] rfl rfl hmore
  unfold queryStart
  split
  · exact .nil
  · exact ⟨[.doubleSlash], fun rest more _ hmore => ⟨nofun, hslashes false rest more hmore⟩⟩
  · refine ⟨[.dot, .doubleSlash], fun rest more _ hmore => ⟨nofun, ?_⟩⟩
    exact Scans.symbol ['.'] rfl rfl (hslashes true rest more hmore)

theorem writes_unionOf {α : Type} {write : α → String} {quoted : α → List String} {l : List α}
    (hne : l ≠ []) (h : ∀ x ∈ l, Writes false (write x).toList true (quoted x)) :
    Writes false (unionOf (l.map write)).toList true (l.flatMap quoted) :=
  .intercalate separates_pipe.heads hne h

theorem heads_emptyQuery : Heads false emptyQuery.toList true := by
  obtain ⟨e, hspells, -⟩ := routes_emptyQuery
  exact hspells.heads

theorem writes_textQuery (recursive : Bool) (scope : Scope) {test : TextTest} {query : String}
    (h : textQuery (queryStart recursive scope) test = .ok query) :
    Writes false query.toList true (textLiterals test) := by
  have hstart := (heads_queryStart recursive scope).writes
  cases test with
  | unspecified => cases h
  | any =>
    obtain ⟨query', hquery, e, hspells, -⟩ :=
      routes_textQuery recursive scope (by decide : TextTest.any ≠ .unspecified)
    obtain rfl := Except.ok.inj (hquery.symm.trans h)
    exact hspells.heads.writes
  | oneOf texts =>
    have hpair : ∀ q ∈ leafPairs texts, Writes false
        (queryStart recursive scope ++ q.1.1 ++ bracketed (".=" ++ literalText q.2)).toList true
          [q.2] := by
      intro q hq
      have htest := spellsTest_of_mem_leafTests (fst_mem_of_mem_leafPairs hq)
      have hequal : Writes false (".=" ++ literalText q.2).toList true [q.2] := by
        simpa using Phrase.Spells.self.heads.writes.append (separates_equal.writes .equation q.2)
      simpa using hstart.append (htest.heads.writes.append (writes_bracketed hequal))
    simp only [textQuery, List.isEmpty_iff] at h
    split at h
    · rename_i hnone
      obtain rfl := Except.ok.inj h
      simpa [hnone, textLiterals] using heads_emptyQuery.writes
    · rename_i hsome
      obtain rfl := Except.ok.inj h
      have hpairs : leafPairs texts ≠ [] := by
        simpa [leafPairs, leafTests] using List.exists_mem_of_ne_nil texts hsome
      have hall := writes_unionOf hpairs hpair
      rwa [← unionOf_leafPairs, flatMap_leafPairs] at hall

theorem writes_elementQuery (config : Config) (spec : Spec) (scope : Scope)
    (hleaves : spec.seeksLeaves = false) :
    Writes false (elementQuery config (queryStart spec.recursive scope) spec).toList true
      (spec.literals config) := by
  have hstart := (heads_queryStart spec.recursive scope).writes
  have hpredicates := (writes_attributePredicates config spec.attributes).append
    (writes_textPredicate spec.text)
  have hany := hstart.append (spellsTest_anyName.heads.writes.append hpredicates)
  have htag (name : String) := hstart.append ((writes_tagQuery name).append hpredicates)
  unfold elementQuery Spec.literals
  rw [hleaves, if_neg Bool.false_ne_true]
  cases spec.name with
  | unspecified => simpa using hany
  | any => simpa using hany
  | oneOf names =>
    simp only [List.isEmpty_iff]
    split
    · rename_i hnone
      simpa [hnone] using heads_emptyQuery.writes
    · rename_i hsome
      exact writes_unionOf hsome fun name _ => by simpa using htag name

theorem writes_unlimitedQuery {config : Config} {spec : Spec} {scope : Scope} {query : String}
    (h : spec.unlimitedQuery config scope = .ok query) :
    Writes false query.toList true (spec.literals config) := by
  rw [unlimitedQuery_eq] at h
  cases hleaves : spec.seeksLeaves with
  | true =>
    rw [if_pos hleaves] at h
    rw [Spec.literals, if_pos hleaves]
    exact writes_textQuery spec.recursive scope h
  | false =>
    rw [hleaves, if_neg Bool.false_ne_true] at h
    obtain rfl := Except.ok.inj h
    exact writes_elementQuery config spec scope hleaves

theorem quotes_query {config : Config} {spec : Spec} {scope : Scope} {query : String}
    (h : spec.query config scope = .ok query) :
    Quotes false query.toList (spec.literals config) := by
  obtain ⟨text, htext, h⟩ := bind_eq_ok.1 h
  have hwrites := writes_unlimitedQuery htext
  obtain rfl := Except.ok.inj h
  split
  · have hopen : Starts false ['('] [.leftParen] false := .symbol (fun _ => rfl) (by decide)
    have hall := hopen.heads.writes.append hwrites
    have hbehind : Quotes true (")[position() <= " ++ toString spec.limit ++ "]").toList [] := .nil
    simpa using hall.quotes.append hall.heads hbehind
  · exact hwrites.quotes

/-- Each literal that a query is written with stands in a place of its own, one behind the other.
There every other text could stand, and would be read in the same gap. -/
theorem exists_splices_of_query {config : Config} {spec : Spec} {scope : Scope} {query : String}
    (h : spec.query config scope = .ok query) :
    ∃ places : List Splice,
      List.Forall₂ (fun place s => place.fill s = query) places (spec.literals config) ∧
      places.Pairwise (fun p q => p.before.toList.length < q.before.toList.length) ∧
      ∀ place ∈ places, ∃ C, Gap C ∧ ∀ s, parse (place.fill s) = .ok (C (literalExpr s)) := by
  obtain ⟨places, hfill, hpairs⟩ := (quotes_query h).exists_splices
  obtain ⟨e, hparse⟩ := exists_parse_of_query h
  have hgaps := hfill.imp fun place s hs => And.intro (Splice.exists_gap (hs ▸ hparse)) hs
  exact ⟨places, hfill, hpairs, ((List.forall₂_and_left places _).1 hgaps).1⟩

end Filter

end MarkupQuery
