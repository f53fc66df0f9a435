import MarkupQuery.Proofs.XPath.ParserNeeds
import MarkupQuery.Proofs.XPath.Spacing

/-!
# Stars and words

The standard tells stars and the words `and`, `or`, `div` and `mod` apart by a list of tokens behind
which an operand has to start; behind any other token they are operators.  Scanning goes by a list
of tokens that an operand can end with.  Three kinds of token are on neither list: functions, node
types and axes.  No star and no word follows these, since each of them is followed by the token that
makes it one.
-/

namespace MarkupQuery.XPath

/-- Whether an operand has to start behind the token: `@`, `::`, `(`, `[`, a comma and the
operators. -/
def Token.awaitsOperand : Token → Bool
  | atSign | colonColon | leftParen | leftBracket | comma => true
  | and | or | div | mod | multiply | slash | doubleSlash | pipe | plus | minus | equal | notEqual
  | less | lessEqual | greater | greaterEqual => true
  | _ => false

/-- There is a token before, and no operand has to start behind it. -/
def BehindOperand (previous : Option Token) : Prop :=
  ∃ token, previous = some token ∧ token.awaitsOperand = false

/-- The tokens `previous` and `next` on both sides tell what a star or a word is.  A word that is no
operator is a name, an axis or a function, which `leads` tells apart by the next token. -/
structure Disambiguated (previous : Option Token) (text : List Char) (token : Token)
    (next : Option Token) : Prop where
  multiply : token = .multiply ↔ text = ['*'] ∧ BehindOperand previous
  wildcard : token = .wildcard ↔ text = ['*'] ∧ ¬BehindOperand previous
  operator : ∀ word operator, (word, operator) ∈ operatorWords →
    (token = operator ↔ text = word.toList ∧ BehindOperand previous)
  word : ∀ word operator, (word, operator) ∈ operatorWords → text = word.toList →
    ¬BehindOperand previous → token = .name word ∨ token = .axis word ∨ token = .function word
  leads : token.Leads next

variable {afterOperand : Bool} {text name : List Char} {token operator : Token} {word : String}
  {previous next : Option Token} {lexemes before after : List Lexeme} {x : Lexeme}

/-! ## Texts and what they can be -/

theorem TokenText.tokenAt_self (h : TokenText afterOperand next text token) (hname : ¬IsName text) :
    tokenAt afterOperand text = .ok (text, token) := by
  have htext : TokenText afterOperand none text token := by
    cases h with
    | integer hne hdigits => exact .integer hne hdigits
    | decimal hne hwhole hplaces => exact .decimal hne hwhole hplaces
    | symbol h => exact .symbol h
    | star => exact .star
    | variableRef h => exact .variableRef h
    | literal hquote hbody => exact .literal hquote hbody
    | word h => exact absurd h hname
  have hend : Apart [] := by simp [Apart]
  simpa using htext.tokenAt_append hend announces_nil

theorem TokenText.eq_of_star (h : TokenText afterOperand next ['*'] token) :
    token = if afterOperand then .multiply else .wildcard := by
  have hname : ¬IsName ['*'] := fun hname => by
    obtain ⟨c, cs, heq, hc⟩ := hname.exists_cons
    cases heq
    exact absurd hc (by decide)
  have htoken : tokenAt afterOperand ['*'] =
      .ok (['*'], if afterOperand then .multiply else .wildcard) := rfl
  have hself := h.tokenAt_self hname
  rw [htoken] at hself
  exact (Prod.mk.inj (Except.ok.inj hself)).2.symm

theorem TokenText.eq_of_isName (h : TokenText afterOperand next name token) (hname : IsName name) :
    token = wordToken afterOperand (String.ofList name) next := by
  obtain ⟨c, cs, rfl, hc⟩ := hname.exists_cons
  exact ((h.head c rfl).2 hc).2

theorem TokenText.text_of_star (h : TokenText afterOperand next text token)
    (htoken : token = .multiply ∨ token = .wildcard) : text = ['*'] := by
  have hword : token.isWord = false := by
    rcases htoken with rfl | rfl <;> rfl
  cases h with
  | star => rfl
  | symbol h => rcases htoken with rfl | rfl <;> simp [symbols] at h
  | word => simp [(wordKind_wordToken _ _ _).isWord] at hword
  | integer | decimal | variableRef | literal => simp at htoken

theorem TokenText.multiply_iff (h : TokenText afterOperand next text token) :
    token = .multiply ↔ text = ['*'] ∧ afterOperand = true := by
  constructor
  · intro htoken
    obtain rfl := h.text_of_star (.inl htoken)
    obtain rfl := h.eq_of_star
    cases afterOperand with
    | true => exact ⟨rfl, rfl⟩
    | false => cases htoken
  · rintro ⟨rfl, rfl⟩
    exact h.eq_of_star

theorem TokenText.wildcard_iff (h : TokenText afterOperand next text token) :
    token = .wildcard ↔ text = ['*'] ∧ ¬afterOperand = true := by
  constructor
  · intro htoken
    obtain rfl := h.text_of_star (.inr htoken)
    obtain rfl := h.eq_of_star
    cases afterOperand with
    | true => cases htoken
    | false => exact ⟨rfl, by simp⟩
  · rintro ⟨rfl, hoperand⟩
    rw [h.eq_of_star, if_neg hoperand]

theorem isName_of_mem_operatorWords (h : (word, operator) ∈ operatorWords) :
    IsName word.toList := by
  have hall : (operatorWords.all fun entry => nameText entry.1.toList == entry.1.toList &&
      !entry.1.toList.isEmpty) = true := by decide
  obtain ⟨htext, hne⟩ : nameText word.toList = word.toList ∧ word.toList ≠ [] := by
    simpa using List.all_eq_true.1 hall _ h
  rw [← htext] at hne ⊢
  exact isName_nameText hne

theorem TokenText.eq_of_word (h : TokenText afterOperand next text token)
    (hentry : (word, operator) ∈ operatorWords) (htext : text = word.toList) :
    token = wordToken afterOperand word next := by
  subst htext
  rw [h.eq_of_isName (isName_of_mem_operatorWords hentry), String.ofList_toList]

theorem TokenText.operator_iff (h : TokenText afterOperand next text token)
    (hentry : (word, operator) ∈ operatorWords) :
    token = operator ↔ text = word.toList ∧ afterOperand = true := by
  constructor
  · rintro rfl
    have hunique {word' : String} (hentry' : (word', token) ∈ operatorWords) : word' = word := by
      simp only [operatorWords, List.mem_cons, Prod.mk.injEq, List.not_mem_nil, or_false] at *
      rcases hentry with ⟨rfl, rfl⟩ | ⟨rfl, rfl⟩ | ⟨rfl, rfl⟩ | ⟨rfl, rfl⟩ <;> simpa using hentry'
    cases (h.wordKind (isWord_of_mem_operatorWords hentry)).2 with
    | operator hoperand hword =>
      rw [← hunique (operatorWord?_eq_some_iff.1 hword), String.toList_ofList]
      exact ⟨rfl, hoperand⟩
    | axis | nodeType | function | name => simp [operatorWords] at hentry
  · rintro ⟨htext, rfl⟩
    have hword := operatorWord?_eq_some_iff.2 hentry
    rw [h.eq_of_word hentry htext]
    simp only [wordToken, if_true, hword]

theorem TokenText.name_of_word (h : TokenText afterOperand next text token)
    (hentry : (word, operator) ∈ operatorWords) (htext : text = word.toList)
    (hoperand : ¬afterOperand = true) :
    token = .name word ∨ token = .axis word ∨ token = .function word := by
  have hkind := wordKind_wordToken afterOperand word next
  rw [← h.eq_of_word hentry htext] at hkind
  cases hkind with
  | operator hbehind => exact absurd hbehind hoperand
  | name => exact .inl rfl
  | axis => exact .inr (.inl rfl)
  | function => exact .inr (.inr rfl)
  | nodeType _ _ htype =>
    have hall : (operatorWords.all fun entry => (NodeType.ofName? entry.1).isNone) = true := by
      decide
    have hnone := List.all_eq_true.1 hall _ hentry
    rw [htype] at hnone
    cases hnone

theorem TokenText.leads (h : TokenText afterOperand next text token) : token.Leads next := by
  cases hword : token.isWord with
  | false => cases token <;> trivial
  | true =>
    cases (h.wordKind hword).2 with
    | operator _ hoperator =>
      have hentry := operatorWord?_eq_some_iff.1 hoperator
      simp only [operatorWords, List.mem_cons, Prod.mk.injEq, List.not_mem_nil, or_false] at hentry
      rcases hentry with ⟨-, rfl⟩ | ⟨-, rfl⟩ | ⟨-, rfl⟩ | ⟨-, rfl⟩ <;> trivial
    | axis _ hnext | nodeType _ hnext _ | function _ hnext => exact hnext
    | name _ hcolon hparen => exact ⟨hcolon, hparen⟩

/-! ## Neighbours -/

theorem TokenTexts.tokenText (h : TokenTexts afterOperand (before ++ x :: after)) :
    TokenText ((before.getLast?.map Lexeme.token).elim afterOperand Token.endsOperand)
      (after.head?.map Lexeme.token) x.text x.token := by
  induction before generalizing afterOperand with
  | nil =>
    cases h with
    | cons hfirst _ => exact hfirst
  | cons y before ih =>
    cases h with
    | cons _ hothers =>
      have htext := ih hothers
      rw [List.getLast?_cons]
      cases hlast : before.getLast? with
      | none =>
        rw [hlast] at htext
        exact htext
      | some z =>
        rw [hlast] at htext
        exact htext

theorem TokenTexts.supplied (h : TokenTexts afterOperand lexemes) :
    Supplied (lexemes.map Lexeme.token) := by
  induction h with
  | nil =>
    intro token rest hsuffix
    simp at hsuffix
  | @cons afterOperand x others hfirst hothers ih =>
    intro token rest hsuffix
    rw [List.map_cons, List.suffix_cons_iff] at hsuffix
    rcases hsuffix with heq | hsuffix
    · cases heq
      rw [List.head?_map]
      exact hfirst.leads
    · exact ih token rest hsuffix

theorem Supplied.previous_leads (h : Supplied ((before ++ x :: after).map Lexeme.token)) :
    ∀ token ∈ before.getLast?.map Lexeme.token, token.Leads (some x.token) := by
  intro token htoken
  obtain ⟨y, hy, rfl⟩ := Option.map_eq_some_iff.1 htoken
  obtain ⟨front, rfl⟩ := List.getLast?_eq_some_iff.1 hy
  refine h y.token (x.token :: after.map Lexeme.token) ⟨front.map Lexeme.token, ?_⟩
  simp

/-- The two lists of tokens agree on what stands in front of a token that is neither an opening
parenthesis nor `::`. -/
theorem endsOperand_iff_behindOperand (h : ∀ p ∈ previous, p.Leads (some token))
    (hparen : token ≠ .leftParen) (hcolon : token ≠ .colonColon) :
    previous.elim false Token.endsOperand = true ↔ BehindOperand previous := by
  cases previous with
  | none => simp [BehindOperand]
  | some p =>
    have hleads := h p rfl
    simp only [BehindOperand, Option.some.injEq, exists_eq_left', Option.elim_some]
    cases p with
    | function | nodeType => exact absurd (Option.some.inj hleads) hparen
    | axis => exact absurd (Option.some.inj hleads) hcolon
    | _ => simp [Token.endsOperand, Token.awaitsOperand]

/-! ## Disambiguation -/

/-- A star or a word between its neighbours is what the standard says. -/
theorem TokenText.disambiguated
    (h : TokenText (previous.elim false Token.endsOperand) next text token)
    (hprevious : ∀ p ∈ previous, p.Leads (some token)) :
    Disambiguated previous text token next := by
  have hbehind (hparen : text ≠ ['(']) (hcolon : text ≠ [':', ':']) :
      previous.elim false Token.endsOperand = true ↔ BehindOperand previous := by
    refine endsOperand_iff_behindOperand hprevious ?_ ?_
    · rintro rfl
      exact hparen (by simpa [symbols] using h.mem_symbols (by simp [symbols]))
    · rintro rfl
      exact hcolon (by simpa [symbols] using h.mem_symbols (by simp [symbols]))
  have hstar (htext : text = ['*']) := hbehind (by simp [htext]) (by simp [htext])
  have hword {word : String} {operator : Token} (hentry : (word, operator) ∈ operatorWords)
      (htext : text = word.toList) :
      previous.elim false Token.endsOperand = true ↔ BehindOperand previous := by
    obtain ⟨c, cs, heq, hc⟩ := (isName_of_mem_operatorWords hentry).exists_cons
    rw [htext, heq] at hbehind
    refine hbehind (fun hparen => ?_) (fun hcolon => ?_)
    · cases hparen
      exact absurd hc (by decide)
    · cases hcolon
      exact absurd hc (by decide)
  constructor
  · exact h.multiply_iff.trans (and_congr_right hstar)
  · exact h.wildcard_iff.trans (and_congr_right fun htext => not_congr (hstar htext))
  · intro word operator hentry
    exact (h.operator_iff hentry).trans (and_congr_right (hword hentry))
  · intro word operator hentry htext hnot
    exact h.name_of_word hentry htext (mt (hword hentry htext).1 hnot)
  · exact h.leads

theorem ne_expected_of_tokenAt {cs : List Char} {fault : SyntaxFault}
    (h : tokenAt afterOperand cs = .error fault) (what : Expectation) : fault ≠ .expected what := by
  rintro rfl
  unfold tokenAt at h
  split at h
  · cases h
  · split at h
    · cases h
    · split at h
      · cases h
      · cases h
      · simp only at h
        split at h <;> cases h
      · split at h
        · simp only at h
          split at h <;> cases h
        · split at h <;> cases h

/-- Scanning fails for what stands in the text, never for want of something. -/
theorem ne_expected_of_scanFrom {offset : Nat} {cs : List Char} {error : Error}
    (h : scanFrom offset afterOperand cs = .error error) (what : Expectation) (place : Nat) :
    error ≠ .syntaxError (.expected what) place := by
  fun_induction scanFrom offset afterOperand cs with
  | case1 => cases h
  | case2 offset afterOperand c cs hblank ih => exact ih h
  | case3 offset afterOperand c cs hblank fault hread =>
    cases h
    unfold readToken at hread
    split at hread
    · cases hread
    · rename_i hfault
      cases hread
      rintro heq
      cases heq
      exact ne_expected_of_tokenAt hfault what rfl
  | case4 offset afterOperand c cs hblank token text rest hread failure hfailure ih =>
    cases h
    exact ih hfailure
  | case5 => cases h

theorem parse_ne_expected {source : String} {what : Expectation}
    (hwhat : what ∈ [Expectation.leftParen, .colonColon]) (offset : Nat) :
    parse source ≠ .error (.syntaxError (.expected what) offset) := by
  cases hscan : scan source with
  | error error =>
    intro heq
    rw [parse, hscan] at heq
    exact ne_expected_of_scanFrom hscan what offset (Except.error.inj heq)
  | ok lexemes =>
    have hsupplied := (tokenTexts_of_scanFrom hscan).2.supplied
    obtain ⟨hmissing, hrefused⟩ := neverMisses_parseTokens hsupplied what hwhat
    intro hparse
    rw [parse, hscan, bind_ok] at hparse
    split at hparse
    · cases hparse
    · rename_i error heq
      cases hparse
      exact hrefused _ heq
    · rename_i fault rest heq
      cases hparse
      exact hmissing rest heq
    · cases hparse

/-- In the tokens of a text every star and every word is what the standard makes of it, and axes,
functions and node types are followed by what makes them such.  So reading a text never fails for
want of an opening parenthesis or of `::`. -/
theorem lexing_disambiguates (source : String) :
    (∀ lexemes, scan source = .ok lexemes → ∀ before x after, lexemes = before ++ x :: after →
      Disambiguated (before.getLast?.map Lexeme.token) x.text x.token
        (after.head?.map Lexeme.token)) ∧
    ∀ offset, parse source ≠ .error (.syntaxError (.expected .leftParen) offset) ∧
      parse source ≠ .error (.syntaxError (.expected .colonColon) offset) := by
  constructor
  · rintro _ h before x after rfl
    have htexts := (tokenTexts_of_scanFrom h).2
    exact htexts.tokenText.disambiguated htexts.supplied.previous_leads
  · exact fun offset => ⟨parse_ne_expected (by simp) offset, parse_ne_expected (by simp) offset⟩

theorem scan_divisions : scan "div div div" = .ok [⟨.name "div", ['d', 'i', 'v'], 0⟩,
    ⟨.div, ['d', 'i', 'v'], 4⟩, ⟨.name "div", ['d', 'i', 'v'], 8⟩] := by
  have hname (rest : List Char) :
      tokenAt false (['d', 'i', 'v'] ++ ' ' :: (['d', 'i', 'v'] ++ rest)) =
        .ok (['d', 'i', 'v'], .name "div") := rfl
  have hoperator (rest : List Char) : tokenAt true (['d', 'i', 'v'] ++ ' ' :: rest) =
      .ok (['d', 'i', 'v'], .div) := rfl
  have hlast : tokenAt false (['d', 'i', 'v'] ++ []) = .ok (['d', 'i', 'v'], .name "div") := rfl
  have hspace (offset : Nat) (afterOperand : Bool) (rest : List Char) :
      scanFrom offset afterOperand (' ' :: rest) = scanFrom (offset + 1) afterOperand rest := by
    rw [scanFrom, if_pos (by decide)]
  have hlist : "div div div".toList =
      ['d', 'i', 'v'] ++ ' ' :: (['d', 'i', 'v'] ++ ' ' :: (['d', 'i', 'v'] ++ [])) := by simp
  have hbehindName : (Token.name "div").endsOperand = true := rfl
  have hbehindOperator : Token.div.endsOperand = false := rfl
  have hletter : ∀ c ∈ ['d', 'i', 'v'].head?, Text.isBlank c = false := by
    rintro c ⟨⟩
    decide
  rw [scan, hlist, scanFrom_append 0 (hname _) hletter, hbehindName, hspace,
    scanFrom_append _ (hoperator _) hletter, hbehindOperator, hspace,
    scanFrom_append _ hlast hletter, scanFrom]
  rfl

/-- A word that is a name, an operator and a name again. -/
theorem lexing_disambiguates_divisions :
    Disambiguated none ['d', 'i', 'v'] (.name "div") (some .div) ∧
    Disambiguated (some (.name "div")) ['d', 'i', 'v'] .div (some (.name "div")) ∧
    Disambiguated (some .div) ['d', 'i', 'v'] (.name "div") none ∧
    ∀ offset, parse "div div div" ≠ .error (.syntaxError (.expected .leftParen) offset) ∧
      parse "div div div" ≠ .error (.syntaxError (.expected .colonColon) offset) := by
  obtain ⟨hall, hparse⟩ := lexing_disambiguates "div div div"
  have hlexemes := hall _ scan_divisions
  exact ⟨hlexemes [] _ _ rfl, hlexemes [_] _ _ rfl, hlexemes [_, _] _ [] rfl, hparse⟩

end MarkupQuery.XPath
