import MarkupQuery.Proofs.XPath.Composing

/-!
# The texts of tokens

Which texts each token has.  The text of a word alone does not tell its token: the token before
tells whether it is an operator, and the next token whether it is an axis, a function or a name.
So the tokens of a text are a chain in which each is told by its own text and by its neighbours,
and the blanks between them do not come into it.
-/

namespace MarkupQuery.XPath

open Text (isBlank)

variable {afterOperand : Bool} {cs rest text name : List Char} {token : Token} {next : Option Token}

/-! ## Names and numbers -/

/-- The names of one part, and of two parts joined by a colon. -/
inductive IsName : List Char → Prop where
  | one {c : Char} {part : List Char} (hc : isNameStart c = true)
      (hpart : ∀ d ∈ part, isNameChar d = true) : IsName (c :: part)
  | two {c d : Char} {part part' : List Char} (hc : isNameStart c = true)
      (hpart : ∀ e ∈ part, isNameChar e = true) (hd : isNameStart d = true)
      (hpart' : ∀ e ∈ part', isNameChar e = true) : IsName (c :: (part ++ ':' :: d :: part'))

theorem isNameChar_of_isNameStart {c : Char} (hc : isNameStart c = true) : isNameChar c = true := by
  simp [isNameChar, hc]

theorem isName_nameText (h : nameText cs ≠ []) : IsName (nameText cs) := by
  have hall (l : List Char) : ∀ d ∈ l.takeWhile isNameChar, isNameChar d = true :=
    fun d hd => List.mem_takeWhile_imp hd
  cases cs with
  | nil => exact absurd rfl h
  | cons c cs =>
    simp only [nameText] at h ⊢
    split
    · rename_i hc
      split
      · rename_i d behind hbehind
        split
        · rename_i hd
          rw [List.takeWhile_cons_of_pos (isNameChar_of_isNameStart hd), List.cons_append]
          exact .two hc (hall _) hd (hall _)
        · exact .one hc (hall _)
      · exact .one hc (hall _)
    · rename_i hc
      rw [if_neg hc] at h
      exact absurd rfl h

theorem IsName.exists_cons (h : IsName name) :
    ∃ c cs, name = c :: cs ∧ isNameStart c = true := by
  cases h with
  | one hc _ | two hc _ _ _ => exact ⟨_, _, rfl, hc⟩

theorem IsName.nameText_eq (h : IsName name) : nameText name = name := by
  have htake {part : List Char} (hpart : ∀ e ∈ part, isNameChar e = true) :
      part.takeWhile isNameChar = part := by
    rw [← List.append_nil part, List.takeWhile_append_of_pos hpart]
    simp
  cases h with
  | one hc hpart =>
    have hend : ∀ d ∈ ([] : List Char).head?, isNameChar d = false := by simp
    simpa using nameText_append hc hpart hend (by simp)
  | @two c d part part' hc hpart hd hpart' =>
    have hcolon : isNameChar ':' = false := by decide
    have hfirst : (part ++ ':' :: d :: part').takeWhile isNameChar = part := by
      rw [takeWhile_append_cons hcolon, htake hpart]
    have hsecond : (d :: part').takeWhile isNameChar = d :: part' :=
      htake (List.forall_mem_cons.2 ⟨isNameChar_of_isNameStart hd, hpart'⟩)
    have hdrop : (part ++ ':' :: d :: part').dropWhile isNameChar = ':' :: d :: part' := by
      rw [List.dropWhile_append_of_pos hpart, List.dropWhile_cons_of_neg (by simp [hcolon])]
    simp only [nameText, hc, if_true, hfirst, hdrop, hd, hsecond, List.cons_append]

theorem numberText_decimal {whole places : List Char} (hwhole : ∀ d ∈ whole, d.isDigit = true)
    (hplaces : ∀ d ∈ places, d.isDigit = true) (hrest : ∀ c ∈ rest.head?, c.isDigit = false) :
    numberText (whole ++ '.' :: (places ++ rest)) = whole ++ '.' :: places := by
  have hpoint : ∀ c ∈ ('.' :: (places ++ rest)).head?, c.isDigit = false := by
    rintro c ⟨⟩
    decide
  obtain ⟨htake, hdrop⟩ := takeWhile_digits hwhole hpoint
  rw [numberText, hdrop, htake]
  simp only [(takeWhile_digits hplaces hrest).1]

theorem numberValue_decimal {whole places : List Char} (hwhole : ∀ d ∈ whole, d.isDigit = true) :
    numberValue (whole ++ '.' :: places) = Decimal.ofDigits whole places := by
  have hpoint : ∀ c ∈ ('.' :: places).head?, c.isDigit = false := by
    rintro c ⟨⟩
    decide
  obtain ⟨htake, hdrop⟩ := takeWhile_digits hwhole hpoint
  rw [numberValue, htake, hdrop]
  rfl

/-! ## Tokens with their texts -/

/-- The words that are operators behind an operand. -/
def operatorWords : List (String × Token) :=
  [("and", .and), ("or", .or), ("div", .div), ("mod", .mod)]

theorem operatorWord?_eq_some_iff {word : String} :
    operatorWord? word = some token ↔ (word, token) ∈ operatorWords := by
  unfold operatorWord?
  split <;> simp_all [operatorWords, eq_comm]

/-- The token of a word, by the token before it and the next token. -/
def wordToken (afterOperand : Bool) (name : String) (next : Option Token) : Token :=
  match if afterOperand then operatorWord? name else none with
  | some operator => operator
  | none =>
    match next with
    | some .colonColon => .axis name
    | some .leftParen =>
      match NodeType.ofName? name with
      | some type => .nodeType type
      | none => .function name
    | _ => .name name

/-- What a word is: an operator behind an operand, and otherwise what the next token makes of it. -/
inductive WordKind (afterOperand : Bool) (name : String) (next : Option Token) : Token → Prop where
  | operator {operator : Token} (hoperand : afterOperand = true)
      (hword : operatorWord? name = some operator) : WordKind afterOperand name next operator
  | axis (hword : afterOperand = true → operatorWord? name = none)
      (hnext : next = some .colonColon) : WordKind afterOperand name next (.axis name)
  | nodeType {type : NodeType} (hword : afterOperand = true → operatorWord? name = none)
      (hnext : next = some .leftParen) (htype : NodeType.ofName? name = some type) :
      WordKind afterOperand name next (.nodeType type)
  | function (hword : afterOperand = true → operatorWord? name = none)
      (hnext : next = some .leftParen) : WordKind afterOperand name next (.function name)
  | name (hword : afterOperand = true → operatorWord? name = none)
      (hcolon : next ≠ some .colonColon) (hparen : next ≠ some .leftParen) :
      WordKind afterOperand name next (.name name)

theorem wordKind_wordToken (afterOperand : Bool) (name : String) (next : Option Token) :
    WordKind afterOperand name next (wordToken afterOperand name next) := by
  unfold wordToken
  split
  · rename_i operator hoperator
    obtain ⟨hoperand, hword⟩ := Option.ite_none_right_eq_some.1 hoperator
    exact .operator hoperand hword
  · rename_i hnone
    have hword : afterOperand = true → operatorWord? name = none := fun hoperand => by
      rwa [if_pos hoperand] at hnone
    split
    · exact .axis hword rfl
    · split
      · rename_i htype
        exact .nodeType hword rfl htype
      · exact .function hword rfl
    · rename_i hcolon hparen
      exact .name hword hcolon hparen

/-- The texts that a token has behind an operand or elsewhere, and in front of the token `next`. -/
inductive TokenText (afterOperand : Bool) (next : Option Token) : List Char → Token → Prop where
  | integer {digits : List Char} (hne : digits ≠ []) (hdigits : ∀ d ∈ digits, d.isDigit = true) :
      TokenText afterOperand next digits (.number (Decimal.ofDigits digits []))
  | decimal {whole places : List Char} (hne : whole ≠ [] ∨ places ≠ [])
      (hwhole : ∀ d ∈ whole, d.isDigit = true) (hplaces : ∀ d ∈ places, d.isDigit = true) :
      TokenText afterOperand next (whole ++ '.' :: places)
        (.number (Decimal.ofDigits whole places))
  | symbol {text : List Char} {token : Token} (h : (text, token) ∈ symbols) :
      TokenText afterOperand next text token
  | star : TokenText afterOperand next ['*'] (if afterOperand then .multiply else .wildcard)
  | variableRef {name : List Char} (h : IsName name) :
      TokenText afterOperand next ('$' :: name) (.variableRef (String.ofList name))
  | literal {quote : Char} {body : List Char} (hquote : quote = '"' ∨ quote = '\'')
      (hbody : quote ∉ body) :
      TokenText afterOperand next (quote :: body ++ [quote]) (.literal (String.ofList body))
  | word {name : List Char} (h : IsName name) :
      TokenText afterOperand next name (wordToken afterOperand (String.ofList name) next)

/-- The text is followed by the token `next`, as far as a word in front of it can tell. -/
def Announces (rest : List Char) (next : Option Token) : Prop :=
  ∀ afterOperand name, nameToken afterOperand name rest = wordToken afterOperand name next

theorem tokenText_number (h : startsNumber cs = true) :
    TokenText afterOperand next (numberText cs) (.number (numberValue (numberText cs))) := by
  have hall (l : List Char) : ∀ d ∈ l.takeWhile Char.isDigit, d.isDigit = true :=
    fun d hd => List.mem_takeWhile_imp hd
  have hsplit := List.takeWhile_append_dropWhile (p := Char.isDigit) (l := cs)
  cases hdrop : cs.dropWhile Char.isDigit with
  | nil =>
    have htext : numberText cs = cs.takeWhile Char.isDigit := by rw [numberText, hdrop]
    have hne := numberText_ne_nil h
    rw [htext] at hne ⊢
    rw [numberValue_integer (hall cs)]
    exact .integer hne (hall cs)
  | cons c behind =>
    by_cases hc : c = '.'
    · subst hc
      have htext : numberText cs =
          cs.takeWhile Char.isDigit ++ '.' :: behind.takeWhile Char.isDigit := by
        simp only [numberText, hdrop]
      rw [htext, numberValue_decimal (hall cs)]
      refine .decimal ?_ (hall cs) (hall behind)
      by_contra hnone
      obtain ⟨hwhole, hplaces⟩ := not_or.1 hnone
      -- a point that stands first has a digit behind it
      rw [not_not.1 hwhole, hdrop, List.nil_append] at hsplit
      rw [← hsplit] at h
      cases behind with
      | nil => cases h
      | cons d behind =>
        have hd : d.isDigit = true := h
        rw [List.takeWhile_cons_of_pos hd] at hplaces
        exact hplaces (by simp)
    · have htext : numberText cs = cs.takeWhile Char.isDigit := by
        unfold numberText
        rw [hdrop]
        split
        · rename_i heq
          cases heq
          exact absurd rfl hc
        · rfl
      have hne := numberText_ne_nil h
      rw [htext] at hne ⊢
      rw [numberValue_integer (hall cs)]
      exact .integer hne (hall cs)

/-- The token at the start of a text has a text of its kind. -/
theorem tokenText_of_tokenAt (h : tokenAt afterOperand (text ++ rest) = .ok (text, token))
    (hnext : Announces rest next) : TokenText afterOperand next text token := by
  generalize hcs : text ++ rest = cs at h
  unfold tokenAt at h
  split at h
  · rename_i hnumber
    cases h
    exact tokenText_number hnumber
  · split at h
    · rename_i found hfound
      cases h
      exact .symbol (List.mem_of_find?_eq_some hfound)
    · split at h
      · cases h
      · cases h
        exact .star
      · simp only at h
        split at h
        · cases h
        · rename_i hname
          cases h
          exact .variableRef (isName_nameText (by simpa using hname))
      · split at h
        · rename_i c behind _ _ hquote
          simp only at h
          split at h
          · cases h
            refine .literal (by simpa using hquote) fun hmem => ?_
            simpa using List.mem_takeWhile_imp hmem
          · cases h
        · split at h
          · rename_i hstart
            obtain ⟨htext, htoken⟩ := Prod.mk.inj (Except.ok.inj h)
            have hdrop : List.drop text.length (text ++ rest) = rest := List.drop_left
            rw [hcs] at hdrop
            rw [htext, hdrop, hnext] at htoken
            subst htoken
            refine .word (htext ▸ isName_nameText (nameText_ne_nil hstart _))
          · cases h

/-- Whether the token is a name or an operator that is written as one. -/
def Token.isWord : Token → Bool
  | .and | .or | .div | .mod | .name _ | .axis _ | .function _ | .nodeType _ => true
  | _ => false

theorem isWord_of_mem_operatorWords {word : String} (h : (word, token) ∈ operatorWords) :
    token.isWord = true := by
  have hall : (operatorWords.all fun entry => entry.2.isWord) = true := by decide
  exact List.all_eq_true.1 hall _ h

theorem isWord_of_mem_symbols (h : (text, token) ∈ symbols) : token.isWord = false := by
  have hall : (symbols.all fun entry => !entry.2.isWord) = true := by decide
  simpa using List.all_eq_true.1 hall _ h

theorem WordKind.isWord {word : String} (h : WordKind afterOperand word next token) :
    token.isWord = true := by
  cases h with
  | operator _ hword => exact isWord_of_mem_operatorWords (operatorWord?_eq_some_iff.1 hword)
  | axis | nodeType | function | name => rfl

/-- What is a word is told by its neighbours. -/
theorem TokenText.wordKind (h : TokenText afterOperand next text token)
    (htoken : token.isWord = true) :
    IsName text ∧ WordKind afterOperand (String.ofList text) next token := by
  cases h with
  | word hname => exact ⟨hname, wordKind_wordToken _ _ _⟩
  | symbol h =>
    rw [isWord_of_mem_symbols h] at htoken
    cases htoken
  | star => cases afterOperand <;> cases htoken
  | integer | decimal | variableRef | literal => cases htoken

/-- Tokens with one spelling each have no other texts. -/
theorem TokenText.mem_symbols (h : TokenText afterOperand next text token)
    (htoken : token ∈ symbols.map Prod.snd) : (text, token) ∈ symbols := by
  cases h with
  | symbol h => exact h
  | integer | decimal | variableRef | literal => simp [symbols] at htoken
  | star => cases afterOperand <;> simp [symbols] at htoken
  | word h =>
    obtain ⟨⟨spelling, token⟩, hmem, heq⟩ := List.mem_map.1 htoken
    have hword := (wordKind_wordToken afterOperand (String.ofList text) next).isWord
    rw [← heq, isWord_of_mem_symbols hmem] at hword
    cases hword

/-- The first character of a text is no blank, and tells words from all other tokens. -/
theorem TokenText.head (h : TokenText afterOperand next text token) : ∀ c ∈ text.head?,
    isBlank c = false ∧ (isNameStart c = true →
      IsName text ∧ token = wordToken afterOperand (String.ofList text) next) := by
  have hother {c : Char} (hblank : isBlank c = false) (hstart : isNameStart c = false) :
      isBlank c = false ∧ (isNameStart c = true →
        IsName text ∧ token = wordToken afterOperand (String.ofList text) next) :=
    ⟨hblank, fun h => absurd h (by simp [hstart])⟩
  have hdigit {d : Char} (hd : d.isDigit = true) : isNameStart d = false := by
    rw [Bool.eq_false_iff]
    intro hstart
    rw [isDigit_of_isNameStart hstart] at hd
    cases hd
  cases h with
  | @integer digits hne hdigits =>
    obtain ⟨d, digits, rfl⟩ := List.exists_cons_of_ne_nil hne
    rintro c ⟨⟩
    have hd := hdigits d (by simp)
    exact hother (isBlank_of_isDigit hd) (hdigit hd)
  | @decimal whole places hne hwhole hplaces =>
    cases whole with
    | nil =>
      rintro c ⟨⟩
      exact hother (by decide) (by decide)
    | cons d whole =>
      rintro c ⟨⟩
      have hd := hwhole d (by simp)
      exact hother (isBlank_of_isDigit hd) (hdigit hd)
  | symbol hsymbol =>
    intro c hc
    have hall : (symbols.all fun entry => entry.1.head?.all fun c => !isNameStart c) = true := by
      decide
    have hstart : ∀ c ∈ text.head?, isNameStart c = false := by
      simpa [Option.all_eq_true] using List.all_eq_true.1 hall _ hsymbol
    exact hother (isBlank_head?_of_mem_symbols hsymbol c hc) (hstart c hc)
  | star | variableRef =>
    rintro c ⟨⟩
    exact hother (by decide) (by decide)
  | literal hquote hbody =>
    rintro c ⟨⟩
    rcases hquote with rfl | rfl <;> exact hother (by decide) (by decide)
  | word hname =>
    obtain ⟨c, cs, rfl, hc⟩ := hname.exists_cons
    rintro d ⟨⟩
    exact ⟨isBlank_of_isNameStart hc, fun _ => ⟨hname, rfl⟩⟩

/-! ## Chains of tokens -/

/-- Each token has a text of its kind, behind the token before it and in front of the next one. -/
inductive TokenTexts : Bool → List Lexeme → Prop where
  | nil {afterOperand : Bool} : TokenTexts afterOperand []
  | cons {afterOperand : Bool} {x : Lexeme} {others : List Lexeme}
      (hfirst : TokenText afterOperand (others.head?.map Lexeme.token) x.text x.token)
      (hothers : TokenTexts x.token.endsOperand others) : TokenTexts afterOperand (x :: others)

theorem announces_nil : Announces [] none := fun _ _ => rfl

theorem Announces.blank {c : Char} (hc : isBlank c = true) (h : Announces cs next) :
    Announces (c :: cs) next := by
  intro afterOperand name
  rw [← h, nameToken, nameToken, List.dropWhile_cons_of_pos hc]

/-- A token announces itself. -/
theorem announces_of_tokenAt {c : Char} (hc : isBlank c = false)
    (h : tokenAt afterOperand (c :: cs) = .ok (text, token))
    (htext : TokenText afterOperand next text token) : Announces (c :: cs) (some token) := by
  intro behind name
  have hdrop : (c :: cs).dropWhile isBlank = c :: cs := List.dropWhile_cons_of_neg (by simp [hc])
  have hprefix := (prefix_of_tokenAt h).1
  by_cases hcolon : token = .colonColon
  · subst hcolon
    obtain rfl : text = [':', ':'] := by
      simpa [symbols] using htext.mem_symbols (by simp [symbols])
    obtain ⟨more, heq⟩ := hprefix
    rw [nameToken, hdrop, ← heq]
    rfl
  by_cases hparen : token = .leftParen
  · subst hparen
    obtain rfl : text = ['('] := by simpa [symbols] using htext.mem_symbols (by simp [symbols])
    obtain ⟨more, heq⟩ := hprefix
    rw [nameToken, hdrop, ← heq]
    rfl
  -- neither of the two stands here, since it would have been read
  have hname : ∀ more, c :: cs ≠ ':' :: ':' :: more ∧ c :: cs ≠ '(' :: more := fun more =>
    ⟨fun heq => hcolon (Prod.mk.inj (Except.ok.inj (heq ▸ h))).2.symm,
      fun heq => hparen (Prod.mk.inj (Except.ok.inj (heq ▸ h))).2.symm⟩
  cases hword : if behind then operatorWord? name else none with
  | some operator => simp only [nameToken, wordToken, hword]
  | none =>
    simp only [nameToken, wordToken, hword, hdrop]
    split
    · exact absurd ‹_› (hname _).1
    · exact absurd ‹_› (hname _).2
    · split <;> simp_all

theorem tokenTexts_of_scanFrom {offset : Nat} {lexemes : List Lexeme}
    (h : scanFrom offset afterOperand cs = .ok lexemes) :
    Announces cs (lexemes.head?.map Lexeme.token) ∧ TokenTexts afterOperand lexemes := by
  fun_induction scanFrom offset afterOperand cs generalizing lexemes with
  | case1 offset afterOperand =>
    cases h
    exact ⟨announces_nil, .nil⟩
  | case2 offset afterOperand c cs hblank ih => exact ⟨(ih h).1.blank hblank, (ih h).2⟩
  | case3 | case4 => cases h
  | case5 offset afterOperand c cs hblank token text rest hread others hothers ih =>
    cases h
    have htoken := tokenAt_of_readToken hread
    have happ := (readToken_append hread).1
    obtain ⟨hannounces, hchain⟩ := ih hothers
    have htext := tokenText_of_tokenAt (happ ▸ htoken) hannounces
    exact ⟨announces_of_tokenAt (by simpa using hblank) htoken htext, .cons htext hchain⟩

end MarkupQuery.XPath
