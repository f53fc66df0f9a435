import Mathlib.Data.List.Find
import Mathlib.Data.List.TakeWhile
import MarkupQuery.Proofs.XPath.Scanning

/-!
# Tokens in front of more text

When the tokens of a text are those that a longer text starts with.  More text behind can go on with
the last token only, so a token that has something behind it, and one that nothing goes on with, is
the same in every longer text.
-/

namespace MarkupQuery.XPath

open Text (isBlank)

variable {afterOperand : Bool} {cs rest text : List Char} {token : Token} {tokens : List Token}

/-! ## Tokens that stay -/

theorem tokenAt_of_readToken {left : List Char}
    (h : readToken afterOperand cs = .ok (token, text, left)) :
    tokenAt afterOperand cs = .ok (text, token) := by
  unfold readToken at h
  split at h
  · cases h
    assumption
  · cases h

theorem takeWhile_append_of_drop {α : Type} {p : α → Bool} {l : List α} (h : l.dropWhile p ≠ [])
    (l' : List α) : (l ++ l').takeWhile p = l.takeWhile p ∧
      (l ++ l').dropWhile p = l.dropWhile p ++ l' := by
  induction l with
  | nil => exact absurd rfl h
  | cons a l ih =>
    cases ha : p a with
    | true =>
      rw [List.dropWhile_cons_of_pos ha] at h
      simp [ha, ih h]
    | false => simp [ha]

theorem takeWhile_append_of_any {quote : Char} {l : List Char} (h : l.any (· == quote) = true)
    (l' : List Char) : (l ++ l').takeWhile (· != quote) = l.takeWhile (· != quote) := by
  refine (takeWhile_append_of_drop (fun hnil => ?_) l').1
  obtain ⟨c, hc, heq⟩ := List.any_eq_true.1 h
  have hne := List.dropWhile_eq_nil_iff.1 hnil c hc
  simp_all

/-- The token at the start of a text is the same in front of more text, when its kinds are told as
before and the more text does not go on with a number or a name. -/
theorem tokenAt_append {tail : List Char} (htoken : tokenAt afterOperand cs = .ok (text, token))
    (hstarts : startsNumber (cs ++ tail) = startsNumber cs)
    (hsymbol : symbolAt? (cs ++ tail) = symbolAt? cs)
    (hnumber : text = numberText cs → numberText (cs ++ tail) = numberText cs)
    (hname : ∀ front ds, cs = front ++ ds → text = front ++ nameText ds →
      nameText (ds ++ tail) = nameText ds)
    (hkind : ∀ name, text = nameText cs →
      nameToken afterOperand name (cs.drop text.length ++ tail) =
        nameToken afterOperand name (cs.drop text.length)) :
    tokenAt afterOperand (cs ++ tail) = .ok (text, token) := by
  unfold tokenAt at htoken ⊢
  rw [hstarts, hsymbol]
  by_cases hdigit : startsNumber cs = true
  · rw [if_pos hdigit] at htoken ⊢
    rwa [hnumber (Prod.mk.inj (Except.ok.inj htoken)).1.symm]
  · rw [if_neg hdigit] at htoken ⊢
    cases hfound : symbolAt? cs with
    | some found => rwa [hfound] at htoken
    | none =>
      simp only [hfound] at htoken ⊢
      split at htoken
      · cases htoken
      · exact htoken
      · rename_i ds
        simp only [List.cons_append]
        split at htoken
        · cases htoken
        · rename_i hvariable
          obtain ⟨rfl, rfl⟩ := Prod.mk.inj (Except.ok.inj htoken)
          rw [hname ['$'] ds rfl rfl, if_neg hvariable]
      · rename_i d ds hstar hdollar
        by_cases hquote : (d == '"' || d == '\'') = true
        · simp only [List.cons_append, if_pos hquote] at htoken ⊢
          by_cases hany : ds.any (· == d) = true
          · rw [if_pos hany] at htoken
            rw [if_pos (by simp [hany]), takeWhile_append_of_any hany, htoken]
          · rw [if_neg hany] at htoken
            cases htoken
        · rw [if_neg hquote] at htoken
          split at htoken
          · rename_i hstart
            obtain ⟨rfl, rfl⟩ := Prod.mk.inj (Except.ok.inj htoken)
            have hdrop : (nameText (d :: ds)).length ≤ (d :: ds).length :=
              (nameText_isPrefix _).length_le
            have hlong := hname [] (d :: ds) rfl rfl
            simp only [List.cons_append] at hlong
            simp only [List.cons_append, if_neg hquote, if_pos hstart, hlong]
            rw [← List.cons_append, List.drop_append_of_le_length hdrop, hkind _ rfl]
          · cases htoken

theorem head?_of_readToken {c : Char} {left : List Char}
    (h : readToken afterOperand (c :: cs) = .ok (token, text, left)) (hblank : ¬isBlank c = true) :
    ∀ d ∈ text.head?, isBlank d = false := by
  obtain ⟨happ, hne⟩ := readToken_append h
  intro d hd
  rw [Option.mem_def, ← List.head?_append_of_ne_nil text hne, happ] at hd
  cases hd
  simpa using hblank

/-- A text keeps its tokens in front of another one that changes none of them. -/
theorem scans_append {tail : List Char} {more : List Token} {lexemes : List Lexeme}
    {offset : Nat} (htail : ∀ afterOperand, Scans afterOperand tail more)
    (hkeeps : ∀ afterOperand cs text token, tokenAt afterOperand cs = .ok (text, token) →
      tokenAt afterOperand (cs ++ tail) = .ok (text, token))
    (h : scanFrom offset afterOperand cs = .ok lexemes) :
    Scans afterOperand (cs ++ tail) (lexemes.map Lexeme.token ++ more) := by
  fun_induction scanFrom offset afterOperand cs generalizing lexemes with
  | case1 offset afterOperand =>
    cases h
    exact htail afterOperand
  | case2 offset afterOperand c cs hblank ih => exact (ih h).blank hblank
  | case3 | case4 => cases h
  | case5 offset afterOperand c cs hblank token text rest hread others hothers ih =>
    cases h
    have happ := (readToken_append hread).1
    have htoken : tokenAt afterOperand (text ++ (rest ++ tail)) = .ok (text, token) := by
      rw [← List.append_assoc, happ]
      exact hkeeps _ _ _ _ (tokenAt_of_readToken hread)
    have hscan := Scans.token htoken (head?_of_readToken hread hblank) (ih hothers)
    rw [← happ, List.append_assoc]
    exact hscan

theorem scans_of_scanFrom {offset : Nat} {lexemes : List Lexeme}
    (h : scanFrom offset afterOperand cs = .ok lexemes) :
    Scans afterOperand cs (lexemes.map Lexeme.token) := by
  have hscan : Scans afterOperand (cs ++ []) (lexemes.map Lexeme.token ++ []) :=
    scans_append (fun _ => .nil) (fun _ _ _ _ htoken => by simpa) h
  simpa using hscan

/-! ## Starts of texts -/

/-- A text starts with the tokens, whatever stands behind them, and there an operand may have ended
as `behind` tells. -/
def Starts (afterOperand : Bool) (cs : List Char) (tokens : List Token) (behind : Bool) : Prop :=
  ∀ rest whole, Scans afterOperand (cs ++ rest) whole ↔
    ∃ more, whole = tokens ++ more ∧ Scans behind rest more

namespace Starts

theorem nil : Starts afterOperand [] [] afterOperand := by
  intro rest whole
  simp

theorem append {ds : List Char} {us : List Token} {between behind : Bool}
    (h : Starts afterOperand cs tokens between) (h' : Starts between ds us behind) :
    Starts afterOperand (cs ++ ds) (tokens ++ us) behind := by
  intro rest whole
  rw [List.append_assoc, h]
  simp only [h' rest]
  constructor
  · rintro ⟨_, rfl, more, rfl, hmore⟩
    exact ⟨more, by rw [List.append_assoc], hmore⟩
  · rintro ⟨more, rfl, hmore⟩
    exact ⟨us ++ more, by rw [List.append_assoc], more, rfl, hmore⟩

theorem cons {text : List Char} {token : Token} {behind : Bool}
    (htoken : ∀ tail, tokenAt afterOperand (text ++ (rest ++ tail)) = .ok (text, token))
    (hblank : ∀ c ∈ text.head?, isBlank c = false)
    (h : Starts token.endsOperand rest tokens behind) :
    Starts afterOperand (text ++ rest) (token :: tokens) behind := by
  intro tail whole
  rw [List.append_assoc]
  constructor
  · intro hwhole
    obtain ⟨lexemes, hscan, rfl⟩ := hwhole 0
    rw [scanFrom_append 0 (htoken tail) hblank] at hscan
    cases hrest : scanFrom (0 + byteLength text) token.endsOperand (rest ++ tail) with
    | error fault =>
      rw [hrest] at hscan
      cases hscan
    | ok others =>
      rw [hrest] at hscan
      cases hscan
      obtain ⟨more, hmore, hscans⟩ := (h tail _).1 (scans_of_scanFrom hrest)
      exact ⟨more, congrArg (token :: ·) hmore, hscans⟩
  · rintro ⟨more, rfl, hmore⟩
    exact Scans.token (htoken tail) hblank ((h tail _).2 ⟨more, rfl, hmore⟩)

theorem blank {c : Char} (hc : isBlank c = true) : Starts afterOperand [c] [] afterOperand := by
  intro rest whole
  rw [List.singleton_append]
  constructor
  · intro h
    obtain ⟨lexemes, hscan, rfl⟩ := h 0
    rw [scanFrom, if_pos hc] at hscan
    exact ⟨_, rfl, scans_of_scanFrom hscan⟩
  · rintro ⟨more, rfl, hmore⟩
    exact hmore.blank hc

/-- A token that its first character tells. -/
theorem symbol {c : Char} {token : Token}
    (htoken : ∀ tail, tokenAt afterOperand (c :: tail) = .ok ([c], token))
    (hblank : isBlank c = false) : Starts afterOperand [c] [token] token.endsOperand := by
  have h : Starts afterOperand ([c] ++ []) [token] token.endsOperand :=
    .cons htoken (by simpa using hblank) .nil
  simpa using h

theorem literal {quote : Char} (hquote : quote = '"' ∨ quote = '\'')
    {body : List Char} (hbody : quote ∉ body) :
    Starts afterOperand (quote :: body ++ [quote]) [.literal (String.ofList body)] true := by
  have hblank : ∀ c ∈ (quote :: body ++ [quote]).head?, isBlank c = false := by
    rintro c ⟨⟩
    rcases hquote with rfl | rfl <;> decide
  have h : Starts afterOperand (quote :: body ++ [quote] ++ []) [.literal (String.ofList body)]
      true := .cons (fun _ => tokenAt_literal hquote hbody) hblank .nil
  simpa using h

end Starts
/-! ## Settled tokens -/

/-- The text is enough to tell where the token in front of it ends and what it is: there is
something behind the blanks, and not a colon alone. -/
def Settles (rest : List Char) : Prop :=
  ∃ c more, rest.dropWhile isBlank = c :: more ∧ (c = ':' → more ≠ [])

theorem Settles.ne_nil (h : Settles rest) : rest ≠ [] := by
  rintro rfl
  obtain ⟨c, more, heq, -⟩ := h
  cases heq

theorem startsNumber_append (h : 2 ≤ cs.length) (tail : List Char) :
    startsNumber (cs ++ tail) = startsNumber cs := by
  match cs with
  | c :: d :: cs =>
    by_cases hc : c = '.'
    · subst hc
      rfl
    · simp [startsNumber, hc]

theorem symbolAt?_append (h : 2 ≤ cs.length) (tail : List Char) :
    symbolAt? (cs ++ tail) = symbolAt? cs := by
  have hshort : (symbols.all fun entry => entry.1.length ≤ 2) = true := by decide
  refine List.find?_congr fun entry hentry => ?_
  have hlength : entry.1.length ≤ 2 := by simpa using List.all_eq_true.1 hshort entry hentry
  rw [Bool.eq_iff_iff, List.isPrefixOf_iff_prefix, List.isPrefixOf_iff_prefix]
  refine ⟨fun hpre => ?_, fun hpre => hpre.trans (List.prefix_append cs tail)⟩
  exact List.prefix_of_prefix_length_le hpre (List.prefix_append cs tail) (hlength.trans h)

theorem numberText_append (h : numberText cs ≠ cs) (tail : List Char) :
    numberText (cs ++ tail) = numberText cs := by
  have hsplit := List.takeWhile_append_dropWhile (p := Char.isDigit) (l := cs)
  have hdrop : cs.dropWhile Char.isDigit ≠ [] := by
    intro hnil
    rw [hnil, List.append_nil] at hsplit
    exact h (by rw [numberText, hnil, hsplit])
  obtain ⟨htake, hdrops⟩ := takeWhile_append_of_drop hdrop tail
  unfold numberText at h ⊢
  rw [htake, hdrops]
  rcases hcs : cs.dropWhile Char.isDigit with _ | ⟨c, behind⟩
  · exact absurd hcs hdrop
  · by_cases hc : c = '.'
    · subst hc
      have hbehind : behind.dropWhile Char.isDigit ≠ [] := by
        intro hnil
        have hall := List.takeWhile_append_dropWhile (p := Char.isDigit) (l := behind)
        rw [hnil, List.append_nil] at hall
        rw [hcs] at h hsplit
        exact h (by simp only [hall, hsplit])
      simp only [List.cons_append, (takeWhile_append_of_drop hbehind tail).1]
    · simp [hc]

theorem nameText_append_of_settles (hcs : nameText cs ++ rest = cs) (hrest : Settles rest)
    (tail : List Char) : nameText (cs ++ tail) = nameText cs := by
  cases cs with
  | nil => exact absurd (List.append_eq_nil_iff.1 hcs).2 hrest.ne_nil
  | cons c cs =>
    simp only [nameText] at hcs
    rw [List.cons_append, nameText, nameText]
    by_cases hc : isNameStart c = true
    · rw [if_pos hc] at hcs
      rw [if_pos hc, if_pos hc]
      have hsplit := List.takeWhile_append_dropWhile (p := isNameChar) (l := cs)
      have hdrop : cs.dropWhile isNameChar ≠ [] := by
        intro hnil
        rw [hnil, List.append_nil] at hsplit
        simp only [hnil, hsplit] at hcs
        exact hrest.ne_nil (List.append_right_eq_self.1 hcs)
      obtain ⟨htake, hdrops⟩ := takeWhile_append_of_drop hdrop tail
      rw [htake, hdrops]
      -- what stands behind the first part decides whether there is a second one
      rcases hbehind : cs.dropWhile isNameChar with _ | ⟨d, _ | ⟨e, es⟩⟩
      · exact absurd hbehind hdrop
      · by_cases hd : d = ':'
        · -- a colon alone is no settled rest
          subst hd
          rw [hbehind] at hcs hsplit
          have hwhole : c :: cs.takeWhile isNameChar ++ rest =
              c :: cs.takeWhile isNameChar ++ [':'] :=
            hcs.trans (congrArg (c :: ·) hsplit.symm)
          rw [List.append_cancel_left hwhole] at hrest
          obtain ⟨e, more, heq, hmore⟩ := hrest
          cases heq
          exact absurd rfl (hmore rfl)
        · simp [hd]
      · by_cases hd : d = ':'
        · subst hd
          rw [hbehind] at hcs hsplit
          simp only [List.cons_append]
          by_cases he : isNameStart e = true
          · simp only [he, if_true] at hcs ⊢
            have hpart : (e :: es).dropWhile isNameChar ≠ [] := by
              intro hnil
              have hall := List.takeWhile_append_dropWhile (p := isNameChar) (l := e :: es)
              rw [hnil, List.append_nil] at hall
              rw [hall, List.cons_append, hsplit] at hcs
              exact hrest.ne_nil (List.append_right_eq_self.1 hcs)
            have htake' := (takeWhile_append_of_drop hpart tail).1
            rw [List.cons_append] at htake'
            rw [htake']
          · simp only [he, Bool.false_eq_true, if_false]
        · simp [hd]
    · rw [if_neg hc, if_neg hc]

theorem nameToken_append_of_settles (hrest : Settles rest) (name : String) (tail : List Char) :
    nameToken afterOperand name (rest ++ tail) = nameToken afterOperand name rest := by
  obtain ⟨c, more, hdrop, hcolon⟩ := hrest
  have htail : (rest ++ tail).dropWhile isBlank = c :: (more ++ tail) := by
    rw [(takeWhile_append_of_drop (by simp [hdrop]) tail).2, hdrop]
    rfl
  simp only [nameToken, htail, hdrop]
  by_cases hc : c = ':'
  · obtain ⟨d, more, rfl⟩ := List.exists_cons_of_ne_nil (hcolon hc)
    subst hc
    simp only [List.cons_append]
    congr 1
    split <;> simp_all
  · congr 1
    split <;> simp_all

/-- A token is the same in front of more text when the text behind it settles it. -/
theorem tokenAt_append_of_settles
    (htoken : tokenAt afterOperand (text ++ rest) = .ok (text, token)) (hrest : Settles rest)
    (tail : List Char) : tokenAt afterOperand (text ++ rest ++ tail) = .ok (text, token) := by
  have hlength : 2 ≤ (text ++ rest).length := by
    have htext := List.length_pos_iff.2 (prefix_of_tokenAt htoken).2
    have hpos := List.length_pos_iff.2 hrest.ne_nil
    rw [List.length_append]
    omega
  have hproper : text ≠ text ++ rest := fun heq =>
    hrest.ne_nil (List.append_right_eq_self.1 heq.symm)
  refine tokenAt_append htoken (startsNumber_append hlength tail) (symbolAt?_append hlength tail)
    (fun htext => numberText_append (htext ▸ hproper) tail) ?_ fun name _ => ?_
  · intro front ds hcs htext
    refine nameText_append_of_settles ?_ hrest tail
    rw [htext, List.append_assoc] at hcs
    exact List.append_cancel_left hcs
  · rw [List.drop_left]
    exact nameToken_append_of_settles hrest name tail
/-- The tokens behind which a literal is put: equality, and what stands in front of an argument. -/
def Token.invites : Token → Bool
  | equal | comma | leftParen => true
  | _ => false

theorem invites_nameToken (name : String) :
    (nameToken afterOperand name rest).invites = false := by
  unfold nameToken
  split
  · rename_i operator hword
    split at hword
    · unfold operatorWord? at hword
      split at hword <;> cases hword <;> rfl
    · cases hword
  · split
    · rfl
    · split <;> rfl
    · rfl

theorem symbolAt?_of_invites (htoken : tokenAt afterOperand cs = .ok (text, token))
    (h : token.invites = true) : symbolAt? cs = some (text, token) := by
  unfold tokenAt at htoken
  split at htoken
  · cases htoken
    cases h
  · split at htoken
    · rename_i found hfound
      rw [hfound, Except.ok.inj htoken]
    · split at htoken
      · cases htoken
      · cases htoken
        cases afterOperand <;> cases h
      · simp only at htoken
        split at htoken <;> cases htoken
        cases h
      · simp only at htoken
        split at htoken
        · split at htoken <;> cases htoken
          cases h
        · split at htoken <;> cases htoken
          rw [invites_nameToken] at h
          cases h

/-- Nothing goes on with such a token. -/
theorem tokenAt_append_of_invites (htoken : tokenAt afterOperand cs = .ok (text, token))
    (h : token.invites = true) (tail : List Char) :
    tokenAt afterOperand (cs ++ tail) = .ok (text, token) := by
  have hsymbol := symbolAt?_of_invites htoken h
  obtain ⟨ds, rfl⟩ := (prefix_of_symbolAt? hsymbol).1
  have hmem : (text, token) ∈ symbols.filter (·.2.invites) :=
    List.mem_filter.2 ⟨List.mem_of_find?_eq_some hsymbol, h⟩
  have hthree : symbols.filter (·.2.invites) =
      [(['('], .leftParen), ([','], .comma), (['='], .equal)] := rfl
  rw [hthree] at hmem
  simp only [List.mem_cons, List.not_mem_nil, or_false, Prod.mk.injEq] at hmem
  rcases hmem with ⟨rfl, rfl⟩ | ⟨rfl, rfl⟩ | ⟨rfl, rfl⟩ <;> rfl

theorem settles_of_scanFrom {offset : Nat} {lexemes : List Lexeme}
    (h : scanFrom offset afterOperand cs = .ok lexemes) (hne : lexemes ≠ []) : Settles cs := by
  fun_induction scanFrom offset afterOperand cs generalizing lexemes with
  | case1 =>
    cases h
    exact absurd rfl hne
  | case2 offset afterOperand c cs hblank ih =>
    obtain ⟨d, more, hdrop, hcolon⟩ := ih h hne
    exact ⟨d, more, by rw [List.dropWhile_cons_of_pos hblank, hdrop], hcolon⟩
  | case3 | case4 => cases h
  | case5 offset afterOperand c cs hblank token text rest hread others hothers ih =>
    refine ⟨c, cs, List.dropWhile_cons_of_neg hblank, ?_⟩
    rintro rfl rfl
    have htoken : tokenAt afterOperand [':'] = .error (.unexpectedCharacter ':') := rfl
    rw [tokenAt_of_readToken hread] at htoken
    cases htoken

theorem starts_of_scanFrom_nil {offset : Nat} (h : scanFrom offset afterOperand cs = .ok []) :
    Starts afterOperand cs [] afterOperand := by
  fun_induction scanFrom offset afterOperand cs with
  | case1 => exact .nil
  | case2 offset afterOperand c cs hblank ih => exact (Starts.blank hblank).append (ih h)
  | case3 | case4 | case5 => cases h

/-- A text that ends with a token that invites a literal keeps its tokens in front of any other. -/
theorem starts_of_scanFrom {offset : Nat} {lexemes : List Lexeme}
    (h : scanFrom offset afterOperand cs = .ok lexemes) {last : Token}
    (hlast : (lexemes.map Lexeme.token).getLast? = some last) (hinvites : last.invites = true) :
    Starts afterOperand cs (lexemes.map Lexeme.token) false := by
  fun_induction scanFrom offset afterOperand cs generalizing lexemes with
  | case1 =>
    cases h
    cases hlast
  | case2 offset afterOperand c cs hblank ih => exact (Starts.blank hblank).append (ih h hlast)
  | case3 | case4 => cases h
  | case5 offset afterOperand c cs hblank token text rest hread others hothers ih =>
    cases h
    have hhead := head?_of_readToken hread hblank
    have htoken := tokenAt_of_readToken hread
    rw [← (readToken_append hread).1] at htoken ⊢
    cases others with
    | nil =>
      -- behind the last token there are blanks alone
      obtain rfl : token = last := by simpa using hlast
      have hoperand : token.endsOperand = false := by
        cases token <;> simp_all [Token.invites, Token.endsOperand]
      refine .cons (fun tail => ?_) hhead (hoperand ▸ starts_of_scanFrom_nil hothers)
      rw [← List.append_assoc]
      exact tokenAt_append_of_invites htoken hinvites tail
    | cons next others =>
      have hsettles := settles_of_scanFrom hothers (List.cons_ne_nil next others)
      refine .cons (fun tail => ?_) hhead (ih hothers (by simpa using hlast))
      rw [← List.append_assoc]
      exact tokenAt_append_of_settles htoken hsettles tail

end MarkupQuery.XPath
