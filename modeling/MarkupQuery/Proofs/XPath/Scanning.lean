import Mathlib.Data.List.Basic
import MarkupQuery.XPath.Lexeme

/-!
# Scanning piece by piece

How the tokens of a text come from those of its pieces.  A piece that ends with a name has to be
followed by a fence: something that neither goes on with the name nor makes it a function or an
axis.
-/

namespace MarkupQuery.XPath

open Text (isBlank isAlphabetic)

/-- The tokens of a text, whatever stands before it. -/
def Scans (afterOperand : Bool) (cs : List Char) (tokens : List Token) : Prop :=
  ∀ offset, ∃ lexemes, scanFrom offset afterOperand cs = .ok lexemes ∧
    lexemes.map Lexeme.token = tokens

/-- What may follow a name of one part: no character of a name, and neither an opening parenthesis
nor a colon behind the blanks. -/
def Fence (cs : List Char) : Prop :=
  (∀ c ∈ cs.head?, isNameChar c = false) ∧ ∀ c ∈ (cs.dropWhile isBlank).head?, c ≠ '(' ∧ c ≠ ':'

variable {afterOperand : Bool} {cs rest : List Char} {tokens : List Token}

theorem scan_eq_ok_of_scans {source : String} (h : Scans false source.toList tokens) :
    ∃ lexemes, scan source = .ok lexemes ∧ lexemes.map Lexeme.token = tokens := h 0

theorem fence_nil : Fence [] := by
  simp [Fence]

/-! ## One token -/

/-- Reading goes on behind a token in the way that the token leaves it. -/
theorem scanFrom_append {text : List Char} {token : Token} (offset : Nat)
    (htoken : tokenAt afterOperand (text ++ rest) = .ok (text, token))
    (hblank : ∀ c ∈ text.head?, isBlank c = false) :
    scanFrom offset afterOperand (text ++ rest) =
      (scanFrom (offset + byteLength text) token.endsOperand rest).map
        (⟨token, text, offset⟩ :: ·) := by
  obtain ⟨c, text, rfl⟩ := List.exists_cons_of_ne_nil (prefix_of_tokenAt htoken).2
  have hread : readToken afterOperand (c :: text ++ rest) = .ok (token, c :: text, rest) := by
    rw [readToken, htoken]
    simp
  rw [List.cons_append] at hread ⊢
  rw [scanFrom, if_neg (by simpa using hblank c rfl)]
  split
  · rename_i heq
    rw [hread] at heq
    cases heq
  · rename_i heq
    rw [hread] at heq
    cases heq
    cases scanFrom (offset + byteLength (c :: text)) token.endsOperand rest <;> rfl

theorem isBlank_head?_of_mem_symbols {text : List Char} {token : Token}
    (h : (text, token) ∈ symbols) : ∀ c ∈ text.head?, isBlank c = false := by
  have hall : (symbols.all fun entry => entry.1.head?.all fun c => !isBlank c) = true := by
    decide
  simpa [Option.all_eq_true] using List.all_eq_true.1 hall _ h

namespace Scans

theorem nil : Scans afterOperand [] [] := by
  intro offset
  exact ⟨[], by rw [scanFrom], rfl⟩

theorem blank {c : Char} (hc : isBlank c = true) (h : Scans afterOperand cs tokens) :
    Scans afterOperand (c :: cs) tokens := by
  intro offset
  obtain ⟨lexemes, hscan, htokens⟩ := h (offset + 1)
  refine ⟨lexemes, ?_, htokens⟩
  rw [scanFrom, if_pos hc, hscan]

theorem space (h : Scans afterOperand cs tokens) : Scans afterOperand (' ' :: cs) tokens :=
  h.blank (by decide)

theorem token {text : List Char} {token : Token}
    (htoken : tokenAt afterOperand (text ++ rest) = .ok (text, token))
    (hblank : ∀ c ∈ text.head?, isBlank c = false) (h : Scans token.endsOperand rest tokens) :
    Scans afterOperand (text ++ rest) (token :: tokens) := by
  intro offset
  obtain ⟨lexemes, hscan, htokens⟩ := h (offset + byteLength text)
  refine ⟨⟨token, text, offset⟩ :: lexemes, ?_, by rw [List.map_cons, htokens]⟩
  rw [scanFrom_append offset htoken hblank, hscan]
  rfl

/-! ## Symbols -/

theorem symbol (text : List Char) {token : Token}
    (hsymbol : symbolAt? (text ++ rest) = some (text, token))
    (hnumber : startsNumber (text ++ rest) = false) (h : Scans token.endsOperand rest tokens) :
    Scans afterOperand (text ++ rest) (token :: tokens) := by
  refine Scans.token ?_ ?_ h
  · unfold tokenAt
    rw [hnumber, hsymbol]
    rfl
  · exact isBlank_head?_of_mem_symbols (List.mem_of_find?_eq_some hsymbol)

theorem wildcard (h : Scans true rest tokens) :
    Scans false ('*' :: rest) (.wildcard :: tokens) := by
  have htoken : tokenAt false (['*'] ++ rest) = .ok (['*'], .wildcard) := rfl
  refine token htoken ?_ h
  rintro c ⟨⟩
  decide

end Scans

/-! ## Names -/

theorem ne_of_isNameStart {c d : Char} (hc : isNameStart c = true) (hd : isNameStart d = false) :
    c ≠ d := by
  rintro rfl
  rw [hc] at hd
  cases hd

theorem isBlank_of_isNameStart {c : Char} (hc : isNameStart c = true) : isBlank c = false := by
  have hspace : c ≠ ' ' := ne_of_isNameStart hc (by decide)
  have htab : c ≠ '\t' := ne_of_isNameStart hc (by decide)
  have hreturn : c ≠ '\r' := ne_of_isNameStart hc (by decide)
  have hline : c ≠ '\n' := ne_of_isNameStart hc (by decide)
  simp [isBlank, hspace, htab, hreturn, hline]

theorem isDigit_of_isNameStart {c : Char} (hc : isNameStart c = true) : c.isDigit = false := by
  rw [Bool.eq_false_iff]
  intro hdigit
  have hrange : 48 ≤ c.toNat ∧ c.toNat ≤ 57 := by
    simpa [Char.isDigit, UInt32.le_iff_toNat_le] using hdigit
  have hascii : c.toNat < 0x80 := by omega
  have hne : c ≠ '_' := by
    rintro rfl
    exact absurd hdigit (by decide)
  simp only [isNameStart, isAlphabetic, hascii, ↓reduceIte, Bool.or_eq_true, beq_iff_eq, hne,
    false_or, Text.isAlpha_iff] at hc
  omega

theorem isDigit_of_not_isNameChar {c : Char} (hc : isNameChar c = false) : c.isDigit = false := by
  rw [Bool.eq_false_iff]
  intro hdigit
  have hrange : 48 ≤ c.toNat ∧ c.toNat ≤ 57 := by
    simpa [Char.isDigit, UInt32.le_iff_toNat_le] using hdigit
  have hascii : c.toNat < 0x80 := by omega
  simp [isNameChar, Text.isNumeric, hascii, hdigit] at hc

theorem startsNumber_of_isNameStart {c : Char} (hc : isNameStart c = true) (cs : List Char) :
    startsNumber (c :: cs) = false := by
  have hne : c ≠ '.' := ne_of_isNameStart hc (by decide)
  cases cs with
  | nil => simpa [startsNumber] using isDigit_of_isNameStart hc
  | cons d cs => simpa [startsNumber, hne] using isDigit_of_isNameStart hc

theorem symbolAt?_of_isNameStart {c : Char} (hc : isNameStart c = true) (cs : List Char) :
    symbolAt? (c :: cs) = none := by
  have hstart : ∀ entry ∈ symbols, ∃ d text, entry.1 = d :: text ∧ isNameStart d = false := by
    simp only [symbols, List.forall_mem_cons]
    simp
    decide
  refine List.find?_eq_none.2 fun entry hentry hpre => ?_
  obtain ⟨d, text, htext, hd⟩ := hstart entry hentry
  rw [htext, List.isPrefixOf_iff_prefix, List.cons_prefix_cons] at hpre
  exact ne_of_isNameStart hc hd hpre.1.symm

theorem nameText_append {c : Char} {name : List Char} (hc : isNameStart c = true)
    (hname : ∀ d ∈ name, isNameChar d = true) (hrest : ∀ d ∈ rest.head?, isNameChar d = false)
    (hcolon : ∀ d behind, rest = ':' :: d :: behind → isNameStart d = false) :
    nameText (c :: (name ++ rest)) = c :: name := by
  have htake : rest.takeWhile isNameChar = [] := by
    cases rest with
    | nil => rfl
    | cons d rest => rw [List.takeWhile_cons_of_neg (by simp [hrest d rfl])]
  have hdrop : rest.dropWhile isNameChar = rest := by
    cases rest with
    | nil => rfl
    | cons d rest => rw [List.dropWhile_cons_of_neg (by simp [hrest d rfl])]
  rw [nameText, if_pos hc, List.takeWhile_append_of_pos hname, List.dropWhile_append_of_pos hname,
    htake, hdrop, List.append_nil]
  split
  · rw [if_neg (by simp [hcolon _ _ rfl])]
  · rfl

theorem tokenAt_of_isNameStart {c : Char} (hc : isNameStart c = true) (cs : List Char) :
    tokenAt afterOperand (c :: cs) = .ok (nameText (c :: cs),
      nameToken afterOperand (String.ofList (nameText (c :: cs)))
        ((c :: cs).drop (nameText (c :: cs)).length)) := by
  have hstar : c ≠ '*' := ne_of_isNameStart hc (by decide)
  have hdollar : c ≠ '$' := ne_of_isNameStart hc (by decide)
  have hdouble : c ≠ '"' := ne_of_isNameStart hc (by decide)
  have hsingle : c ≠ '\'' := ne_of_isNameStart hc (by decide)
  unfold tokenAt
  rw [startsNumber_of_isNameStart hc, symbolAt?_of_isNameStart hc]
  split
  · simp_all
  · split <;> simp_all

theorem tokenAt_name {c : Char} {name : List Char} (hc : isNameStart c = true)
    (hname : ∀ d ∈ name, isNameChar d = true) (hrest : ∀ d ∈ rest.head?, isNameChar d = false)
    (hcolon : ∀ d behind, rest = ':' :: d :: behind → isNameStart d = false) :
    tokenAt afterOperand (c :: name ++ rest) =
      .ok (c :: name, nameToken afterOperand (String.ofList (c :: name)) rest) := by
  rw [List.cons_append, tokenAt_of_isNameStart hc, nameText_append hc hname hrest hcolon,
    ← List.cons_append, List.drop_left]

theorem Scans.word {c : Char} {name : List Char} (hc : isNameStart c = true)
    (hname : ∀ d ∈ name, isNameChar d = true) (hrest : ∀ d ∈ rest.head?, isNameChar d = false)
    (hcolon : ∀ d behind, rest = ':' :: d :: behind → isNameStart d = false) {token : Token}
    (htoken : nameToken afterOperand (String.ofList (c :: name)) rest = token)
    (h : Scans token.endsOperand rest tokens) :
    Scans afterOperand (c :: name ++ rest) (token :: tokens) := by
  subst htoken
  refine Scans.token (tokenAt_name hc hname hrest hcolon) ?_ h
  rintro d ⟨⟩
  exact isBlank_of_isNameStart hc

/-! ## Fences -/

theorem Fence.head (h : Fence rest) : ∀ c ∈ rest.head?, isNameChar c = false := h.1

theorem Fence.ne_colon (h : Fence rest) (behind : List Char) : rest ≠ ':' :: behind := by
  rintro rfl
  have hdrop : (':' :: behind).dropWhile isBlank = ':' :: behind :=
    List.dropWhile_cons_of_neg (by decide)
  have hbehind := h.2
  rw [hdrop] at hbehind
  exact (hbehind ':' rfl).2 rfl

/-- A name that stands before a fence is no function and no axis. -/
theorem nameToken_of_fence (h : Fence rest) (name : String) :
    nameToken false name rest = .name name := by
  have hbehind := h.2
  simp only [nameToken, Bool.false_eq_true, ↓reduceIte]
  split
  · rename_i heq
    rw [heq] at hbehind
    exact absurd rfl (hbehind ':' rfl).2
  · rename_i heq
    rw [heq] at hbehind
    exact absurd rfl (hbehind '(' rfl).1
  · rfl

theorem Scans.name {c : Char} {name : List Char} (hc : isNameStart c = true)
    (hname : ∀ d ∈ name, isNameChar d = true) (hrest : Fence rest) (h : Scans true rest tokens) :
    Scans false (c :: name ++ rest) (.name (String.ofList (c :: name)) :: tokens) :=
  Scans.word hc hname hrest.head (fun _ _ heq => absurd heq (hrest.ne_colon _))
    (nameToken_of_fence hrest _) h

/-! ## Literals -/

theorem takeWhile_quoted {quote : Char} {body : List Char} (h : quote ∉ body) (rest : List Char) :
    (body ++ quote :: rest).takeWhile (· != quote) = body := by
  rw [List.takeWhile_append_of_pos (by
    intro c hc
    simpa using fun heq : c = quote => h (heq ▸ hc))]
  simp

theorem tokenAt_literal {quote : Char} (hquote : quote = '"' ∨ quote = '\'') {body : List Char}
    (h : quote ∉ body) :
    tokenAt afterOperand (quote :: body ++ [quote] ++ rest) =
      .ok (quote :: body ++ [quote], .literal (String.ofList body)) := by
  have hbody := takeWhile_quoted h rest
  rcases hquote with rfl | rfl
  · have hnumber (cs : List Char) : startsNumber ('"' :: cs) = false := rfl
    have hsymbol (cs : List Char) : symbolAt? ('"' :: cs) = none := rfl
    simp [tokenAt, hnumber, hsymbol, hbody]
  · have hnumber (cs : List Char) : startsNumber ('\'' :: cs) = false := rfl
    have hsymbol (cs : List Char) : symbolAt? ('\'' :: cs) = none := rfl
    simp [tokenAt, hnumber, hsymbol, hbody]

/-- A text between quotes that it does not hold, whatever follows. -/
theorem Scans.literal {quote : Char} (hquote : quote = '"' ∨ quote = '\'') {body : List Char}
    (hbody : quote ∉ body) (h : Scans true rest tokens) :
    Scans afterOperand (quote :: body ++ [quote] ++ rest)
      (.literal (String.ofList body) :: tokens) := by
  refine Scans.token (tokenAt_literal hquote hbody) ?_ h
  rintro c ⟨⟩
  rcases hquote with rfl | rfl <;> decide

/-! ## Numbers -/

theorem takeWhile_digits {digits : List Char} (hdigits : ∀ d ∈ digits, d.isDigit = true)
    (hrest : ∀ c ∈ rest.head?, c.isDigit = false) :
    (digits ++ rest).takeWhile Char.isDigit = digits ∧
      (digits ++ rest).dropWhile Char.isDigit = rest := by
  rw [List.takeWhile_append_of_pos hdigits, List.dropWhile_append_of_pos hdigits]
  cases rest with
  | nil => simp
  | cons c rest => simp [hrest c rfl]

theorem numberText_integer {digits : List Char} (hdigits : ∀ d ∈ digits, d.isDigit = true)
    (hrest : ∀ c ∈ rest.head?, c.isDigit = false) (hpoint : ∀ c ∈ rest.head?, c ≠ '.') :
    numberText (digits ++ rest) = digits := by
  obtain ⟨htake, hdrop⟩ := takeWhile_digits hdigits hrest
  unfold numberText
  split
  · rename_i heq
    rw [hdrop] at heq
    subst heq
    exact absurd rfl (hpoint '.' rfl)
  · exact htake

theorem numberValue_integer {digits : List Char} (hdigits : ∀ d ∈ digits, d.isDigit = true) :
    numberValue digits = Decimal.ofDigits digits [] := by
  have hall := takeWhile_digits hdigits (by simp : ∀ c ∈ ([] : List Char).head?, _)
  rw [List.append_nil] at hall
  rw [numberValue, hall.1, hall.2]
  rfl

theorem startsNumber_of_isDigit {d : Char} (hd : d.isDigit = true) (cs : List Char) :
    startsNumber (d :: cs) = true := by
  have hpoint : d ≠ '.' := by
    rintro rfl
    exact absurd hd (by decide)
  cases cs with
  | nil => simpa [startsNumber] using hd
  | cons e cs => simpa [startsNumber, hpoint] using hd

theorem tokenAt_of_startsNumber (h : startsNumber cs = true) :
    tokenAt afterOperand cs = .ok (numberText cs, .number (numberValue (numberText cs))) := by
  unfold tokenAt
  rw [if_pos h]

theorem isBlank_of_isDigit {d : Char} (hd : d.isDigit = true) : isBlank d = false := by
  rw [Bool.eq_false_iff]
  intro hblank
  simp only [isBlank, Bool.or_eq_true, beq_iff_eq] at hblank
  rcases hblank with ((rfl | rfl) | rfl) | rfl <;> exact absurd hd (by decide)

/-- Digits that nothing goes on with. -/
theorem Scans.number {digits : List Char} (hne : digits ≠ [])
    (hdigits : ∀ d ∈ digits, d.isDigit = true) (hrest : ∀ c ∈ rest.head?, c.isDigit = false)
    (hpoint : ∀ c ∈ rest.head?, c ≠ '.') (h : Scans true rest tokens) :
    Scans afterOperand (digits ++ rest) (.number (Decimal.ofDigits digits []) :: tokens) := by
  have htext := numberText_integer hdigits hrest hpoint
  have hvalue := numberValue_integer hdigits
  obtain ⟨d, digits, rfl⟩ := List.exists_cons_of_ne_nil hne
  have hdigit : d.isDigit = true := hdigits d (by simp)
  have hstarts : startsNumber (d :: digits ++ rest) = true := startsNumber_of_isDigit hdigit _
  refine Scans.token ?_ ?_ h
  · rw [tokenAt_of_startsNumber hstarts, htext, hvalue]
  · rintro c ⟨⟩
    exact isBlank_of_isDigit hdigit

end MarkupQuery.XPath
