import MarkupQuery.Proofs.XPath.TokenTexts

/-!
# Blanks between tokens

A text is its tokens and blanks: nothing else is dropped, and each token stands where its offset
says.  The blanks matter to nothing but where one token ends: any others in their places leave all
tokens as they are.
-/

namespace MarkupQuery.XPath

open Text (isBlank)

variable {afterOperand : Bool} {offset : Nat} {cs rest text name : List Char} {token : Token}
  {next : Option Token} {lexemes : List Lexeme}

/-! ## Bytes -/

theorem foldl_utf8Size (cs : List Char) (n : Nat) :
    cs.foldl (fun n c => n + c.utf8Size) n = n + byteLength cs := by
  induction cs generalizing n with
  | nil => rfl
  | cons c cs ih =>
    rw [byteLength, List.foldl_cons, List.foldl_cons, ih, ih, Nat.zero_add, Nat.add_assoc]

theorem byteLength_cons (c : Char) (cs : List Char) :
    byteLength (c :: cs) = c.utf8Size + byteLength cs := by
  rw [byteLength, List.foldl_cons, foldl_utf8Size, Nat.zero_add]

theorem byteLength_append (l l' : List Char) :
    byteLength (l ++ l') = byteLength l + byteLength l' := by
  rw [byteLength, List.foldl_append, foldl_utf8Size]
  rfl

theorem byteLength_pos (h : text ≠ []) : 0 < byteLength text := by
  obtain ⟨c, cs, rfl⟩ := List.exists_cons_of_ne_nil h
  have hc := c.utf8Size_pos
  rw [byteLength_cons]
  omega

theorem utf8ByteSize_ofList (cs : List Char) : (String.ofList cs).utf8ByteSize = byteLength cs := by
  induction cs with
  | nil => rfl
  | cons c cs ih =>
    rw [String.ofList_cons, String.utf8ByteSize_append, String.utf8ByteSize_singleton, ih,
      byteLength_cons]

/-! ## Texts laid out -/

/-- The characters behind `offset` bytes are the texts of the tokens in their order, each at its
offset, with nothing but blanks before, between and after them. -/
inductive LaidOut : Nat → List Char → List Lexeme → Prop where
  | blanks {offset : Nat} {gap : List Char} (hgap : ∀ c ∈ gap, isBlank c = true) :
      LaidOut offset gap []
  | token {offset : Nat} {gap cs : List Char} {x : Lexeme} {others : List Lexeme}
      (hgap : ∀ c ∈ gap, isBlank c = true) (hoffset : x.offset = offset + byteLength gap)
      (htext : x.text ≠ []) (hothers : LaidOut (x.offset + byteLength x.text) cs others) :
      LaidOut offset (gap ++ (x.text ++ cs)) (x :: others)

theorem utf8Size_of_isBlank {c : Char} (hc : isBlank c = true) : c.utf8Size = 1 := by
  simp only [isBlank, Bool.or_eq_true, beq_iff_eq] at hc
  rcases hc with ((rfl | rfl) | rfl) | rfl <;> decide

theorem LaidOut.blank {c : Char} (hc : isBlank c = true) (h : LaidOut (offset + 1) cs lexemes) :
    LaidOut offset (c :: cs) lexemes := by
  have hall {gap : List Char} (hgap : ∀ d ∈ gap, isBlank d = true) :
      ∀ d ∈ c :: gap, isBlank d = true := List.forall_mem_cons.2 ⟨hc, hgap⟩
  cases h with
  | blanks hgap => exact .blanks (hall hgap)
  | @token _ gap cs x others hgap hoffset htext hothers =>
    rw [← List.cons_append]
    refine .token (hall hgap) ?_ htext hothers
    rw [hoffset, byteLength_cons, utf8Size_of_isBlank hc, Nat.add_assoc]

theorem laidOut_of_scanFrom (h : scanFrom offset afterOperand cs = .ok lexemes) :
    LaidOut offset cs lexemes := by
  fun_induction scanFrom offset afterOperand cs generalizing lexemes with
  | case1 offset afterOperand =>
    cases h
    exact .blanks (by simp)
  | case2 offset afterOperand c cs hblank ih => exact (ih h).blank hblank
  | case3 | case4 => cases h
  | case5 offset afterOperand c cs hblank token text rest hread others hothers ih =>
    cases h
    obtain ⟨happ, hne⟩ := readToken_append hread
    have hgap : ∀ c ∈ ([] : List Char), isBlank c = true := by simp
    have hoffset : offset = offset + byteLength [] := rfl
    have hlaid : LaidOut offset ([] ++ (text ++ rest)) (⟨token, text, offset⟩ :: others) :=
      .token (x := ⟨token, text, offset⟩) hgap hoffset hne (ih hothers)
    rwa [List.nil_append, happ] at hlaid

namespace LaidOut

theorem exists_before (h : LaidOut offset cs lexemes) {x : Lexeme} (hx : x ∈ lexemes) :
    ∃ before behind, cs = before ++ behind ∧ x.offset = offset + byteLength before := by
  induction h with
  | blanks => cases hx
  | @token offset gap cs y others hgap hoffset htext hothers ih =>
    rcases List.mem_cons.1 hx with rfl | hx
    · exact ⟨gap, x.text ++ cs, rfl, hoffset⟩
    · obtain ⟨before, behind, rfl, heq⟩ := ih hx
      refine ⟨gap ++ (y.text ++ before), behind, by simp, ?_⟩
      rw [heq, hoffset, byteLength_append, byteLength_append]
      omega

theorem pairwise (h : LaidOut offset cs lexemes) :
    lexemes.Pairwise fun x y => x.offset < y.offset := by
  induction h with
  | blanks => exact .nil
  | @token offset gap cs x others hgap hoffset htext hothers ih =>
    refine List.pairwise_cons.2 ⟨fun y hy => ?_, ih⟩
    obtain ⟨before, behind, -, heq⟩ := hothers.exists_before hy
    have hpos := byteLength_pos htext
    omega

theorem isValid {source : String} (h : LaidOut 0 source.toList lexemes) {x : Lexeme}
    (hx : x ∈ lexemes) : (⟨x.offset⟩ : String.Pos.Raw).IsValid source := by
  obtain ⟨before, behind, happ, hoffset⟩ := h.exists_before hx
  refine String.Pos.Raw.isValid_iff_exists_append.2
    ⟨String.ofList before, String.ofList behind, ?_, ?_⟩
  · rw [← String.ofList_append, ← happ, String.ofList_toList]
  · rw [hoffset, Nat.zero_add, ← utf8ByteSize_ofList]
    rfl

end LaidOut

/-! ## Tokens in front of blanks -/

/-- Nothing follows, or a blank does. -/
def Apart (rest : List Char) : Prop := ∀ c ∈ rest.head?, isBlank c = true

theorem severs_of_isBlank {c : Char} (hc : isBlank c = true) : Severs c := by
  simp only [isBlank, Bool.or_eq_true, beq_iff_eq] at hc
  rcases hc with ((rfl | rfl) | rfl) | rfl <;> exact ⟨by decide, by decide⟩

namespace Apart

theorem eq_nil_or_severs (h : Apart rest) : rest = [] ∨ ∃ c more, rest = c :: more ∧ Severs c := by
  cases rest with
  | nil => exact .inl rfl
  | cons c more => exact .inr ⟨c, more, rfl, severs_of_isBlank (h c rfl)⟩

theorem nameText_append (h : Apart rest) (hname : IsName name) :
    nameText (name ++ rest) = name := by
  rcases h.eq_nil_or_severs with rfl | ⟨c, more, rfl, hc⟩
  · rw [List.append_nil, hname.nameText_eq]
  · rw [hc.nameText_append, hname.nameText_eq]

theorem startsNumber_append (h : Apart rest) (hne : cs ≠ []) :
    startsNumber (cs ++ rest) = startsNumber cs := by
  rcases h.eq_nil_or_severs with rfl | ⟨c, more, rfl, hc⟩
  · rw [List.append_nil]
  · exact hc.startsNumber_append hne

theorem symbolAt?_append (h : Apart rest) (hne : cs ≠ []) :
    symbolAt? (cs ++ rest) = symbolAt? cs := by
  rcases h.eq_nil_or_severs with rfl | ⟨c, more, rfl, hc⟩
  · rw [List.append_nil]
  · exact hc.symbolAt?_append hne

end Apart

theorem tokenAt_integer {digits : List Char} (hne : digits ≠ [])
    (hdigits : ∀ d ∈ digits, d.isDigit = true) (hrest : Apart rest) :
    tokenAt afterOperand (digits ++ rest) =
      .ok (digits, .number (Decimal.ofDigits digits [])) := by
  have hsevers {c : Char} (hc : c ∈ rest.head?) : Severs c := severs_of_isBlank (hrest c hc)
  have hstarts : startsNumber (digits ++ rest) = true := by
    obtain ⟨d, digits, rfl⟩ := List.exists_cons_of_ne_nil hne
    exact startsNumber_of_isDigit (hdigits d (by simp)) _
  rw [tokenAt_of_startsNumber hstarts,
    numberText_integer hdigits (fun c hc => (hsevers hc).isDigit_eq)
      (fun c hc => (hsevers hc).ne_point), numberValue_integer hdigits]

theorem tokenAt_decimal {whole places : List Char} (hne : whole ≠ [] ∨ places ≠ [])
    (hwhole : ∀ d ∈ whole, d.isDigit = true) (hplaces : ∀ d ∈ places, d.isDigit = true)
    (hrest : Apart rest) : tokenAt afterOperand (whole ++ '.' :: places ++ rest) =
      .ok (whole ++ '.' :: places, .number (Decimal.ofDigits whole places)) := by
  have hstarts : startsNumber (whole ++ '.' :: (places ++ rest)) = true := by
    cases whole with
    | nil =>
      obtain ⟨d, places, rfl⟩ := List.exists_cons_of_ne_nil (hne.resolve_left (by simp))
      exact hplaces d (by simp)
    | cons d whole => exact startsNumber_of_isDigit (hwhole d (by simp)) _
  rw [List.append_assoc, List.cons_append, tokenAt_of_startsNumber hstarts,
    numberText_decimal hwhole hplaces fun c hc => (severs_of_isBlank (hrest c hc)).isDigit_eq,
    numberValue_decimal hwhole]

theorem symbolAt?_of_mem (h : (text, token) ∈ symbols) : symbolAt? text = some (text, token) := by
  have hall : ∀ entry ∈ symbols, symbolAt? entry.1 = some entry := by
    simp only [symbols, List.forall_mem_cons]
    and_intros <;> first | rfl | simp
  exact hall _ h

theorem tokenAt_symbol (h : (text, token) ∈ symbols) (hrest : Apart rest) :
    tokenAt afterOperand (text ++ rest) = .ok (text, token) := by
  have hall : (symbols.all fun entry => !startsNumber entry.1 && !entry.1.isEmpty) = true := by
    decide
  obtain ⟨hnumber, hne⟩ : startsNumber text = false ∧ text ≠ [] := by
    simpa using List.all_eq_true.1 hall _ h
  unfold tokenAt
  rw [hrest.startsNumber_append hne, hnumber, hrest.symbolAt?_append hne, symbolAt?_of_mem h]
  rfl

theorem tokenAt_variableRef (hname : IsName name) (hrest : Apart rest) :
    tokenAt afterOperand ('$' :: name ++ rest) =
      .ok ('$' :: name, .variableRef (String.ofList name)) := by
  have hnumber (cs : List Char) : startsNumber ('$' :: cs) = false := rfl
  have hsymbol (cs : List Char) : symbolAt? ('$' :: cs) = none := rfl
  have hne : name ≠ [] := by
    obtain ⟨c, cs, rfl, -⟩ := hname.exists_cons
    simp
  simp [tokenAt, hnumber, hsymbol, hrest.nameText_append hname, hne]

theorem tokenAt_word (hname : IsName name) (hrest : Apart rest) :
    tokenAt afterOperand (name ++ rest) =
      .ok (name, nameToken afterOperand (String.ofList name) rest) := by
  have htext := hrest.nameText_append hname
  obtain ⟨c, cs, rfl, hc⟩ := hname.exists_cons
  rw [List.cons_append] at htext ⊢
  rw [tokenAt_of_isNameStart hc, htext, ← List.cons_append, List.drop_left]

/-- A text of a token is read as it in front of a blank, when what follows the blanks is announced
as before. -/
theorem TokenText.tokenAt_append (h : TokenText afterOperand next text token) (hrest : Apart rest)
    (hnext : Announces rest next) : tokenAt afterOperand (text ++ rest) = .ok (text, token) := by
  cases h with
  | integer hne hdigits => exact tokenAt_integer hne hdigits hrest
  | decimal hne hwhole hplaces => exact tokenAt_decimal hne hwhole hplaces hrest
  | symbol hsymbol => exact tokenAt_symbol hsymbol hrest
  | star => rfl
  | variableRef hname => exact tokenAt_variableRef hname hrest
  | literal hquote hbody => exact tokenAt_literal hquote hbody
  | word hname => rw [tokenAt_word hname hrest, hnext]

/-! ## Texts with other blanks between them -/

/-- The texts in their order, with blanks between them. -/
inductive Joined : List (List Char) → List Char → Prop where
  | nil : Joined [] []
  | last (text : List Char) : Joined [text] text
  | cons {text gap next cs : List Char} {texts : List (List Char)} (hne : gap ≠ [])
      (hgap : ∀ c ∈ gap, isBlank c = true) (h : Joined (next :: texts) cs) :
      Joined (text :: next :: texts) (text ++ (gap ++ cs))

theorem Scans.blanks {gap : List Char} {tokens : List Token} (hgap : ∀ c ∈ gap, isBlank c = true)
    (h : Scans afterOperand cs tokens) : Scans afterOperand (gap ++ cs) tokens := by
  induction gap with
  | nil => exact h
  | cons c gap ih =>
    obtain ⟨hc, hgap⟩ := List.forall_mem_cons.1 hgap
    exact (ih hgap).blank hc

theorem Scans.announces {tokens : List Token} (h : Scans afterOperand cs tokens) :
    Announces cs tokens.head? := by
  obtain ⟨lexemes, hscan, rfl⟩ := h 0
  rw [List.head?_map]
  exact (tokenTexts_of_scanFrom hscan).1

/-- Tokens are read again from their texts, whatever blanks are put between them. -/
theorem TokenTexts.scans (h : TokenTexts afterOperand lexemes)
    (hcs : Joined (lexemes.map Lexeme.text) cs) :
    Scans afterOperand cs (lexemes.map Lexeme.token) := by
  induction h generalizing cs with
  | nil =>
    cases hcs
    exact .nil
  | @cons afterOperand x others hfirst hothers ih =>
    have hread {rest : List Char} (hrest : Apart rest)
        (h : Scans x.token.endsOperand rest (others.map Lexeme.token)) :
        Scans afterOperand (x.text ++ rest) ((x :: others).map Lexeme.token) := by
      have hnext := h.announces
      rw [List.head?_map] at hnext
      exact Scans.token (hfirst.tokenAt_append hrest hnext) (fun c hc => (hfirst.head c hc).1) h
    cases others with
    | nil =>
      cases hcs
      rw [← List.append_nil x.text]
      exact hread (by simp [Apart]) .nil
    | cons y others =>
      cases hcs with
      | @cons _ gap _ cs _ hne hgap hjoined =>
        refine hread ?_ ((ih hjoined).blanks hgap)
        obtain ⟨c, gap, rfl⟩ := List.exists_cons_of_ne_nil hne
        rintro d ⟨⟩
        exact hgap c (by simp)

/-- A text that has tokens is their texts in order, each at its offset, which is a boundary between
characters, with blanks around them; and with any other blanks between them the texts have the same
tokens. -/
theorem lexing_lossless {source : String} (h : scan source = .ok lexemes) :
    LaidOut 0 source.toList lexemes ∧
    (lexemes.Pairwise fun x y => x.offset < y.offset) ∧
    (∀ x ∈ lexemes, (⟨x.offset⟩ : String.Pos.Raw).IsValid source) ∧
    ∀ cs, Joined (lexemes.map Lexeme.text) cs → ∃ again, scan (String.ofList cs) = .ok again ∧
      again.map Lexeme.token = lexemes.map Lexeme.token := by
  have hlaid := laidOut_of_scanFrom h
  refine ⟨hlaid, hlaid.pairwise, fun x hx => hlaid.isValid hx, fun cs hcs => ?_⟩
  have hscans := (tokenTexts_of_scanFrom h).2.scans hcs
  exact scan_eq_ok_of_scans (by rwa [String.toList_ofList])

theorem scan_stars : scan "é**" =
    .ok [⟨.name "é", ['é'], 0⟩, ⟨.multiply, ['*'], 2⟩, ⟨.wildcard, ['*'], 3⟩] := by
  have hname : tokenAt false (['é'] ++ (['*'] ++ (['*'] ++ []))) = .ok (['é'], .name "é") := rfl
  have hmultiply : tokenAt true (['*'] ++ (['*'] ++ [])) = .ok (['*'], .multiply) := rfl
  have hwildcard : tokenAt false (['*'] ++ []) = .ok (['*'], .wildcard) := rfl
  have hlist : "é**".toList = ['é'] ++ (['*'] ++ (['*'] ++ [])) := by simp
  have hbehindName : (Token.name "é").endsOperand = true := rfl
  have hbehindStar : Token.multiply.endsOperand = false := rfl
  have hletter : ∀ c ∈ ['é'].head?, isBlank c = false := by
    rintro c ⟨⟩
    decide
  have hstar : ∀ c ∈ ['*'].head?, isBlank c = false := by
    rintro c ⟨⟩
    decide
  rw [scan, hlist, scanFrom_append 0 hname hletter, hbehindName,
    scanFrom_append _ hmultiply hstar, hbehindStar, scanFrom_append _ hwildcard hstar, scanFrom]
  rfl

/-- A name of two bytes and two stars, and the same with a line end, a tab and a space between
them. -/
theorem lexing_lossless_stars :
    LaidOut 0 "é**".toList
      [⟨.name "é", ['é'], 0⟩, ⟨.multiply, ['*'], 2⟩, ⟨.wildcard, ['*'], 3⟩] ∧
    (⟨2⟩ : String.Pos.Raw).IsValid "é**" ∧
    ∃ again, scan (String.ofList ['é', '\n', '*', '\t', ' ', '*']) = .ok again ∧
      again.map Lexeme.token = [.name "é", .multiply, .wildcard] := by
  obtain ⟨hlaid, -, hvalid, hagain⟩ := lexing_lossless scan_stars
  have hstars : Joined [['*'], ['*']] (['*'] ++ (['\t', ' '] ++ ['*'])) :=
    .cons (by simp) (List.all_eq_true.1 (by decide)) (.last ['*'])
  have hjoined : Joined [['é'], ['*'], ['*']] (['é'] ++ (['\n'] ++ _)) :=
    .cons (by simp) (List.all_eq_true.1 (by decide)) hstars
  exact ⟨hlaid, hvalid ⟨.multiply, ['*'], 2⟩ (by simp), hagain _ hjoined⟩

end MarkupQuery.XPath
