import Mathlib.Data.List.Find
import MarkupQuery.Proofs.XPath.Parts
import MarkupQuery.Proofs.XPath.Spelling
import MarkupQuery.Proofs.XPath.Starts

/-!
# Composing texts of expressions

Texts that are read on their own are read as parts of longer ones.  A text keeps its tokens in front
of a character that goes on with no token, such as a closing parenthesis, so that an expression can
be put in parentheses with a relative path behind it.
-/

namespace MarkupQuery.XPath

open Text (isBlank)

/-- A character that goes on with no token. -/
structure Severs (c : Char) : Prop where
  isNameChar_eq : isNameChar c = false
  not_mem : c ∉ [':', '/', '=']

/-- A character that goes on with no token, and that makes no function or axis of a name. -/
structure Cuts (c : Char) : Prop extends Severs c where
  isBlank_eq : isBlank c = false
  ne_leftParen : c ≠ '('

theorem cuts_rightParen : Cuts ')' := ⟨⟨by decide, by decide⟩, by decide, by decide⟩

theorem cuts_leftBracket : Cuts '[' := ⟨⟨by decide, by decide⟩, by decide, by decide⟩

variable {c : Char} {afterOperand : Bool} {cs rest text : List Char} {token : Token}
  {more : List Token}

/-! ## Tokens in front of a cut -/

theorem takeWhile_append_cons {α : Type} {p : α → Bool} {a : α} (ha : p a = false) (l l' : List α) :
    (l ++ a :: l').takeWhile p = l.takeWhile p := by
  induction l with
  | nil => simp [ha]
  | cons b l ih => simp only [List.cons_append, List.takeWhile_cons, ih]

theorem dropWhile_append_cons {α : Type} {p : α → Bool} {a : α} (ha : p a = false) (l l' : List α) :
    (l ++ a :: l').dropWhile p = l.dropWhile p ++ a :: l' := by
  induction l with
  | nil => simp [ha]
  | cons b l ih =>
    rw [List.cons_append, List.dropWhile_cons, List.dropWhile_cons, ih]
    split <;> simp

theorem isPrefixOf_append_cons {l : List Char} (hc : c ∉ l) (l' : List Char) :
    l.isPrefixOf (l' ++ c :: rest) = l.isPrefixOf l' := by
  induction l generalizing l' with
  | nil => simp
  | cons a l ih =>
    rw [List.mem_cons, not_or] at hc
    cases l' with
    | nil => simp [List.isPrefixOf, Ne.symm hc.1]
    | cons b l' => rw [List.cons_append, List.isPrefixOf, List.isPrefixOf, ih hc.2]

namespace Severs

theorem isDigit_eq (h : Severs c) : c.isDigit = false := isDigit_of_not_isNameChar h.isNameChar_eq

theorem isNameStart_eq (h : Severs c) : isNameStart c = false := by
  have hname := h.isNameChar_eq
  simp only [isNameChar, Bool.or_eq_false_iff] at hname
  exact hname.1.1.1.1

theorem ne_colon (h : Severs c) : c ≠ ':' := fun heq => h.not_mem (by simp [heq])

theorem ne_point (h : Severs c) : c ≠ '.' := by
  rintro rfl
  exact absurd h.isNameChar_eq (by decide)

theorem startsNumber_append (h : Severs c) (hne : cs ≠ []) :
    startsNumber (cs ++ c :: rest) = startsNumber cs := by
  obtain ⟨d, cs, rfl⟩ := List.exists_cons_of_ne_nil hne
  cases cs with
  | nil =>
    by_cases hd : d = '.'
    · subst hd
      exact h.isDigit_eq
    · simp [startsNumber, hd]
  | cons e cs =>
    by_cases hd : d = '.'
    · subst hd
      rfl
    · simp [startsNumber, hd]

theorem numberText_append (h : Severs c) : numberText (cs ++ c :: rest) = numberText cs := by
  have htake := takeWhile_append_cons h.isDigit_eq cs rest
  have hdrop := dropWhile_append_cons h.isDigit_eq cs rest
  unfold numberText
  rw [htake, hdrop]
  cases cs.dropWhile Char.isDigit with
  | nil =>
    have hpoint := h.ne_point
    simp [hpoint]
  | cons d ds =>
    by_cases hd : d = '.'
    · subst hd
      simp only [List.cons_append, takeWhile_append_cons h.isDigit_eq]
    · simp [hd]

theorem symbolAt?_append (h : Severs c) (hne : cs ≠ []) :
    symbolAt? (cs ++ c :: rest) = symbolAt? cs := by
  have htails : (symbols.all fun entry =>
      entry.1.tail.all fun d => ['/', ':', '=', '.'].contains d) = true := by
    decide
  obtain ⟨d, ds, rfl⟩ := List.exists_cons_of_ne_nil hne
  refine List.find?_congr fun entry hentry => ?_
  have hc : c ∉ entry.1.tail := fun hmem => by
    have hpoint := h.ne_point
    have hnot := h.not_mem
    have hin := List.all_eq_true.1 (List.all_eq_true.1 htails entry hentry) c hmem
    simp_all
  rcases hsplit : entry.1 with _ | ⟨e, es⟩
  · rfl
  · rw [hsplit, List.tail_cons] at hc
    rw [List.cons_append, List.isPrefixOf, List.isPrefixOf, isPrefixOf_append_cons hc]

theorem nameText_append (h : Severs c) : nameText (cs ++ c :: rest) = nameText cs := by
  cases cs with
  | nil => simp [nameText, h.isNameStart_eq]
  | cons d ds =>
    have hcolon := h.ne_colon
    simp only [List.cons_append, nameText, takeWhile_append_cons h.isNameChar_eq,
      dropWhile_append_cons h.isNameChar_eq]
    -- what stands behind the first part decides whether there is a second one
    rcases ds.dropWhile isNameChar with _ | ⟨e, _ | ⟨f, es⟩⟩
    · simp [hcolon]
    · by_cases he : e = ':'
      · simp [he, h.isNameStart_eq]
      · simp [he]
    · by_cases he : e = ':'
      · subst he
        have htake := takeWhile_append_cons h.isNameChar_eq (f :: es) rest
        rw [List.cons_append] at htake
        simp only [List.cons_append, htake]
      · simp [he]

end Severs

namespace Cuts

theorem nameToken_append (h : Cuts c) (name : String) :
    nameToken afterOperand name (cs ++ c :: rest) = nameToken afterOperand name cs := by
  have hparen := h.ne_leftParen
  have hcolon := h.ne_colon
  simp only [nameToken, dropWhile_append_cons h.isBlank_eq]
  rcases cs.dropWhile isBlank with _ | ⟨e, _ | ⟨f, es⟩⟩
  · simp [hparen, hcolon]
  · by_cases he : e = ':'
    · simp [he, hcolon]
    · by_cases he' : e = '('
      · simp [he']
      · simp [he, he']
  · simp only [List.cons_append]
    congr 1
    split <;> simp_all

/-- A cut behind a text changes nothing of the token at its start. -/
theorem tokenAt_append (h : Cuts c) (htoken : tokenAt afterOperand cs = .ok (text, token)) :
    tokenAt afterOperand (cs ++ c :: rest) = .ok (text, token) := by
  have hne : cs ≠ [] := by
    rintro rfl
    cases htoken
  exact XPath.tokenAt_append htoken (h.startsNumber_append hne) (h.symbolAt?_append hne)
    (fun _ => h.numberText_append) (fun _ _ _ _ => h.nameText_append)
    fun name _ => h.nameToken_append name

end Cuts

/-! ## Texts in front of a cut -/

/-- The first token of a text that starts with no blank. -/
theorem exists_tokenAt_of_scanFrom {offset : Nat} {lexemes : List Lexeme} (hc : isBlank c = false)
    (h : scanFrom offset afterOperand (c :: rest) = .ok lexemes) :
    ∃ text token others, tokenAt afterOperand (c :: rest) = .ok (text, token) ∧
      lexemes.map Lexeme.token = token :: others := by
  rw [scanFrom, if_neg (by simp [hc])] at h
  split at h
  · cases h
  · rename_i hread
    split at h
    · cases h
    · cases h
      exact ⟨_, _, _, tokenAt_of_readToken hread, rfl⟩

theorem Cuts.scans_append (hc : Cuts c) {offset : Nat} {lexemes : List Lexeme}
    (h : scanFrom offset afterOperand cs = .ok lexemes)
    (hrest : ∀ afterOperand, Scans afterOperand (c :: rest) more) :
    Scans afterOperand (cs ++ c :: rest) (lexemes.map Lexeme.token ++ more) :=
  XPath.scans_append hrest (fun _ _ _ _ htoken => hc.tokenAt_append htoken) h

/-! ## Paths behind an expression -/

/-- The text is read as a relative path of these steps. -/
def ReadsSteps (source : String) (steps : List Step) : Prop :=
  ∃ lexemes, scan source = .ok lexemes ∧ Derives .steps (lexemes.map Lexeme.token) steps

theorem readsSteps_of_spells {source : String} {steps : List Step}
    (h : Phrase.steps.Spells source.toList steps) : ReadsSteps source steps := by
  obtain ⟨tokens, hderives, hscans⟩ := h
  obtain ⟨lexemes, hlexemes, rfl⟩ := scan_eq_ok_of_scans (scans_of_fence hscans)
  exact ⟨lexemes, hlexemes, hderives⟩

theorem symbolAt?_slash (h : cs.head? ≠ some '/') :
    symbolAt? ('/' :: cs) = some (['/'], .slash) := by
  cases cs with
  | nil => rfl
  | cons d cs =>
    have hd : d ≠ '/' := fun heq => h (by rw [heq]; rfl)
    simp [symbolAt?, symbols, Ne.symm hd]

theorem startsNumber_slash (cs : List Char) : startsNumber ('/' :: cs) = false := by
  cases cs <;> rfl

namespace ReadsSteps

variable {e p : String} {x : Expr} {steps : List Step}

theorem parse (h : ReadsSteps p steps) : XPath.parse p = .ok (.path false steps) := by
  obtain ⟨lexemes, hscan, hderives⟩ := h
  exact (parse_eq_ok_of_scan hscan).2 (Derives.relative hderives).expr_of_path.parseTokens

/-- A relative path starts with no slash. -/
theorem head?_ne_slash (h : ReadsSteps p steps) : p.toList.head? ≠ some '/' := by
  obtain ⟨lexemes, hscan, hderives⟩ := h
  intro hhead
  obtain ⟨cs, hcs⟩ := List.head?_eq_some_iff.1 hhead
  rw [scan, hcs] at hscan
  obtain ⟨text, token, others, htoken, htokens⟩ :=
    exists_tokenAt_of_scanFrom (by decide) hscan
  rw [htokens] at hderives
  obtain ⟨_, _, heq, hopens⟩ := hderives.opens
  cases heq
  have hslash : token = .slash ∨ token = .doubleSlash := by
    by_cases hsecond : cs.head? = some '/'
    · obtain ⟨cs, rfl⟩ := List.head?_eq_some_iff.1 hsecond
      cases htoken
      exact .inr rfl
    · unfold tokenAt at htoken
      rw [startsNumber_slash, symbolAt?_slash hsecond] at htoken
      cases htoken
      exact .inl rfl
  rcases hslash with rfl | rfl <;> cases hopens

theorem scans_slash (h : ReadsSteps p steps) : ∃ tokens, Derives .steps tokens steps ∧
    ∀ afterOperand, Scans afterOperand ('/' :: p.toList) (.slash :: tokens) := by
  have hhead := h.head?_ne_slash
  obtain ⟨lexemes, hscan, hderives⟩ := h
  refine ⟨_, hderives, fun afterOperand => ?_⟩
  exact Scans.symbol ['/'] (symbolAt?_slash hhead) (startsNumber_slash _) (scans_of_scanFrom hscan)

/-- An expression in parentheses with a relative path behind it is read as that path from the
nodes of the expression. -/
theorem parse_behind (h : ReadsSteps p steps) (he : XPath.parse e = .ok x) :
    XPath.parse ("(" ++ e ++ ")/" ++ p) = .ok (.filter x [] steps) := by
  obtain ⟨lexemes, hscan, hderives⟩ := exists_scan_of_parse he
  obtain ⟨tokens, hsteps, hpath⟩ := h.scans_slash
  have hclose : ∀ afterOperand, Scans afterOperand (')' :: '/' :: p.toList)
      (.rightParen :: .slash :: tokens) := fun _ => Scans.symbol [')'] rfl rfl (hpath _)
  have hlist : ("(" ++ e ++ ")/" ++ p).toList = '(' :: (e.toList ++ ')' :: '/' :: p.toList) := by
    simp [String.toList_append]
  have hopen : Scans false ("(" ++ e ++ ")/" ++ p).toList
      (.leftParen :: (lexemes.map Lexeme.token ++ .rightParen :: .slash :: tokens)) := by
    rw [hlist]
    exact Scans.symbol ['('] rfl rfl (cuts_rightParen.scans_append hscan hclose)
  have hfilter := Derives.filterPath (.group hderives) .noPredicates hsteps
  refine parse_of_scans hopen ?_
  simpa using (Derives.filter hfilter).expr_of_path

end ReadsSteps

/-! ## Numbered steps -/

/-- The text is read as a node test. -/
def ReadsTest (source : String) (test : NodeTest) : Prop :=
  ∃ lexemes, scan source = .ok lexemes ∧ TestTokens (lexemes.map Lexeme.token) test

theorem readsTest_of_spells {source : String} {test : NodeTest}
    (h : SpellsTest source.toList test) : ReadsTest source test := by
  obtain ⟨tokens, htest, hscans⟩ := h
  obtain ⟨lexemes, hlexemes, rfl⟩ := scan_eq_ok_of_scans (scans_of_fence hscans)
  exact ⟨lexemes, hlexemes, htest⟩

theorem Scans.axis (axis : Axis) (h : Scans false rest more) :
    Scans false (axis.name.toList ++ ':' :: ':' :: rest)
      (.axis axis.name :: .colonColon :: more) := by
  have hcolons : Scans false (':' :: ':' :: rest) (.colonColon :: more) :=
    Scans.symbol [':', ':'] rfl rfl h
  have hname : ∃ c name, axis.name.toList = c :: name ∧ isNameStart c = true ∧
      name.all isNameChar = true := by
    cases axis <;> exact ⟨_, _, rfl, by decide, by decide⟩
  obtain ⟨c, name, hlist, hc, hname⟩ := hname
  have htoken : nameToken false (String.ofList (c :: name)) (':' :: ':' :: rest) =
      .axis axis.name := by
    rw [← hlist, String.ofList_toList]
    rfl
  rw [hlist]
  refine Scans.word hc (List.all_eq_true.1 hname) ?_ ?_ htoken hcolons
  · rintro d ⟨⟩
    decide
  · rintro d behind ⟨⟩
    decide

/-- An axis, a node test and a number in brackets are read as a step with that number as its
predicate. -/
theorem ReadsTest.parse_numbered {source : String} {test : NodeTest} (h : ReadsTest source test)
    (axis : Axis) (k : Nat) :
    parse (axis.name ++ "::" ++ source ++ "[" ++ toString k ++ "]") =
      .ok (.path false [.mk axis test [.number (Decimal.ofDigits (Nat.toDigits 10 k) [])]]) := by
  obtain ⟨lexemes, hscan, htest⟩ := h
  have hdigits : ∀ d ∈ Nat.toDigits 10 k, d.isDigit = true := fun d hd =>
    Nat.isDigit_of_mem_toDigits (by decide) (by decide) hd
  obtain ⟨number, hnumber, hscans⟩ :=
    (Phrase.Spells.number Nat.toDigits_ne_nil hdigits).expr_of_primary
  have hclose : Scans true [']'] [.rightBracket] := Scans.symbol [']'] rfl rfl .nil
  have hopen : ∀ afterOperand, Scans afterOperand ('[' :: (Nat.toDigits 10 k ++ [']']))
      (.leftBracket :: (number ++ [.rightBracket])) := fun _ =>
    Scans.symbol ['['] rfl rfl (hscans _ _ (fence_rightBracket []) hclose)
  have hlist : (axis.name ++ "::" ++ source ++ "[" ++ toString k ++ "]").toList =
      axis.name.toList ++ ':' :: ':' ::
        (source.toList ++ '[' :: (Nat.toDigits 10 k ++ [']'])) := by
    simp [String.toList_append]
  have hstep := Scans.axis axis (cuts_leftBracket.scans_append hscan hopen)
  rw [← hlist] at hstep
  have hderives := Derives.step (.named axis) htest (.predicate hnumber .noPredicates)
  refine parse_of_scans hstep ?_
  simpa using (Derives.relative (.lastStep hderives)).expr_of_path

end MarkupQuery.XPath
