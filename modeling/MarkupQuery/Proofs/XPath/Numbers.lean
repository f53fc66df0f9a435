import MarkupQuery.Proofs.Decimal.Reading
import MarkupQuery.Proofs.Text.Trimming
import MarkupQuery.Proofs.XPath.Spacing
import MarkupQuery.XPath.Value

/-!
# Numbers in queries and in texts

A number is read in two places: as a token of a query, and as what a text of the document stands
for.  Both know the same texts, digits with at most one point among them and blanks around them, and
both read the same number from each.  Only a minus tells them apart, which is a token of its own in
a query.
-/

namespace MarkupQuery.XPath

open Text (isBlank strip)

variable {afterOperand : Bool} {next : Option Token} {cs text : List Char} {v : Float}
  {source : String}

/-! ## Texts of numbers -/

/-- The texts of numbers are digits, with at most one point in front of them, among them or behind
them. -/
inductive NumberText : List Char → Float → Prop where
  | integer {digits : List Char} (hne : digits ≠ []) (hdigits : ∀ d ∈ digits, d.isDigit = true) :
      NumberText digits (Decimal.ofDigits digits [])
  | decimal {whole places : List Char} (hne : whole ≠ [] ∨ places ≠ [])
      (hwhole : ∀ d ∈ whole, d.isDigit = true) (hplaces : ∀ d ∈ places, d.isDigit = true) :
      NumberText (whole ++ '.' :: places) (Decimal.ofDigits whole places)

theorem NumberText.isBlank_eq (h : NumberText text v) : ∀ c ∈ text, isBlank c = false := by
  cases h with
  | integer hne hdigits => exact fun c hc => isBlank_of_isDigit (hdigits c hc)
  | decimal hne hwhole hplaces =>
    intro c hc
    rcases List.mem_append.1 hc with hc | hc
    · exact isBlank_of_isDigit (hwhole c hc)
    · rcases List.mem_cons.1 hc with rfl | hc
      · decide
      · exact isBlank_of_isDigit (hplaces c hc)

theorem NumberText.strip_eq (h : NumberText text v) : strip isBlank text = text := by
  have hall {cs : List Char} (hcs : ∀ c ∈ cs, isBlank c = false) : cs.dropWhile isBlank = cs :=
    List.dropWhile_eq_self_iff.2 fun hlen => by simp [hcs]
  rw [strip, hall h.isBlank_eq, hall fun c hc => h.isBlank_eq c (List.mem_reverse.1 hc),
    List.reverse_reverse]

/-- The part of a text in front of its first point. -/
def beforePoint (cs : List Char) : List Char := cs.takeWhile (· != '.')

/-- The part of a text behind its first point. -/
def behindPoint (cs : List Char) : List Char := (cs.dropWhile (· != '.')).drop 1

theorem ne_point_of_not_mem (h : '.' ∉ cs) : ∀ c ∈ cs, (c != '.') = true := by
  intro c hc
  rw [bne_iff_ne]
  rintro rfl
  exact h hc

theorem points_of_not_mem (h : '.' ∉ cs) : beforePoint cs = cs ∧ behindPoint cs = [] := by
  have hall := ne_point_of_not_mem h
  rw [beforePoint, behindPoint, List.dropWhile_eq_nil_iff.2 hall]
  exact ⟨List.takeWhile_eq_self_iff.2 hall, rfl⟩

theorem points_append (h : '.' ∉ cs) (rest : List Char) :
    beforePoint (cs ++ '.' :: rest) = cs ∧ behindPoint (cs ++ '.' :: rest) = rest := by
  have hall := ne_point_of_not_mem h
  rw [beforePoint, behindPoint, List.takeWhile_append_of_pos hall,
    List.dropWhile_append_of_pos hall]
  simp

theorem point_not_mem (h : ∀ d ∈ cs, d.isDigit = true) : '.' ∉ cs :=
  fun hmem => absurd (h '.' hmem) (by decide)

/-- A text of a number has digits alone in front of its first point and behind it. -/
theorem numberText_iff : NumberText cs v ↔
    ((∀ d ∈ beforePoint cs, d.isDigit = true) ∧ (∀ d ∈ behindPoint cs, d.isDigit = true) ∧
      (beforePoint cs ≠ [] ∨ behindPoint cs ≠ [])) ∧
    v = Decimal.ofDigits (beforePoint cs) (behindPoint cs) := by
  constructor
  · intro h
    cases h with
    | integer hne hdigits =>
      obtain ⟨hbefore, hbehind⟩ := points_of_not_mem (point_not_mem hdigits)
      rw [hbefore, hbehind]
      exact ⟨⟨hdigits, by simp, .inl hne⟩, rfl⟩
    | decimal hne hwhole hplaces =>
      obtain ⟨hbefore, hbehind⟩ := points_append (point_not_mem hwhole) _
      rw [hbefore, hbehind]
      exact ⟨⟨hwhole, hplaces, hne⟩, rfl⟩
  · rintro ⟨⟨hwhole, hplaces, hne⟩, rfl⟩
    by_cases hpoint : '.' ∈ cs
    · obtain ⟨whole, places, rfl, hnone⟩ := List.eq_append_cons_of_mem hpoint
      obtain ⟨hbefore, hbehind⟩ := points_append hnone places
      rw [hbefore] at hwhole hne ⊢
      rw [hbehind] at hplaces hne ⊢
      exact .decimal hne hwhole hplaces
    · obtain ⟨hbefore, hbehind⟩ := points_of_not_mem hpoint
      rw [hbefore] at hwhole
      rw [hbefore, hbehind] at hne ⊢
      exact .integer (by simpa using hne) hwhole

/-! ## Texts of the document -/

/-- Without a minus, what stands between the blanks is cut at its first point. -/
theorem numberOfText_eq (hcs : strip isBlank source.toList = cs) (hminus : cs.head? ≠ some '-') :
    numberOfText source =
      if (beforePoint cs).all Char.isDigit && (behindPoint cs).all Char.isDigit &&
          !((beforePoint cs).isEmpty && (behindPoint cs).isEmpty) then
        Decimal.ofDigits (beforePoint cs) (behindPoint cs)
      else Decimal.notANumber := by
  simp only [numberOfText, hcs]
  split
  · exact absurd rfl hminus
  · rfl

/-- A text without a minus stands for a number just when what is left without the blanks around it
is a text of that number. -/
theorem numberOfText_eq_iff (hcs : strip isBlank source.toList = cs)
    (hminus : cs.head? ≠ some '-') :
    numberOfText source = v ∧ v.isNaN = false ↔ NumberText cs v := by
  rw [numberOfText_eq hcs hminus, numberText_iff]
  split
  · rename_i hdigits
    simp only [Bool.and_eq_true, List.all_eq_true, Bool.not_eq_true', Bool.and_eq_false_iff,
      List.isEmpty_eq_false_iff, and_assoc] at hdigits
    rw [and_iff_right hdigits, eq_comm]
    refine and_iff_left_of_imp ?_
    rintro rfl
    exact Decimal.isNaN_ofDigits _ _
  · rename_i hdigits
    simp only [Bool.and_eq_true, List.all_eq_true, Bool.not_eq_true', Bool.and_eq_false_iff,
      List.isEmpty_eq_false_iff, and_assoc] at hdigits
    refine iff_of_false ?_ fun hnumber => hdigits hnumber.1
    rintro ⟨rfl, hnumber⟩
    rw [Decimal.isNaN_notANumber] at hnumber
    cases hnumber

/-! ## Tokens of a query -/

theorem tokenText_number_iff :
    TokenText afterOperand next text (.number v) ↔ NumberText text v := by
  constructor
  · generalize htoken : Token.number v = token
    intro h
    cases h with
    | integer hne hdigits =>
      cases htoken
      exact .integer hne hdigits
    | decimal hne hwhole hplaces =>
      cases htoken
      exact .decimal hne hwhole hplaces
    | symbol hsymbol =>
      subst htoken
      simp [symbols] at hsymbol
    | star => cases afterOperand <;> cases htoken
    | variableRef | literal => cases htoken
    | word hname =>
      have hword := (wordKind_wordToken afterOperand (String.ofList text) next).isWord
      rw [← htoken] at hword
      cases hword
  · intro h
    cases h with
    | integer hne hdigits => exact .integer hne hdigits
    | decimal hne hwhole hplaces => exact .decimal hne hwhole hplaces

/-- The one token of a query is this number. -/
def IsNumber (source : String) (v : Float) : Prop :=
  ∃ lexemes, scan source = .ok lexemes ∧ lexemes.map Lexeme.token = [.number v]

/-- A query is a number just when it is a text of that number with blanks around it. -/
theorem isNumber_iff : IsNumber source v ↔ NumberText (strip isBlank source.toList) v := by
  constructor
  · rintro ⟨lexemes, hscan, htokens⟩
    obtain ⟨x, rfl, hx⟩ := List.map_eq_singleton_iff.1 htokens
    have hlaid := laidOut_of_scanFrom hscan
    generalize source.toList = cs at hlaid
    cases (tokenTexts_of_scanFrom hscan).2 with
    | cons hfirst =>
      rw [hx] at hfirst
      have htext := tokenText_number_iff.1 hfirst
      cases hlaid with
      | token hfront _ _ hothers =>
        cases hothers with
        | blanks hback =>
          rw [Text.strip_append_left hfront, Text.strip_append_right hback,
            htext.strip_eq]
          exact htext
  · intro h
    obtain ⟨front, back, hcs, hfront, hback⟩ := Text.exists_eq_append_strip isBlank source.toList
    have hapart : Apart back := fun c hc => hback c (List.mem_of_mem_head? hc)
    have hend : Scans true back [] := by
      rw [← List.append_nil back]
      exact Scans.nil.blanks hback
    have htext : TokenText false none (strip isBlank source.toList) (.number v) :=
      tokenText_number_iff.2 h
    have hread := htext.tokenAt_append hapart hend.announces
    refine scan_eq_ok_of_scans ?_
    rw [hcs, List.append_assoc]
    exact (Scans.token hread (fun c hc => (htext.head c hc).1) hend).blanks hfront

/-! ## The two readers -/

theorem head?_strip (h : (cs.dropWhile isBlank).head? ≠ some '-') :
    (strip isBlank cs).head? ≠ some '-' := by
  obtain ⟨front, back, hcs, hfront, -⟩ := Text.exists_eq_append_strip isBlank cs
  intro hhead
  obtain ⟨rest, hstrip⟩ := List.head?_eq_some_iff.1 hhead
  rw [hcs, hstrip, List.append_assoc, List.dropWhile_append_of_pos hfront] at h
  exact h rfl

/-- Unless a minus comes first, a query is a number just when its text stands for a number, and it
is the number that the text stands for. -/
theorem numbers_agree (h : (source.toList.dropWhile isBlank).head? ≠ some '-') :
    ((∃ v, IsNumber source v) ↔ (numberOfText source).isNaN = false) ∧
      ∀ v, IsNumber source v → v = numberOfText source := by
  have hread (v : Float) : IsNumber source v ↔ numberOfText source = v ∧ v.isNaN = false := by
    rw [isNumber_iff, numberOfText_eq_iff rfl (head?_strip h)]
  refine ⟨⟨?_, fun hnumber => ⟨_, (hread _).2 ⟨rfl, hnumber⟩⟩⟩, fun v hv => ?_⟩
  · rintro ⟨v, hv⟩
    obtain ⟨rfl, hnumber⟩ := (hread v).1 hv
    exact hnumber
  · exact ((hread v).1 hv).1.symm

/-- A half, written without a digit in front of the point. -/
theorem numbers_agree_half :
    (" .5\t".toList.dropWhile isBlank).head? ≠ some '-' ∧ IsNumber " .5\t" 0.5 ∧
      numberOfText " .5\t" = 0.5 := by
  have hminus : (" .5\t".toList.dropWhile isBlank).head? ≠ some '-' := by decide +kernel
  have hvalue : numberOfText " .5\t" = 0.5 := by rfl
  obtain ⟨hiff, hsame⟩ := numbers_agree hminus
  obtain ⟨v, hv⟩ := hiff.2 (hvalue ▸ rfl)
  exact ⟨hminus, hvalue ▸ hsame v hv ▸ hv, hvalue⟩

end MarkupQuery.XPath
