import MarkupQuery.Proofs.Html.Markup

/-!
# References read back

Five characters are written as references.  Whoever puts the characters for these references and
leaves all other characters as they are reads what was written: every text and every attribute value
comes back, and neither an angle bracket nor a quote that would end it stands in between.
-/

namespace MarkupQuery.Html

/-- The references that are written, with the characters that they stand for. -/
def writtenReferences : List (List Char × Char) :=
  [("&amp;".toList, '&'), ("&lt;".toList, '<'), ("&gt;".toList, '>'), ("&quot;".toList, '"'),
   ("&nbsp;".toList, '\u00a0')]

/-- A decoder puts their characters for the references that are written.  Other characters than the
ampersand stand for themselves; what becomes of other ampersands is left open. -/
structure Decodes (decode : List Char → List Char) : Prop where
  nil : decode [] = []
  reference : ∀ r ∈ writtenReferences, ∀ rest, decode (r.1 ++ rest) = r.2 :: decode rest
  char : ∀ c rest, c ≠ '&' → decode (c :: rest) = c :: decode rest

/-- The decoder that leaves other ampersands as they are. -/
def decodeWritten : List Char → List Char
  | '&' :: 'a' :: 'm' :: 'p' :: ';' :: rest => '&' :: decodeWritten rest
  | '&' :: 'l' :: 't' :: ';' :: rest => '<' :: decodeWritten rest
  | '&' :: 'g' :: 't' :: ';' :: rest => '>' :: decodeWritten rest
  | '&' :: 'q' :: 'u' :: 'o' :: 't' :: ';' :: rest => '"' :: decodeWritten rest
  | '&' :: 'n' :: 'b' :: 's' :: 'p' :: ';' :: rest => '\u00a0' :: decodeWritten rest
  | c :: rest => c :: decodeWritten rest
  | [] => []

theorem decodes_decodeWritten : Decodes decodeWritten where
  nil := rfl
  reference := by
    intro r hr rest
    simp only [writtenReferences, List.mem_cons, List.not_mem_nil, or_false] at hr
    rcases hr with rfl | rfl | rfl | rfl | rfl <;> rfl
  char := by
    intro c rest hc
    rw [decodeWritten] <;> simp_all

/-! ## Characters -/

theorem escapeTextChar_cases (c : Char) :
    (c ∉ references ∧ escapeTextChar c = [c]) ∨ (escapeTextChar c, c) ∈ writtenReferences := by
  by_cases h : c ∈ references
  · right
    simp only [references, List.mem_cons, List.not_mem_nil, or_false] at h
    rcases h with rfl | rfl | rfl | rfl <;> decide
  · exact .inl ⟨h, escapeTextChar_eq_iff.2 h⟩

theorem escapeAttributeChar_cases (c : Char) :
    (c ∉ references ∧ c ≠ '"' ∧ escapeAttributeChar c = [c]) ∨
      (escapeAttributeChar c, c) ∈ writtenReferences := by
  by_cases hquote : c = '"'
  · right
    subst hquote
    decide
  · have hescape : escapeAttributeChar c = escapeTextChar c := by simp [escapeAttributeChar, hquote]
    rw [hescape]
    exact (escapeTextChar_cases c).imp_left fun ⟨h, heq⟩ => ⟨h, hquote, heq⟩

/-- No angle bracket and no quote occurs in a reference. -/
theorem not_mem_writtenReferences {r : List Char × Char} (hr : r ∈ writtenReferences) :
    '<' ∉ r.1 ∧ '"' ∉ r.1 := by
  revert r
  decide

theorem lt_not_mem_escapeTextChar (c : Char) : '<' ∉ escapeTextChar c := by
  rcases escapeTextChar_cases c with ⟨h, heq⟩ | h
  · rw [heq, List.mem_singleton]
    rintro rfl
    exact h (by decide)
  · exact (not_mem_writtenReferences h).1

theorem quote_not_mem_escapeAttributeChar (c : Char) : '"' ∉ escapeAttributeChar c := by
  rcases escapeAttributeChar_cases c with ⟨-, hquote, heq⟩ | h
  · rw [heq, List.mem_singleton]
    exact hquote.symm
  · exact (not_mem_writtenReferences h).2

/-! ## Texts and attribute values -/

theorem toList_escapeAttribute (s : String) :
    (escapeAttribute s).toList = s.toList.flatMap escapeAttributeChar :=
  String.toList_ofList

theorem lt_not_mem_escapeText (s : String) : '<' ∉ (escapeText s).toList := by
  rw [toList_escapeText, List.mem_flatMap]
  rintro ⟨c, -, hmem⟩
  exact lt_not_mem_escapeTextChar c hmem

/-- What stands between the quotes of an attribute does not end before them. -/
theorem quote_not_mem_escapeAttribute (s : String) : '"' ∉ (escapeAttribute s).toList := by
  rw [toList_escapeAttribute, List.mem_flatMap]
  rintro ⟨c, -, hmem⟩
  exact quote_not_mem_escapeAttributeChar c hmem

namespace Decodes

variable {decode : List Char → List Char}

theorem flatMap (h : Decodes decode) {escape : Char → List Char}
    (hescape : ∀ c, c ≠ '&' ∧ escape c = [c] ∨ (escape c, c) ∈ writtenReferences)
    (cs : List Char) : decode (cs.flatMap escape) = cs := by
  induction cs with
  | nil => exact h.nil
  | cons c cs ih =>
    rw [List.flatMap_cons]
    rcases hescape c with ⟨hc, heq⟩ | hwritten
    · rw [heq, List.singleton_append, h.char c _ hc, ih]
    · rw [h.reference _ hwritten, ih]

theorem ne_ampersand {c : Char} (hc : c ∉ references) : c ≠ '&' := by
  rintro rfl
  exact hc (by decide)

theorem escapeText (h : Decodes decode) (s : String) :
    decode (escapeText s).toList = s.toList := by
  rw [toList_escapeText]
  refine h.flatMap (fun c => ?_) _
  exact (escapeTextChar_cases c).imp_left fun ⟨hc, heq⟩ => ⟨ne_ampersand hc, heq⟩

theorem escapeAttribute (h : Decodes decode) (s : String) :
    decode (escapeAttribute s).toList = s.toList := by
  rw [toList_escapeAttribute]
  refine h.flatMap (fun c => ?_) _
  exact (escapeAttributeChar_cases c).imp_left fun ⟨hc, _, heq⟩ => ⟨ne_ampersand hc, heq⟩

end Decodes

/-- Different texts are written differently. -/
theorem escapeText_injective : Function.Injective escapeText := by
  intro s s' heq
  have hdecode := congrArg (fun s => decodeWritten s.toList) heq
  simpa only [decodes_decodeWritten.escapeText, String.toList_inj] using hdecode

/-- Different attribute values are written differently. -/
theorem escapeAttribute_injective : Function.Injective escapeAttribute := by
  intro s s' heq
  have hdecode := congrArg (fun s => decodeWritten s.toList) heq
  simpa only [decodes_decodeWritten.escapeAttribute, String.toList_inj] using hdecode

end MarkupQuery.Html
