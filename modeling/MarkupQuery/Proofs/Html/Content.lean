import MarkupQuery.Proofs.Html.References

/-!
# Content read back

An element with one text in it writes the text as it stands or with its references, as its tag says,
and a reader of the tag takes what it finds as it stands or decodes it.  The two agree for all tags
but one: `noscript` is written with references and read without.
-/

namespace MarkupQuery.Html

open MarkupQuery.Tree

/-- The elements whose content a reader takes as it stands. -/
def verbatimElements : List String :=
  ["script", "style", "xmp", "iframe", "noembed", "noframes", "noscript"]

/-- What is relied on of a reader of markup.  `read tag` is the text that it takes for the content
of an element when it is given what stands between the tags, none when markup starts there, and
`decode` is what it takes for an attribute value.  Nothing is asked about void elements, which have
no content, and about a plain text, which has no end. -/
structure ReadsContent (read : String → List Char → Option (List Char))
    (decode : List Char → List Char) : Prop where
  decodes : Decodes decode
  verbatim {tag : String} {cs : List Char} (htag : tag ∈ verbatimElements)
    (hend : ¬ ['<', '/'] <:+: cs) : read tag cs = some cs
  decoded {tag : String} {cs : List Char} (htag : tag ∉ verbatimElements)
    (hvoid : tag ∉ voidElements) (hplain : tag ≠ "plaintext") (hmarkup : '<' ∉ cs) :
    read tag cs = some (decode cs)
  markup {tag : String} {cs : List Char} (htag : tag ∉ verbatimElements)
    (hvoid : tag ∉ voidElements) (hplain : tag ≠ "plaintext") (hmarkup : '<' ∈ cs) :
    read tag cs = none

/-- The reader that knows no other references than those that are written. -/
def readWritten (tag : String) (cs : List Char) : Option (List Char) :=
  if tag ∈ verbatimElements then some cs
  else if '<' ∈ cs then none
  else some (decodeWritten cs)

theorem readsContent_readWritten : ReadsContent readWritten decodeWritten where
  decodes := decodes_decodeWritten
  verbatim htag _ := if_pos htag
  decoded htag _ _ hmarkup := by rw [readWritten, if_neg htag, if_neg hmarkup]
  markup htag _ _ hmarkup := by rw [readWritten, if_neg htag, if_pos hmarkup]

/-! ## What is written -/

variable {t : Tree} {kids : NodeId → List NodeId}

/-- How a text is written between the tags of an element. -/
def writtenContent (tag text : String) : String :=
  if tag ∈ rawTextElements then text else escapeText text

theorem outerMarkup_of_text (h : t.Linked kids) {x c : NodeId} {tag text : String}
    (htag : t.tagName? x = some tag) (hvoid : tag ∉ voidElements) (hchildren : t.children x = [c])
    (htext : (t.get? c).map Node.content = some (.text text)) :
    outerMarkup t x =
      startTag tag (t.attributes x) ++ writtenContent tag text ++ endTag tag := by
  have hraw : rawText t x = text := by
    rw [rawText, hchildren]
    simp [text?_eq_some_iff.2 htext]
  have hinner : innerMarkup t x = escapeText text := by
    rw [innerMarkup_eq_join h, hchildren, List.map_singleton, outerMarkup_text h htext]
    simp
  rw [outerMarkup_element h htag hvoid, hraw, hinner, writtenContent]

/-! ## What is read -/

theorem not_infix_of_not_mem {cs : List Char} (h : '<' ∉ cs) : ¬ ['<', '/'] <:+: cs :=
  fun hinside => h (hinside.subset List.mem_cons_self)

/-- What is written as it stands is read as it stands. -/
theorem mem_verbatimElements_of_raw {tag : String} (hraw : tag ∈ rawTextElements)
    (hplain : tag ≠ "plaintext") : tag ∈ verbatimElements ∧ tag ≠ "noscript" := by
  simp only [rawTextElements, verbatimElements, List.mem_cons, List.not_mem_nil, or_false] at hraw ⊢
  rcases hraw with rfl | rfl | rfl | rfl | rfl | rfl | rfl
  all_goals first | contradiction | decide

/-- One element is read as it stands and not written so. -/
theorem eq_noscript_of_verbatim {tag : String} (htag : tag ∈ verbatimElements)
    (hraw : tag ∉ rawTextElements) : tag = "noscript" := by
  simp only [rawTextElements, verbatimElements, List.mem_cons, List.not_mem_nil, or_false,
    not_or] at htag hraw
  tauto

section Reading

variable {read : String → List Char → Option (List Char)} {decode : List Char → List Char}

theorem ReadsContent.read_eq_iff (hreads : ReadsContent read decode) {tag text : String}
    (hvoid : tag ∉ voidElements) (hplain : tag ≠ "plaintext")
    (hend : ¬ ['<', '/'] <:+: text.toList) :
    read tag (writtenContent tag text).toList = some text.toList ↔
      (tag = "noscript" → ∀ c ∈ text.toList, c ∉ references) := by
  have hescaped : '<' ∉ (escapeText text).toList := lt_not_mem_escapeText text
  rw [writtenContent]
  by_cases hraw : tag ∈ rawTextElements
  · obtain ⟨hverbatim, hne⟩ := mem_verbatimElements_of_raw hraw hplain
    rw [if_pos hraw, hreads.verbatim hverbatim hend]
    exact ⟨fun _ heq => absurd heq hne, fun _ => rfl⟩
  · rw [if_neg hraw]
    by_cases hverbatim : tag ∈ verbatimElements
    · have hnoscript := eq_noscript_of_verbatim hverbatim hraw
      rw [hreads.verbatim hverbatim (not_infix_of_not_mem hescaped), Option.some.injEq,
        String.toList_inj, escapeText_eq_iff]
      exact ⟨fun h _ => h, fun h => h hnoscript⟩
    · rw [hreads.decoded hverbatim hvoid hplain hescaped, hreads.decodes.escapeText]
      refine ⟨fun _ heq => absurd ?_ hverbatim, fun _ => rfl⟩
      rw [heq]
      decide

/-- The content of an element with one text in it is read back as this text, unless the element is a
`noscript` and the text has a character that is written as a reference.  The values of attributes
are always read back, and none of them ends before its quotes. -/
theorem content_reads_back (hreads : ReadsContent read decode) (ht : t.Assembled) {x c : NodeId}
    {tag text : String} (htag : t.tagName? x = some tag) (hvoid : tag ∉ voidElements)
    (hplain : tag ≠ "plaintext") (hchildren : t.children x = [c])
    (htext : (t.get? c).map Node.content = some (.text text))
    (hend : ¬ ['<', '/'] <:+: text.toList) :
    (∃ written, outerMarkup t x = "<" ++ tag ++ String.join ((t.attributes x).map fun a =>
          " " ++ a.1 ++ "=\"" ++ escapeAttribute a.2 ++ "\"") ++ ">" ++ written ++ endTag tag ∧
        (read tag written.toList = some text.toList ↔
          (tag = "noscript" → ∀ c ∈ text.toList, c ∉ references))) ∧
      ∀ value : String, '"' ∉ (escapeAttribute value).toList ∧
        decode (escapeAttribute value).toList = value.toList := by
  obtain ⟨kids, hkids⟩ := ht.exists_linked
  refine ⟨⟨writtenContent tag text, outerMarkup_of_text hkids htag hvoid hchildren htext,
    hreads.read_eq_iff hvoid hplain hend⟩, fun value => ?_⟩
  exact ⟨quote_not_mem_escapeAttribute value, hreads.decodes.escapeAttribute value⟩

end Reading

/-- A text with a reference in it comes back from a paragraph. -/
theorem content_reads_back_paragraph :
    (∃ written, outerMarkup (addElement .empty "p" "a<b &lt; c") Tree.empty.size =
        "<" ++ "p" ++ String.join (((addElement .empty "p" "a<b &lt; c").attributes
          Tree.empty.size).map fun a => " " ++ a.1 ++ "=\"" ++ escapeAttribute a.2 ++ "\"") ++
            ">" ++ written ++ endTag "p" ∧
        (readWritten "p" written.toList = some "a<b &lt; c".toList ↔
          ("p" = "noscript" → ∀ c ∈ "a<b &lt; c".toList, c ∉ references))) ∧
      ∀ value : String, '"' ∉ (escapeAttribute value).toList ∧
        decodeWritten (escapeAttribute value).toList = value.toList :=
  content_reads_back readsContent_readWritten (built_addElement _ _ .empty).assembled
    (tagName?_addElement _ _ .empty) (by decide) (by decide) (children_addElement _ _ .empty)
    (content_addElement_text _ _) (by decide +kernel)

/-- A less-than sign in a `noscript` comes back as the reference that was written for it. -/
theorem content_noscript_changed :
    (addElement .empty "noscript" "<").tagName? Tree.empty.size = some "noscript" ∧
      ∃ written, outerMarkup (addElement .empty "noscript" "<") Tree.empty.size =
          startTag "noscript" ((addElement .empty "noscript" "<").attributes Tree.empty.size) ++
            written ++ endTag "noscript" ∧
        readWritten "noscript" written.toList = some "&lt;".toList ∧
        readWritten "noscript" written.toList ≠ some "<".toList := by
  obtain ⟨kids, hkids⟩ := (built_addElement "noscript" "<" .empty).exists_linked
  have htag := tagName?_addElement "noscript" "<" .empty
  have houter := outerMarkup_of_text hkids htag (by decide) (children_addElement _ _ .empty)
    (content_addElement_text _ _)
  have hwritten : (writtenContent "noscript" "<").toList = "&lt;".toList := by
    decide +kernel
  have hread : readWritten "noscript" (writtenContent "noscript" "<").toList =
      some "&lt;".toList := by
    rw [hwritten]
    exact readsContent_readWritten.verbatim (by decide) (by decide +kernel)
  refine ⟨htag, _, houter, hread, ?_⟩
  rw [hread]
  decide

end MarkupQuery.Html
