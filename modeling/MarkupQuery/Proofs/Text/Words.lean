import Mathlib.Data.List.Basic
import Mathlib.Data.List.Infix
import MarkupQuery.Text.Blank

/-!
# Words between spaces

A text with its blanks evened out and a space at both ends occurs in another such text just when the
words of the one stand side by side among the words of the other.
-/

namespace MarkupQuery.Text

theorem isBlank_of_mem_words {cs w : List Char} (h : w ∈ words cs) :
    ∀ c ∈ w, isBlank c = false := by
  induction cs generalizing w with
  | nil => simp [words] at h
  | cons c cs ih =>
    cases cs with
    | nil => by_cases hc : isBlank c <;> simp_all [words]
    | cons d rest =>
      rw [words] at h
      split at h
      · exact ih h
      · rename_i hc
        split at h
        · rcases List.mem_cons.1 h with rfl | h
          · simpa using hc
          · exact ih h
        · split at h
          · rw [List.mem_singleton] at h
            simpa [h] using hc
          · rename_i v vs hv
            rcases List.mem_cons.1 h with rfl | h
            · have htail := ih (hv ▸ List.mem_cons_self)
              simpa [hc] using htail
            · exact ih (hv ▸ List.mem_cons_of_mem _ h)

/-- The words are what stands between blanks, without the empty parts. -/
theorem words_eq_filter_splitOnP (cs : List Char) :
    words cs = (cs.splitOnP isBlank).filter (· ≠ []) := by
  induction cs with
  | nil => simp [words, List.splitOnP_nil]
  | cons c cs ih =>
    rw [List.splitOnP_cons_eq_if_modifyHead]
    split
    · rename_i hc
      rw [words_cons_of_isBlank hc, ih]
      simp
    · rename_i hc
      rw [Bool.not_eq_true] at hc
      cases cs with
      | nil => simp [words, hc, List.splitOnP_nil]
      | cons d rest =>
        -- whether the word goes on depends on the next character
        obtain ⟨first, others, hsplit⟩ := List.exists_cons_of_ne_nil
          (List.splitOnP_ne_nil isBlank rest)
        rw [words, ih, List.splitOnP_cons_eq_if_modifyHead]
        cases hd : isBlank d <;> simp [hc, hsplit]

theorem space_not_mem_of_mem_words {cs w : List Char} (h : w ∈ words cs) : ' ' ∉ w := by
  intro hmem
  exact absurd (isBlank_of_mem_words h ' ' hmem) (by decide)

/-- Words with a space behind each. -/
def spaced (ws : List (List Char)) : List Char := ws.flatMap (· ++ [' '])

theorem spaced_cons (w : List Char) (ws : List (List Char)) :
    spaced (w :: ws) = w ++ ' ' :: spaced ws := by
  simp [spaced]

theorem spaced_append (v w : List (List Char)) : spaced (v ++ w) = spaced v ++ spaced w := by
  simp [spaced]

variable {v w : List (List Char)}

/-- Where a space stands behind a word: right there, or further on. -/
theorem eq_or_of_append_space {a b l m : List Char} (ha : ' ' ∉ a)
    (h : a ++ ' ' :: l = b ++ ' ' :: m) :
    (a = b ∧ l = m) ∨ ∃ c, b = a ++ ' ' :: c ∧ l = c ++ ' ' :: m := by
  rcases List.append_eq_append_iff.1 h with ⟨c, rfl, hc⟩ | ⟨c, rfl, hc⟩
  · rcases List.cons_eq_append_iff.1 hc with ⟨rfl, hm⟩ | ⟨c, rfl, hm⟩
    · exact .inl ⟨by simp, (List.cons.inj hm).2.symm⟩
    · exact .inr ⟨c, rfl, hm⟩
  · rcases List.cons_eq_append_iff.1 hc with ⟨rfl, hm⟩ | ⟨c, rfl, hm⟩
    · exact .inl ⟨by simp, (List.cons.inj hm).2⟩
    · simp at ha

theorem prefix_of_spaced (hv : ∀ u ∈ v, ' ' ∉ u) (hw : ∀ u ∈ w, ' ' ∉ u)
    (h : spaced v <+: spaced w) : v <+: w := by
  induction v generalizing w with
  | nil => exact List.nil_prefix
  | cons a v ih =>
    obtain ⟨rest, hrest⟩ := h
    cases w with
    | nil => simp [spaced] at hrest
    | cons b w =>
      rw [spaced_cons, spaced_cons, List.append_assoc, List.cons_append] at hrest
      rcases eq_or_of_append_space (hv a (by simp)) hrest with ⟨rfl, htail⟩ | ⟨c, rfl, -⟩
      · rw [List.cons_prefix_cons]
        exact ⟨rfl, ih (fun u hu => hv u (by simp [hu])) (fun u hu => hw u (by simp [hu]))
          ⟨rest, htail⟩⟩
      · have hspace := hw (a ++ ' ' :: c) (by simp)
        simp at hspace

theorem infix_of_spaced (hv : ∀ u ∈ v, ' ' ∉ u) (hw : ∀ u ∈ w, ' ' ∉ u)
    (h : ' ' :: spaced v <:+: ' ' :: spaced w) : v <:+: w := by
  induction w with
  | nil =>
    have hlength := h.length_le
    cases v with
    | nil => exact List.nil_infix
    | cons a v => simp [spaced] at hlength
  | cons b w ih =>
    have hw' : ∀ u ∈ w, ' ' ∉ u := fun u hu => hw u (by simp [hu])
    rcases List.infix_cons_iff.1 h with hstart | ⟨front, back, heq⟩
    · exact (prefix_of_spaced hv hw (List.cons_prefix_cons.1 hstart).2).isInfix
    · -- the space in front cannot stand inside the first word
      rw [spaced_cons, List.append_assoc, List.cons_append] at heq
      rcases eq_or_of_append_space (hw b (by simp)) heq.symm with ⟨-, htail⟩ | ⟨c, -, htail⟩
      · have hstart := prefix_of_spaced hv hw' ⟨back, htail.symm⟩
        exact hstart.isInfix.trans (List.suffix_cons b w).isInfix
      · have hwithin := ih hw' ⟨' ' :: c, back, by simp [htail]⟩
        exact hwithin.trans (List.suffix_cons b w).isInfix

theorem exists_space_cons_eq (ws : List (List Char)) : ∃ cs, ' ' :: spaced ws = cs ++ [' '] := by
  rcases List.eq_nil_or_concat ws with rfl | ⟨ws, w, rfl⟩
  · exact ⟨[], rfl⟩
  · exact ⟨' ' :: spaced ws ++ w, by simp [spaced]⟩

theorem spaced_infix_iff (hv : ∀ u ∈ v, ' ' ∉ u) (hw : ∀ u ∈ w, ' ' ∉ u) :
    ' ' :: spaced v <:+: ' ' :: spaced w ↔ v <:+: w := by
  refine ⟨infix_of_spaced hv hw, ?_⟩
  rintro ⟨before, after, rfl⟩
  obtain ⟨cs, hcs⟩ := exists_space_cons_eq before
  refine ⟨cs, spaced after, ?_⟩
  calc cs ++ ' ' :: spaced v ++ spaced after
      = (cs ++ [' ']) ++ spaced v ++ spaced after := by simp
    _ = ' ' :: spaced (before ++ v ++ after) := by
      rw [← hcs, spaced_append, spaced_append, List.cons_append, List.cons_append]

/-! ## Texts -/

/-- The words of a text, with an empty one where there are none. -/
def wordsOrEmpty (s : String) : List (List Char) :=
  if words s.toList = [] then [[]] else words s.toList

theorem space_not_mem_of_mem_wordsOrEmpty (s : String) : ∀ w ∈ wordsOrEmpty s, ' ' ∉ w := by
  unfold wordsOrEmpty
  split
  · simp
  · exact fun w hw => space_not_mem_of_mem_words hw

theorem intercalate_append_space {ws : List (List Char)} (hne : ws ≠ []) :
    [' '].intercalate ws ++ [' '] = spaced ws := by
  induction ws with
  | nil => contradiction
  | cons w ws ih =>
    cases ws with
    | nil => simp [spaced]
    | cons u us =>
      have htail := ih (by simp)
      rw [List.intercalate_cons_cons, spaced_cons, ← htail]
      simp

theorem toList_padded (s : String) :
    (" " ++ normalizeSpace s ++ " ").toList = ' ' :: spaced (wordsOrEmpty s) := by
  have hlist : (normalizeSpace s).toList = [' '].intercalate (words s.toList) := by
    simp [normalizeSpace, Function.comp_def]
  unfold wordsOrEmpty
  split
  · rename_i hnone
    simp [hlist, hnone, spaced]
  · rename_i hsome
    simp [hlist, ← intercalate_append_space hsome]

/-- Where the words of a text stand side by side in another.  A text without words is found in those
without words alone. -/
theorem padded_infix_iff (s s' : String) :
    (" " ++ normalizeSpace s ++ " ").toList <:+: (" " ++ normalizeSpace s' ++ " ").toList ↔
      (words s.toList ≠ [] ∧ words s.toList <:+: words s'.toList) ∨
        (words s.toList = [] ∧ words s'.toList = []) := by
  rw [toList_padded, toList_padded, spaced_infix_iff (space_not_mem_of_mem_wordsOrEmpty s)
    (space_not_mem_of_mem_wordsOrEmpty s')]
  have hempty (u : String) : [] ∉ words u.toList := fun hmem => ne_nil_of_mem_words hmem rfl
  unfold wordsOrEmpty
  by_cases hs : words s.toList = [] <;> by_cases hs' : words s'.toList = []
  · simp [hs, hs']
  · have hnot : ¬ [[]] <:+: words s'.toList := fun h => hempty s' (h.subset (by simp))
    simp [hs, hs', hnot]
  · have hnot : ¬ words s.toList <:+: [[]] := by
      intro h
      obtain ⟨w, hw⟩ := List.exists_mem_of_ne_nil _ hs
      have hnil : w = [] := by simpa using h.subset hw
      exact hempty s (hnil ▸ hw)
    have hnot' : ¬ words s.toList <:+: [] := fun h => hs (List.infix_nil.1 h)
    simp [hs, hs', hnot, hnot']
  · simp [hs, hs']

end MarkupQuery.Text
