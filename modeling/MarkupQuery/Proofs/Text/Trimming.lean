import Mathlib.Data.List.TakeWhile
import MarkupQuery.Text.Blank

/-!
# Trimming

A text without what is trimmed from its two ends.  What stands between is told by the text alone:
more of what is trimmed, put in front or behind, makes no difference.
-/

namespace MarkupQuery.Text

variable {α : Type} {p : α → Bool} {l front back : List α}

theorem strip_append_left (h : ∀ a ∈ front, p a = true) : strip p (front ++ l) = strip p l := by
  unfold strip
  rw [List.dropWhile_append_of_pos h]

theorem strip_eq_nil (h : ∀ a ∈ l, p a = true) : strip p l = [] := by
  unfold strip
  rw [List.dropWhile_eq_nil_iff.2 h]
  rfl

theorem strip_append_right (h : ∀ a ∈ back, p a = true) : strip p (l ++ back) = strip p l := by
  by_cases hl : ∀ a ∈ l, p a = true
  · rw [strip_append_left hl, strip_eq_nil h, strip_eq_nil hl]
  · have hdrop : (l.dropWhile p).isEmpty = false := by
      rw [Bool.eq_false_iff, ne_eq, List.isEmpty_iff, List.dropWhile_eq_nil_iff]
      exact hl
    have hback : ∀ a ∈ back.reverse, p a = true := fun a ha => h a (List.mem_reverse.1 ha)
    unfold strip
    rw [List.dropWhile_append, hdrop, if_neg Bool.false_ne_true, List.reverse_append,
      List.dropWhile_append_of_pos hback]

/-- Parts that are stripped off altogether count for nothing on either side of a part. -/
theorem strip_flatMap {β : Type} {f : β → List α} {before after : List β}
    (hbefore : ∀ b ∈ before, ∀ a ∈ f b, p a = true) (part : β)
    (hafter : ∀ b ∈ after, ∀ a ∈ f b, p a = true) :
    strip p ((before ++ part :: after).flatMap f) = strip p (f part) := by
  have hfront : ∀ a ∈ before.flatMap f, p a = true := fun a ha =>
    let ⟨b, hb, ha⟩ := List.mem_flatMap.1 ha
    hbefore b hb a ha
  have hback : ∀ a ∈ after.flatMap f, p a = true := fun a ha =>
    let ⟨b, hb, ha⟩ := List.mem_flatMap.1 ha
    hafter b hb a ha
  rw [List.flatMap_append, List.flatMap_cons, strip_append_left hfront, strip_append_right hback]

/-- What is stripped off stands at the two ends. -/
theorem exists_eq_append_strip (p : α → Bool) (l : List α) : ∃ front back,
    l = front ++ strip p l ++ back ∧ (∀ a ∈ front, p a = true) ∧ ∀ a ∈ back, p a = true := by
  have hfront := List.takeWhile_append_dropWhile (p := p) (l := l)
  have hback := List.takeWhile_append_dropWhile (p := p) (l := (l.dropWhile p).reverse)
  refine ⟨l.takeWhile p, ((l.dropWhile p).reverse.takeWhile p).reverse, ?_, ?_, ?_⟩
  · have hrest := congrArg List.reverse hback
    rw [List.reverse_append, List.reverse_reverse] at hrest
    unfold strip
    rw [List.append_assoc, hrest, hfront]
  · exact fun a ha => List.mem_takeWhile_imp ha
  · exact fun a ha => List.mem_takeWhile_imp (List.mem_reverse.1 ha)

theorem strip_strip (p : α → Bool) (l : List α) : strip p (strip p l) = strip p l := by
  obtain ⟨front, back, heq, hfront, hback⟩ := exists_eq_append_strip p l
  calc strip p (strip p l)
      = strip p (front ++ strip p l) := (strip_append_left hfront).symm
    _ = strip p (front ++ strip p l ++ back) := (strip_append_right hback).symm
    _ = strip p l := by rw [← heq]

theorem toList_trim (s : String) : (trim s).toList = strip isWhiteSpace s.toList :=
  String.toList_ofList

theorem trim_trim (s : String) : trim (trim s) = trim s := by
  rw [← String.toList_inj, toList_trim, toList_trim, strip_strip]

/-- The texts that nothing is left of. -/
theorem forall_isWhiteSpace_of_isEmpty_trim {s : String} (h : (trim s).isEmpty = true) :
    ∀ c ∈ s.toList, isWhiteSpace c = true := by
  obtain ⟨front, back, heq, hfront, hback⟩ := exists_eq_append_strip isWhiteSpace s.toList
  rw [← toList_trim, String.isEmpty_iff.1 h, String.toList_empty, List.append_nil] at heq
  intro c hc
  rw [heq] at hc
  rcases List.mem_append.1 hc with hc | hc
  · exact hfront c hc
  · exact hback c hc

end MarkupQuery.Text
