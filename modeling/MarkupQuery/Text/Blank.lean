/-!
# Blank characters

Path expressions, markup and trimmed text each have a notion of blank character, and the three
differ: a path expression knows four blanks, markup adds the form feed, and trimming removes every
character with the Unicode property `White_Space`.  `words` and `normalizeSpace` follow the first.
-/

namespace MarkupQuery.Text

/-- The four characters that separate the tokens of a path expression. -/
def isBlank (c : Char) : Bool :=
  c == ' ' || c == '\t' || c == '\r' || c == '\n'

/-- The blanks of markup: those of a path expression and the form feed. -/
def isMarkupBlank (c : Char) : Bool :=
  isBlank c || c == '\x0c'

/-- The characters with the Unicode property `White_Space`. -/
def isWhiteSpace (c : Char) : Bool :=
  let n := c.toNat
  (9 ≤ n && n ≤ 13) || n == 0x20 || n == 0x85 || n == 0xA0 || n == 0x1680 ||
    (0x2000 ≤ n && n ≤ 0x200A) || n == 0x2028 || n == 0x2029 || n == 0x202F || n == 0x205F ||
    n == 0x3000

/-- The part of a list between the first and the last element that fails `p`. -/
def strip {α : Type} (p : α → Bool) (l : List α) : List α :=
  ((l.dropWhile p).reverse.dropWhile p).reverse

/-- A text without the white space at its two ends. -/
def trim (s : String) : String :=
  String.ofList (strip isWhiteSpace s.toList)

/-- The maximal runs of characters that are not blank, in order. -/
def words : List Char → List (List Char)
  | [] => []
  | [c] => if isBlank c then [] else [[c]]
  | c :: d :: rest =>
    if isBlank c then words (d :: rest)
    else if isBlank d then [c] :: words (d :: rest)
    else
      match words (d :: rest) with
      | [] => [[c]]
      | w :: ws => (c :: w) :: ws

/-- A text with its words set apart by single spaces and nothing around them. -/
def normalizeSpace (s : String) : String :=
  " ".intercalate ((words s.toList).map String.ofList)

theorem words_cons_of_isBlank {c : Char} (h : isBlank c = true) (cs : List Char) :
    words (c :: cs) = words cs := by
  cases cs <;> simp [words, h]

/-- A word is never empty. -/
theorem ne_nil_of_mem_words {cs w : List Char} (h : w ∈ words cs) : w ≠ [] := by
  induction cs generalizing w with
  | nil => simp [words] at h
  | cons c cs ih =>
    cases cs with
    | nil => by_cases hc : isBlank c <;> simp_all [words]
    | cons d rest =>
      rw [words] at h
      split at h
      · exact ih h
      · split at h
        · rcases List.mem_cons.1 h with rfl | h
          · simp
          · exact ih h
        · split at h
          · simp_all
          · rename_i v vs hv
            rcases List.mem_cons.1 h with rfl | h
            · simp
            · exact ih (hv ▸ List.mem_cons_of_mem v h)

end MarkupQuery.Text
