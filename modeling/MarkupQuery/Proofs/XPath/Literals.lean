import MarkupQuery.Proofs.XPath.Evaluation
import MarkupQuery.Proofs.XPath.Spelling
import MarkupQuery.Proofs.XPath.Starts
import MarkupQuery.XPath.Literal

/-!
# Literals of texts

The literal of any text is read as one operand whose value is the text.
-/

namespace MarkupQuery.XPath

open Text (isBlank)

theorem not_mem_of_mem_splitOn {x : Char} {cs piece : List Char} (h : piece ∈ cs.splitOn x) :
    x ∉ piece := by
  induction cs generalizing piece with
  | nil =>
    rw [List.splitOn_nil, List.mem_singleton] at h
    simp [h]
  | cons c cs ih =>
    rw [List.splitOn_cons_eq_if_modifyHead] at h
    split at h
    · rcases List.mem_cons.1 h with rfl | h
      · simp
      · exact ih h
    · rename_i hc
      obtain ⟨first, pieces, hpieces⟩ := List.exists_cons_of_ne_nil (List.splitOn_ne_nil x cs)
      rw [hpieces, List.modifyHead_cons] at h
      have hne : x ≠ c := by
        rintro rfl
        simp at hc
      rcases List.mem_cons.1 h with rfl | h
      · have hfirst : x ∉ first := ih (hpieces ▸ List.mem_cons_self)
        simp [hne, hfirst]
      · exact ih (hpieces ▸ List.mem_cons_of_mem _ h)

/-- The arguments that the pieces of a text with both kinds of quotes are joined by. -/
def literalArguments : List (List Char) → List Expr
  | [] => []
  | [piece] => [.literal (String.ofList piece)]
  | piece :: pieces =>
    .literal (String.ofList piece) :: .literal "\"" :: literalArguments pieces

/-- The expression that the literal of a text stands for. -/
def literalExpr (s : String) : Expr :=
  if '"' ∉ s.toList ∨ '\'' ∉ s.toList then .literal s
  else .call .concat (literalArguments (s.toList.splitOn '"'))

/-! ## The tokens of a literal -/

/-- The tokens of these arguments. -/
def argumentTokens : List (List Char) → List Token
  | [] => []
  | [piece] => [.literal (String.ofList piece)]
  | piece :: pieces =>
    .literal (String.ofList piece) :: .comma :: .literal "\"" :: .comma :: argumentTokens pieces

/-- The tokens of the literal of a text. -/
def literalTokens (s : String) : List Token :=
  if '"' ∉ s.toList ∨ '\'' ∉ s.toList then [.literal s]
  else .function Function.concat.name :: .leftParen ::
    (argumentTokens (s.toList.splitOn '"') ++ [.rightParen])

theorem Starts.spells {p : Phrase} {cs : List Char} {tokens : List Token} {r : p.Result}
    (h : Starts false cs tokens true) (hderives : Derives p tokens r) : p.Spells cs r :=
  ⟨tokens, hderives, fun rest more _ hmore => (h rest _).2 ⟨more, rfl, hmore⟩⟩

theorem derives_argumentTokens {pieces : List (List Char)} (hne : pieces ≠ []) :
    Derives .arguments (argumentTokens pieces ++ [.rightParen]) (literalArguments pieces) := by
  have hliteral (s : String) : Derives .expr [.literal s] (.literal s) :=
    (Derives.literal s).expr_of_primary
  induction pieces with
  | nil => contradiction
  | cons piece pieces ih =>
    cases pieces with
    | nil => exact .lastArgument (hliteral (String.ofList piece))
    | cons next pieces =>
      have hothers := Derives.argument (hliteral "\"") (ih (List.cons_ne_nil next pieces))
      exact .argument (hliteral (String.ofList piece)) hothers

theorem length_literalArguments {pieces : List (List Char)} (h : 1 < pieces.length) :
    2 ≤ (literalArguments pieces).length := by
  match pieces with
  | piece :: next :: pieces => simp [literalArguments]

theorem one_lt_length_splitOn {x : Char} {cs : List Char} (h : x ∈ cs) :
    1 < (cs.splitOn x).length := by
  by_contra hlength
  obtain ⟨piece, hpieces⟩ := List.length_eq_one_iff.1
    (Nat.le_antisymm (Nat.not_lt.1 hlength) (List.length_pos_iff.2 (List.splitOn_ne_nil x cs)))
  have hwhole : [x].intercalate (cs.splitOn x) = cs := List.intercalate_splitOn x
  rw [hpieces, List.intercalate_singleton] at hwhole
  subst hwhole
  exact not_mem_of_mem_splitOn (hpieces ▸ List.mem_singleton_self piece) h

theorem derives_literalTokens (s : String) :
    Derives .primary (literalTokens s) (literalExpr s) := by
  unfold literalTokens literalExpr
  split
  · exact .literal s
  · rename_i hquotes
    have hdouble : '"' ∈ s.toList := by
      by_contra hnone
      exact hquotes (.inl hnone)
    have hlength := length_literalArguments (one_lt_length_splitOn hdouble)
    have hpieces := derives_argumentTokens (List.splitOn_ne_nil '"' s.toList)
    exact .function (.call .concat hpieces (by simp [Function.arity, Arity.admits, hlength]))

theorem starts_separator : Starts true [',', ' '] [.comma] false :=
  (Starts.symbol (fun _ => rfl) (by decide)).append (.blank (by decide))

theorem starts_argumentTokens {pieces : List (List Char)} (hne : pieces ≠ [])
    (hpieces : ∀ piece ∈ pieces, '"' ∉ piece) :
    Starts false ([',', ' ', '\'', '"', '\'', ',', ' '].intercalate
      (pieces.map fun piece => '"' :: piece ++ ['"'])) (argumentTokens pieces) true := by
  induction pieces with
  | nil => contradiction
  | cons piece pieces ih =>
    have hpiece : Starts false ('"' :: piece ++ ['"']) [.literal (String.ofList piece)] true :=
      .literal (.inl rfl) (hpieces piece List.mem_cons_self)
    cases pieces with
    | nil => simpa [argumentTokens] using hpiece
    | cons next pieces =>
      have hquote : Starts false ('\'' :: ['"'] ++ ['\'']) [.literal "\""] true :=
        .literal (.inr rfl) (by decide)
      have hothers := ih (List.cons_ne_nil next pieces)
        fun piece hmem => hpieces piece (List.mem_cons_of_mem _ hmem)
      have hbetween := starts_separator.append (hquote.append starts_separator)
      simpa [argumentTokens] using hpiece.append (hbetween.append hothers)

/-- The text of a literal has its tokens whatever stands behind it. -/
theorem starts_literalText (s : String) :
    Starts false (literalText s).toList (literalTokens s) true := by
  have hplain {quote : Char} (hquote : quote = '"' ∨ quote = '\'') (h : quote ∉ s.toList) :
      Starts false (quote :: s.toList ++ [quote]) [.literal s] true := by
    simpa using Starts.literal hquote h
  unfold literalText literalTokens
  by_cases hdouble : '"' ∈ s.toList
  · by_cases hsingle : '\'' ∈ s.toList
    · have hpieces := starts_argumentTokens (List.splitOn_ne_nil '"' s.toList)
        fun piece hmem => not_mem_of_mem_splitOn hmem
      have hclose : Starts true [')'] [.rightParen] true :=
        .symbol (fun _ => rfl) (by decide)
      have hopen : Starts false ['('] [.leftParen] false :=
        .symbol (fun _ => rfl) (by decide)
      have hcall : Starts false (Function.concat.name.toList ++ _) (.function _ :: _) true :=
        .cons (fun tail => tokenAt_function .concat _) Function.concat.isBlank_head?_name
          (hopen.append (hpieces.append hclose))
      simpa [hdouble, hsingle, enclose, Function.name, Function.comp_def] using hcall
    · simpa [hdouble, hsingle, enclose] using hplain (.inr rfl) hsingle
  · simpa [hdouble, enclose] using hplain (.inl rfl) hdouble

theorem spells_literalText (s : String) :
    Phrase.primary.Spells (literalText s).toList (literalExpr s) :=
  (starts_literalText s).spells (derives_literalTokens s)

/-! ## The value of a literal -/

/-- The pieces and the quotes between them have the whole text as their texts. -/
theorem evalAll_literalArguments (t : Tree) (pieces : List (List Char)) (context : Context) :
    ∃ values, Expr.evalAll t (literalArguments pieces) context = .ok values ∧
      values.length = (literalArguments pieces).length ∧
      String.join (values.map (Value.toText t)) = String.ofList (['"'].intercalate pieces) := by
  have hliteral (s : String) : (Expr.literal s).eval t context = .ok (.string s) :=
    means_literal s context
  induction pieces with
  | nil => exact ⟨[], by rw [literalArguments, Expr.evalAll], rfl, by simp⟩
  | cons piece pieces ih =>
    cases pieces with
    | nil =>
      refine ⟨[.string (String.ofList piece)], ?_, rfl, ?_⟩
      · simp [literalArguments, Expr.evalAll, hliteral, bind_ok]
      · simp [Value.toText, Value.string, Atom.toText]
    | cons next pieces =>
      obtain ⟨values, heval, hlength, htext⟩ := ih
      refine ⟨.string (String.ofList piece) :: .string "\"" :: values, ?_, ?_, ?_⟩
      · simp [literalArguments, Expr.evalAll, hliteral, heval, bind_ok]
      · simp [literalArguments, hlength]
      · simp [Value.toText, Value.string, Atom.toText, htext]

theorem means_literalExpr (t : Tree) (s : String) : Means t (literalExpr s) s := by
  unfold literalExpr
  split
  · exact means_literal s
  · rename_i hquotes
    intro context
    obtain ⟨values, heval, hlength, htext⟩ :=
      evalAll_literalArguments t (s.toList.splitOn '"') context
    have hdouble : '"' ∈ s.toList := by
      by_contra hnone
      exact hquotes (.inl hnone)
    have htwo := length_literalArguments (one_lt_length_splitOn hdouble)
    rw [List.intercalate_splitOn, String.ofList_toList] at htext
    match values with
    | [] | [_] =>
      simp only [List.length_nil, List.length_cons] at hlength
      omega
    | first :: second :: rest =>
      simp only [Expr.eval, heval, bind_ok, Function.name, callNamed, htext]

end MarkupQuery.XPath
