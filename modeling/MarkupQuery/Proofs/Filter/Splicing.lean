import MarkupQuery.Proofs.Filter.Limits
import MarkupQuery.Proofs.XPath.Gaps
import MarkupQuery.Proofs.XPath.Parts

/-!
# Literals in queries

A query holds the texts of its filter as literals.  Each literal is read as one primary expression
with the text as its value, wherever it is put, so that nothing of a text is read as a part of the
query around it.
-/

namespace MarkupQuery

namespace XPath

/-! ## Places for a literal -/

/-- Tokens that a literal stands behind: equality, or what is in front of an argument of a call. -/
inductive Invites : List Token → Prop where
  | equation (front : List Token) : Invites (front ++ [.equal])
  | firstArgument (front : List Token) (name : String) :
      Invites (front ++ [.function name, .leftParen])
  | nextArgument (front : List Token) : Invites (front ++ [.comma])

/-- A place for a literal in a text. -/
structure Splice where
  before : String
  after : String
  tokens : List Token
  scans : Scans false before.toList tokens
  invites : Invites tokens

/-- The text with a literal in the place. -/
def Splice.fill (place : Splice) (s : String) : String :=
  place.before ++ literalText s ++ place.after

theorem Invites.exists_getLast? {tokens : List Token} (h : Invites tokens) :
    ∃ last, tokens.getLast? = some last ∧ last.invites = true := by
  cases h with
  | equation front => exact ⟨.equal, by simp, rfl⟩
  | firstArgument front name => exact ⟨.leftParen, by simp, rfl⟩
  | nextArgument front => exact ⟨.comma, by simp, rfl⟩

theorem Invites.site {tokens : List Token} (h : Invites tokens) : Site tokens := by
  intro hsuffix
  rw [← List.reverse_prefix] at hsuffix
  cases h <;> simp at hsuffix

theorem starts_of_scans {cs : List Char} {tokens : List Token} (h : Scans false cs tokens)
    (hinvites : Invites tokens) : Starts false cs tokens false := by
  obtain ⟨lexemes, hscan, rfl⟩ := h 0
  obtain ⟨last, hlast, hlasts⟩ := hinvites.exists_getLast?
  exact starts_of_scanFrom hscan hlast hlasts

/-- The tokens of a text with a literal are those in front of the place, those of the literal and
those behind it. -/
theorem Splice.scans_fill_iff (place : Splice) (s : String) (tokens : List Token) :
    Scans false (place.fill s).toList tokens ↔
      ∃ behind, tokens = place.tokens ++ literalTokens s ++ behind ∧
        Scans true place.after.toList behind := by
  have hbefore := starts_of_scans place.scans place.invites
  have hstarts := hbefore.append (starts_literalText s)
  rw [fill, String.toList_append, String.toList_append]
  exact hstarts place.after.toList tokens

/-! ## A literal as a block -/

theorem nest_argumentTokens (pieces : List (List Char)) :
    ∀ token ∈ argumentTokens pieces, ∀ depth, token.nest depth = some depth := by
  fun_induction argumentTokens pieces <;> simp_all [Token.nest]

/-- Only the pieces of a text and commas stand in the parentheses of a literal. -/
theorem block_literalTokens (s : String) : Block (literalTokens s) (literalExpr s) where
  derives := derives_literalTokens s
  opens := by
    unfold literalTokens
    split
    · exact ⟨_, _, rfl, rfl⟩
    · exact ⟨_, _, rfl, rfl⟩
  deeper {before after token} h htoken depth := by
    unfold literalTokens at h
    split at h
    · rcases before with _ | ⟨first, before⟩
      · cases h
        exact absurd htoken (by simp)
      · simp at h
    · rcases before with _ | ⟨first, _ | ⟨second, before⟩⟩
      · cases h
        exact absurd htoken (by simp)
      · cases h
        exact absurd htoken (by simp)
      · simp only [List.cons_append, List.cons.injEq] at h
        obtain ⟨rfl, rfl, htail⟩ := h
        have harguments := congrArg List.dropLast htail
        rw [List.dropLast_concat, List.dropLast_append_cons] at harguments
        have hbalanced : Balanced before := balanced_of_forall fun token hmem =>
          nest_argumentTokens _ token (harguments ▸ List.mem_append_left _ hmem)
        exact hbalanced (depth + 1)

/-! ## Reading a text with a literal -/

theorem parse_eq_ok_iff_scans {source : String} {e : Expr} :
    parse source = .ok e ↔ ∃ tokens, Scans false source.toList tokens ∧ Derives .expr tokens e := by
  constructor
  · intro h
    obtain ⟨lexemes, hscan, hderives⟩ := exists_scan_of_parse h
    exact ⟨_, scans_of_scanFrom hscan, hderives⟩
  · rintro ⟨tokens, hscans, hderives⟩
    exact parse_of_scans hscans hderives

/-- When one text is read with its literal in a place, every text is, and in the same gap. -/
theorem Splice.exists_gap {place : Splice} {s : String} {e : Expr}
    (h : parse (place.fill s) = .ok e) :
    ∃ C, Gap C ∧ ∀ s, parse (place.fill s) = .ok (C (literalExpr s)) := by
  obtain ⟨tokens, hscans, hderives⟩ := parse_eq_ok_iff_scans.1 h
  obtain ⟨behind, rfl, hbehind⟩ := (place.scans_fill_iff s tokens).1 hscans
  obtain ⟨C, hC, -, hfills⟩ :=
    hderives.holds (block_literalTokens s) _ _ rfl place.invites.site
  refine ⟨C, hC, fun s' => parse_eq_ok_iff_scans.2 ⟨_, ?_, hfills _ _ (derives_literalTokens s')⟩⟩
  exact (place.scans_fill_iff s' _).2 ⟨behind, rfl, hbehind⟩

theorem Splice.fails_or_exists_gap (place : Splice) :
    (∀ s, ∃ fault, parse (place.fill s) = .error fault) ∨
      ∃ C, Gap C ∧ ∀ s, parse (place.fill s) = .ok (C (literalExpr s)) := by
  by_cases hread : ∃ s e, parse (place.fill s) = .ok e
  · obtain ⟨s, e, hparse⟩ := hread
    exact .inr (exists_gap hparse)
  · refine .inl fun s => ?_
    cases hparse : parse (place.fill s) with
    | error fault => exact ⟨fault, rfl⟩
    | ok e => exact absurd ⟨s, e, hparse⟩ hread

theorem parse_literalText (s : String) : parse (literalText s) = .ok (literalExpr s) :=
  parse_of_spells (spells_literalText s).expr_of_primary

end XPath

namespace Filter

open XPath

variable {config : Config} {spec : Spec} {scope : Scope}

theorem text_ne_unspecified_of_query {query : String}
    (h : spec.unlimitedQuery config scope = .ok query) (hleaves : spec.seeksLeaves) :
    spec.text ≠ .unspecified := by
  intro hnone
  rw [unlimitedQuery_eq, if_pos hleaves, hnone] at h
  cases h

/-- Every query that is made of a filter is read. -/
theorem exists_parse_of_query {query : String} (h : spec.query config scope = .ok query) :
    ∃ e, parse query = .ok e := by
  obtain ⟨text, htext, -⟩ := bind_eq_ok.1 h
  obtain ⟨text', htext', e, hspells, -⟩ :=
    routes_unlimitedQuery config scope (text_ne_unspecified_of_query htext)
  obtain ⟨query', hquery', hlimited⟩ := exists_query_limited htext' hspells spec.limit
  obtain rfl : query' = query := Except.ok.inj (hquery'.symm.trans h)
  exact ⟨_, parse_of_spells hlimited⟩

/-- The literal of a text is read as one primary expression with the text as its value.  Where it
stands behind equality or as an argument of a call, it is the same primary expression for every
text: the tokens around it are the same, and when one text is read there, all are, with the literal
in the same gap.  In a query that is made of a filter they are read. -/
theorem literals_stay_whole :
    (∀ s, parse (literalText s) = .ok (literalExpr s) ∧
      ∀ t context, (literalExpr s).eval t context = .ok (.string s)) ∧
    (∀ s, Derives .primary (literalTokens s) (literalExpr s) ∧
      ∀ (place : Splice) (tokens : List Token), Scans false (place.fill s).toList tokens ↔
        ∃ behind, tokens = place.tokens ++ literalTokens s ++ behind ∧
          Scans true place.after.toList behind) ∧
    (∀ place : Splice, (∀ s, ∃ fault, parse (place.fill s) = .error fault) ∨
      ∃ C, Gap C ∧ ∀ s, parse (place.fill s) = .ok (C (literalExpr s))) ∧
    ∀ (config : Config) (spec : Spec) (scope : Scope) (place : Splice) (s : String),
      spec.query config scope = .ok (place.fill s) →
        ∃ C, Gap C ∧ ∀ s', parse (place.fill s') = .ok (C (literalExpr s')) := by
  refine ⟨fun s => ⟨parse_literalText s, fun t => means_literalExpr t s⟩,
    fun s => ⟨derives_literalTokens s, fun place => place.scans_fill_iff s⟩,
    Splice.fails_or_exists_gap, fun config spec scope place s hquery => ?_⟩
  obtain ⟨e, hparse⟩ := exists_parse_of_query hquery
  exact Splice.exists_gap hparse

/-- The value that an attribute is asked for stays whole. -/
theorem literals_stay_whole_attribute :
    ∃ C, Gap C ∧ ∀ s, parse ("//a[@id=" ++ literalText s ++ "]") = .ok (C (literalExpr s)) := by
  let spec : Spec := { name := .oneOf ["a"], attributes := .named [("id", .exact "it's")] }
  have htext : elementQuery {} "//" spec = "//a[@id=" ++ literalText "it's" ++ "]" := by
    decide +kernel
  have hquery : spec.query {} .document = .ok ("//a[@id=" ++ literalText "it's" ++ "]") := by
    rw [← htext]
    rfl
  have hequal : Scans true (['='] ++ []) [.equal] := separates_equal.scans .nil
  have hid : Scans false ('i' :: ['d'] ++ ['=']) [.name "id", .equal] :=
    Scans.name (by decide) (List.all_eq_true.1 (by decide)) (separates_equal.fence []) hequal
  have hpredicate : Scans true (['['] ++ '@' :: 'i' :: ['d'] ++ ['='])
      [.leftBracket, .atSign, .name "id", .equal] :=
    separates_leftBracket.scans (Scans.symbol ['@'] rfl rfl hid)
  have hname : Scans false ('a' :: [] ++ (['['] ++ '@' :: 'i' :: ['d'] ++ ['=']))
      [.name "a", .leftBracket, .atSign, .name "id", .equal] :=
    Scans.name (by decide) (by simp) (separates_leftBracket.fence _) hpredicate
  have hbefore : Scans false "//a[@id=".toList
      ([.doubleSlash, .name "a", .leftBracket, .atSign, .name "id"] ++ [.equal]) :=
    Scans.symbol ['/', '/'] rfl rfl hname
  exact literals_stay_whole.2.2.2 {} spec .document
    ⟨"//a[@id=", "]", _, hbefore, .equation _⟩ "it's" hquery

end Filter

end MarkupQuery
