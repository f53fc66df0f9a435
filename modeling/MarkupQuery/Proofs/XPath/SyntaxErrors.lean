import MarkupQuery.Proofs.XPath.Lookahead
import MarkupQuery.Proofs.XPath.Scanning

/-!
# Where syntax errors point

A syntax error of a text that has tokens points at the first token that no expression can have
there, or at the end of the text when every token is the start of one.  The tokens in front of the
place can be completed to an expression, with whatever numbers of arguments, and those up to the
token at the place cannot.
-/

namespace MarkupQuery.XPath

variable {tokens : List Token}

/-- The fault at the tokens `rest` behind the tokens `before` is at the first impossible token. -/
structure FirstFault (before rest : List Token) : Prop where
  possible : ∃ more, Formed .expr (before ++ more)
  impossible {token : Token} {behind : List Token} (h : rest = token :: behind)
    (more : List Token) :
    ¬ Formed .expr (before ++ token :: more)

/-- A failure to read tokens as one expression is an error that is no syntax error, or a fault at
the first impossible token. -/
theorem firstFault_of_parseTokens {failure : Failure} (h : parseTokens tokens = .error failure) :
    (∃ error, failure = .refused error ∧ ∀ fault offset, error ≠ .syntaxError fault offset) ∨
      ∃ fault before rest, failure = .syntaxFault fault rest ∧ tokens = before ++ rest ∧
        FirstFault before rest := by
  simp only [parseTokens, bind_eq_error, Prod.exists] at h
  rcases h with h | ⟨e, rest, hexpr, h⟩
  · cases blames_parseExpr h with
    | @refused error herror => exact .inl ⟨error, rfl, herror⟩
    | @fault fault before rest more htokens hmore =>
      refine .inr ⟨fault, before, rest, rfl, htokens, ⟨more, hmore⟩, ?_⟩
      rintro token behind rfl
      rw [htokens] at h
      exact not_formed_of_stops (.inl ⟨fault, h⟩)
    | outOfFuel hscarce => exact hscarce.elim
  · obtain ⟨before, htokens, hbefore⟩ :=
      (soundAt (24 * (tokens.length + 1))).phrase .expr _ _ _ hexpr
    split at h <;> cases h
    rename_i token behind
    have hformed : Formed .expr (before ++ []) := by
      rw [List.append_nil]
      exact hbefore.formed
    refine .inr ⟨_, before, token :: behind, rfl, htokens, ⟨[], hformed⟩, ?_⟩
    rintro _ _ ⟨⟩
    rw [htokens] at hexpr
    exact not_formed_of_stops (.inr ⟨e, hexpr⟩)

/-- A syntax error of a text that has tokens is at the offset of one of them, or at the end of the
text.  The tokens in front of it are the start of an expression, and with the token at the place
they are not. -/
theorem syntaxError_at_first_impossible {source : String} {lexemes : List Lexeme}
    {fault : SyntaxFault} {offset : Nat} (hscan : scan source = .ok lexemes)
    (herror : parse source = .error (.syntaxError fault offset)) :
    ∃ i ≤ lexemes.length,
      offset = ((lexemes[i]?).map Lexeme.offset).getD source.utf8ByteSize ∧
      (∃ more, Formed .expr ((lexemes.map Lexeme.token).take i ++ more)) ∧
      (i < lexemes.length →
        ∀ more, ¬ Formed .expr ((lexemes.map Lexeme.token).take (i + 1) ++ more)) := by
  simp only [parse, hscan, bind_ok] at herror
  cases hparse : parseTokens (lexemes.map Lexeme.token) with
  | ok e =>
    rw [hparse] at herror
    cases herror
  | error failure =>
    rw [hparse] at herror
    rcases firstFault_of_parseTokens hparse with
      ⟨error, rfl, hother⟩ | ⟨fault, before, rest, rfl, htokens, hfirst⟩
    · cases herror
      exact absurd rfl (hother fault offset)
    · have hlength : lexemes.length = before.length + rest.length := by
        rw [← List.length_append, ← htokens, List.length_map]
      have hplace : lexemes.length - rest.length = before.length := by omega
      simp only [hplace] at herror
      cases herror
      refine ⟨before.length, by omega, rfl, ?_, fun hlt more => ?_⟩
      · rw [htokens, List.take_left]
        exact hfirst.possible
      · cases rest with
        | nil =>
          rw [List.length_nil] at hlength
          omega
        | cons token behind =>
          have htake :
              (before ++ token :: behind).take (before.length + 1) = before ++ [token] := by
            rw [List.append_cons]
            exact List.take_left' (by simp)
          rw [htokens, htake, ← List.append_cons]
          exact hfirst.impossible rfl more

theorem scan_neighbours : scan "a b" =
    .ok [⟨.name "a", ['a'], 0⟩, ⟨.name "b", ['b'], 2⟩] := by
  have hfirst : tokenAt false (['a'] ++ ' ' :: (['b'] ++ [])) = .ok (['a'], .name "a") := rfl
  have hsecond : tokenAt true (['b'] ++ []) = .ok (['b'], .name "b") := rfl
  have hlist : "a b".toList = ['a'] ++ ' ' :: (['b'] ++ []) := by simp
  have hbehind : (Token.name "a").endsOperand = true := rfl
  rw [scan, hlist, scanFrom_append 0 hfirst (by simp [Text.isBlank]), hbehind, scanFrom,
    if_pos (by decide), scanFrom_append _ hsecond (by simp [Text.isBlank]), scanFrom]
  rfl

/-- Two names side by side are no expression, and the second one is at fault. -/
theorem syntaxError_at_first_impossible_neighbours :
    parse "a b" = .error (.syntaxError (.unexpectedToken (.name "b")) 2) ∧
      (∃ more, Formed .expr ([.name "a"] ++ more)) ∧
      ∀ more, ¬ Formed .expr ([.name "a", .name "b"] ++ more) := by
  have hparse : parse "a b" = .error (.syntaxError (.unexpectedToken (.name "b")) 2) := by
    rw [parse, scan_neighbours]
    rfl
  obtain ⟨i, hi, hoffset, hpossible, himpossible⟩ :=
    syntaxError_at_first_impossible scan_neighbours hparse
  have hplaces : i = 0 ∨ i = 1 ∨ i = 2 := by
    have hle : i ≤ 2 := hi
    omega
  rcases hplaces with rfl | rfl | rfl
  · cases hoffset
  · exact ⟨hparse, hpossible, himpossible Nat.one_lt_two⟩
  · cases hoffset

end MarkupQuery.XPath
