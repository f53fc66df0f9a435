import MarkupQuery.Text.Blank
import MarkupQuery.Text.Letter
import MarkupQuery.XPath.Error

/-!
# Tokens in a text

`scan` cuts the text of an expression into lexemes: tokens with the characters they were read from
and the number of bytes before them.  Every token is as long as it can be.  `readToken` reads the
token at the start of a text, and `readToken_append` says that what it read and what it left make up
the text, so that scanning ends and loses nothing but blanks.
-/

namespace MarkupQuery.XPath

open Text (isBlank isAlphabetic isNumeric)

/-- A token, its text, and the bytes before it. -/
structure Lexeme where
  token : Token
  text : List Char
  offset : Nat

/-- The number of bytes of a text in UTF-8. -/
def byteLength (cs : List Char) : Nat :=
  cs.foldl (fun n c => n + c.utf8Size) 0

/-- The characters that a name can start with. -/
def isNameStart (c : Char) : Bool :=
  c == '_' || isAlphabetic c

/-- The characters that a name can go on with. -/
def isNameChar (c : Char) : Bool :=
  isNameStart c || c == '-' || c == '.' || isNumeric c || c == '\u00b7'

/-- The tokens with one spelling each, a spelling before those that it starts with. -/
def symbols : List (List Char × Token) :=
  [(['/', '/'], .doubleSlash), ([':', ':'], .colonColon), (['!', '='], .notEqual),
   (['<', '='], .lessEqual), (['>', '='], .greaterEqual), (['.', '.'], .dotDot),
   (['('], .leftParen), ([')'], .rightParen), (['['], .leftBracket), ([']'], .rightBracket),
   (['@'], .atSign), ([','], .comma), (['|'], .pipe), (['+'], .plus), (['-'], .minus),
   (['='], .equal), (['/'], .slash), (['<'], .less), (['>'], .greater), (['.'], .dot)]

/-- The symbol that a text starts with. -/
def symbolAt? (cs : List Char) : Option (List Char × Token) :=
  symbols.find? fun entry => entry.1.isPrefixOf cs

/-- Whether a number starts here: with a digit, or with a point before a digit. -/
def startsNumber : List Char → Bool
  | '.' :: d :: _ => d.isDigit
  | c :: _ => c.isDigit
  | [] => false

/-- The text of a number: digits, then possibly a point and further digits. -/
def numberText (cs : List Char) : List Char :=
  match cs.dropWhile Char.isDigit with
  | '.' :: rest => cs.takeWhile Char.isDigit ++ '.' :: rest.takeWhile Char.isDigit
  | _ => cs.takeWhile Char.isDigit

/-- The value of the text of a number. -/
def numberValue (text : List Char) : Float :=
  Decimal.ofDigits (text.takeWhile Char.isDigit) ((text.dropWhile Char.isDigit).drop 1)

/-- The name that a text starts with, of one part or of two parts joined by a colon; nothing when
no name starts here. -/
def nameText : List Char → List Char
  | [] => []
  | c :: cs =>
    if isNameStart c then
      let first := c :: cs.takeWhile isNameChar
      match cs.dropWhile isNameChar with
      | ':' :: d :: rest =>
        if isNameStart d then first ++ ':' :: (d :: rest).takeWhile isNameChar else first
      | _ => first
    else []

/-- The operator that a word stands for behind an operand. -/
def operatorWord? (name : String) : Option Token :=
  match name with
  | "and" => some .and
  | "or" => some .or
  | "div" => some .div
  | "mod" => some .mod
  | _ => none

/-- The token for a name, which depends on the token before and on what follows the blanks behind
the name. -/
def nameToken (afterOperand : Bool) (name : String) (rest : List Char) : Token :=
  match if afterOperand then operatorWord? name else none with
  | some operator => operator
  | none =>
    match rest.dropWhile isBlank with
    | ':' :: ':' :: _ => .axis name
    | '(' :: _ =>
      match NodeType.ofName? name with
      | some type => .nodeType type
      | none => .function name
    | _ => .name name

/-- The text of the token at the start of a text that starts with no blank, and the token.  The
text may be a part of what the token needs only when there is no token. -/
def tokenAt (afterOperand : Bool) (cs : List Char) : Except SyntaxFault (List Char × Token) :=
  if startsNumber cs then .ok (numberText cs, .number (numberValue (numberText cs)))
  else
    match symbolAt? cs with
    | some found => .ok found
    | none =>
      match cs with
      | [] => .error .unexpectedEnd
      | '*' :: _ => .ok (['*'], if afterOperand then .multiply else .wildcard)
      | '$' :: rest =>
        let name := nameText rest
        if name.isEmpty then .error .missingVariableName
        else .ok ('$' :: name, .variableRef (String.ofList name))
      | c :: rest =>
        if c == '"' || c == '\'' then
          let body := rest.takeWhile (· != c)
          if rest.any (· == c) then .ok (c :: body ++ [c], .literal (String.ofList body))
          else .error .unterminatedLiteral
        else if isNameStart c then
          let name := nameText cs
          .ok (name, nameToken afterOperand (String.ofList name) (cs.drop name.length))
        else .error (.unexpectedCharacter c)

/-- Reads the token at the start of a text: the token, its text and the rest. -/
def readToken (afterOperand : Bool) (cs : List Char) :
    Except SyntaxFault (Token × List Char × List Char) :=
  match tokenAt afterOperand cs with
  | .ok (text, token) => .ok (token, text, cs.drop text.length)
  | .error fault => .error fault

/-! ## What is read and what is left -/

theorem prefix_of_symbolAt? {cs text : List Char} {token : Token}
    (h : symbolAt? cs = some (text, token)) : text <+: cs ∧ text ≠ [] := by
  have hmem := List.mem_of_find?_eq_some h
  have hpre := List.find?_some h
  refine ⟨List.isPrefixOf_iff_prefix.1 hpre, ?_⟩
  have all : ∀ entry ∈ symbols, entry.1 ≠ [] := by
    simp [symbols]
  exact all _ hmem

theorem numberText_isPrefix (cs : List Char) : numberText cs <+: cs := by
  have h := List.takeWhile_append_dropWhile (p := Char.isDigit) (l := cs)
  unfold numberText
  split
  · rename_i rest hrest
    rw [hrest] at h
    exact ⟨rest.dropWhile Char.isDigit, Eq.trans (by simp) h⟩
  · exact List.takeWhile_prefix _

theorem numberText_ne_nil {cs : List Char} (h : startsNumber cs = true) : numberText cs ≠ [] := by
  unfold startsNumber at h
  split at h
  · rename_i d rest
    have hp : ('.' : Char).isDigit = false := by decide
    simp [numberText, List.takeWhile_cons, hp]
  · rename_i c rest
    unfold numberText
    split <;> simp [h]
  · simp at h

theorem nameText_isPrefix (cs : List Char) : nameText cs <+: cs := by
  cases cs with
  | nil => simp [nameText]
  | cons c cs =>
    have h := List.takeWhile_append_dropWhile (p := isNameChar) (l := cs)
    have hfirst : c :: cs.takeWhile isNameChar <+: c :: cs :=
      List.cons_prefix_cons.2 ⟨rfl, List.takeWhile_prefix _⟩
    simp only [nameText]
    split
    · split
      · rename_i d rest hrest
        split
        · rw [hrest] at h
          exact ⟨(d :: rest).dropWhile isNameChar, Eq.trans
            (by simp only [List.cons_append, List.append_assoc,
              List.takeWhile_append_dropWhile]) (congrArg (c :: ·) h)⟩
        · exact hfirst
      · exact hfirst
    · exact List.nil_prefix

theorem nameText_ne_nil {c : Char} (h : isNameStart c = true) (cs : List Char) :
    nameText (c :: cs) ≠ [] := by
  simp only [nameText, h, ↓reduceIte]
  split
  · split <;> simp
  · simp

/-- A literal takes up its quotes and what is between them. -/
theorem literal_isPrefix {quote : Char} {rest : List Char} (h : rest.any (· == quote) = true) :
    quote :: rest.takeWhile (· != quote) ++ [quote] <+: quote :: rest := by
  rw [List.cons_append]
  refine List.cons_prefix_cons.2 ⟨rfl, ?_⟩
  induction rest with
  | nil => simp at h
  | cons c rest ih =>
    by_cases hc : c = quote
    · subst hc; simp
    · have hr : rest.any (· == quote) = true := by simpa [hc] using h
      simpa [List.takeWhile_cons, hc] using ih hr

/-- A token's text is a piece of what is read, and never empty. -/
theorem prefix_of_tokenAt {afterOperand : Bool} {cs text : List Char} {token : Token}
    (h : tokenAt afterOperand cs = .ok (text, token)) : text <+: cs ∧ text ≠ [] := by
  unfold tokenAt at h
  split at h
  · rename_i hnum
    cases h
    exact ⟨numberText_isPrefix cs, numberText_ne_nil hnum⟩
  · split at h
    · rename_i found hfound
      cases h
      exact prefix_of_symbolAt? hfound
    · split at h
      · cases h
      · cases h
        exact ⟨by simp, by simp⟩
      · simp only at h
        split at h
        · cases h
        · cases h
          exact ⟨List.cons_prefix_cons.2 ⟨rfl, nameText_isPrefix _⟩, by simp⟩
      · split at h
        · simp only at h
          split at h
          · rename_i hany
            cases h
            exact ⟨literal_isPrefix hany, by simp⟩
          · cases h
        · split at h
          · rename_i hname
            cases h
            exact ⟨nameText_isPrefix _, nameText_ne_nil hname _⟩
          · cases h

/-- What is read and what is left make up the text. -/
theorem readToken_append {afterOperand : Bool} {cs text rest : List Char} {token : Token}
    (h : readToken afterOperand cs = .ok (token, text, rest)) : text ++ rest = cs ∧ text ≠ [] := by
  unfold readToken at h
  split at h
  · rename_i text' token' htoken
    cases h
    have hp := prefix_of_tokenAt htoken
    exact ⟨(List.prefix_iff_eq_append.1 hp.1), hp.2⟩
  · cases h

theorem length_rest_lt {afterOperand : Bool} {cs text rest : List Char} {token : Token}
    (h : readToken afterOperand cs = .ok (token, text, rest)) : rest.length < cs.length := by
  obtain ⟨happ, hne⟩ := readToken_append h
  have hpos := List.length_pos_iff.2 hne
  have hlen := congrArg List.length happ
  simp only [List.length_append] at hlen
  omega

/-! ## Scanning -/

/-- The lexemes of a text that has `offset` bytes before it; `afterOperand` tells whether an
operand may have ended there. -/
def scanFrom (offset : Nat) (afterOperand : Bool) (cs : List Char) : Except Error (List Lexeme) :=
  match cs with
  | [] => .ok []
  | c :: rest =>
    if isBlank c then scanFrom (offset + 1) afterOperand rest
    else
      match _h : readToken afterOperand (c :: rest) with
      | .error fault => .error (.syntaxError fault offset)
      | .ok (token, text, rest') =>
        match scanFrom (offset + byteLength text) token.endsOperand rest' with
        | .error e => .error e
        | .ok lexemes => .ok (⟨token, text, offset⟩ :: lexemes)
termination_by cs.length
decreasing_by
  · simp
  · exact length_rest_lt _h

/-- The lexemes of the text of an expression. -/
def scan (source : String) : Except Error (List Lexeme) :=
  scanFrom 0 false source.toList

end MarkupQuery.XPath
