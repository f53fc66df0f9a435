import MarkupQuery.Text.Blank
import MarkupQuery.Html.CharacterReference

/-!
# Tokens of markup

A markup text is a sequence of tags, comments, doctypes and characters.  How the next token is read
depends on the element that it stands in, which the `ContentModel` tells.  Every reading consumes a
part of the text.
-/

namespace MarkupQuery.Html

open Text (isMarkupBlank)

/-- A start or end tag. -/
structure Tag where
  name : String
  attributes : List (String × String)
  selfClosing : Bool
  deriving DecidableEq, Repr, Inhabited

/-- A doctype; an identifier that is not written is absent. -/
structure Doctype where
  name : Option String := none
  publicId : Option String := none
  systemId : Option String := none
  /-- Whether something is wrong with its form. -/
  malformed : Bool := false
  deriving DecidableEq, Repr, Inhabited

inductive Token where
  | doctype (doctype : Doctype)
  | startTag (tag : Tag)
  | endTag (tag : Tag)
  | comment (value : String)
  | char (c : Char)
  /-- Something that is wrong with the text and stands for nothing itself. -/
  | fault
  | endOfFile
  deriving DecidableEq, Repr, Inhabited

/-- What can stand in an element: markup, text with or without character references up to the
element's end tag, the same with the rules for comments in scripts, or text without an end. -/
inductive ContentModel where
  | markup
  | escapableText (endTag : String)
  | rawText (endTag : String)
  | script (endTag : String)
  | plainText
  deriving DecidableEq, Repr, Inhabited

/-- A text with its letters in ASCII made small and its null characters replaced. -/
def cleanName (cs : List Char) : String :=
  String.ofList (cs.map fun c => if c == '\x00' then replacementChar else c.toLower)

/-- A text with its null characters replaced. -/
def replaceNulls (cs : List Char) : List Char :=
  cs.map fun c => if c == '\x00' then replacementChar else c

/-- Decodes the character references of an attribute value. -/
def decodeValue (fuel : Nat) (cs : List Char) : List Char :=
  match fuel, cs with
  | _, [] => []
  | 0, _ => cs
  | fuel + 1, '&' :: rest =>
    match readReference? true rest with
    | some reference => reference.text ++ decodeValue fuel reference.rest
    | none => '&' :: decodeValue fuel rest
  | fuel + 1, c :: rest => (if c == '\x00' then replacementChar else c) :: decodeValue fuel rest

/-- The value that the text of an attribute value stands for. -/
def attributeValue (cs : List Char) : String :=
  String.ofList (decodeValue cs.length cs)

/-- The text before a character and the text behind it, if the character occurs. -/
def splitAt? (c : Char) (cs : List Char) : Option (List Char × List Char) :=
  match cs.dropWhile (· != c) with
  | [] => none
  | _ :: rest => some (cs.takeWhile (· != c), rest)

/-- Whether a character ends an attribute value without quotes. -/
def endsValue (c : Char) : Bool := isMarkupBlank c || c == '>'

/-- Reads an attribute value behind the equals sign: between quotes, or up to a blank or the end of
the tag.  There is none when the text ends before. -/
def readValue? (cs : List Char) : Option (String × List Char) :=
  match cs.dropWhile isMarkupBlank with
  | [] => none
  | '"' :: rest => (splitAt? '"' rest).map fun (value, rest) => (attributeValue value, rest)
  | '\'' :: rest => (splitAt? '\'' rest).map fun (value, rest) => (attributeValue value, rest)
  | rest =>
    match rest.dropWhile (!endsValue ·) with
    | [] => none
    | behind => some (attributeValue (rest.takeWhile (!endsValue ·)), behind)

/-- Whether a character ends the name of a tag. -/
def endsTagName (c : Char) : Bool :=
  isMarkupBlank c || c == '/' || c == '>'

/-- Whether a character ends the name of an attribute. -/
def endsAttributeName (c : Char) : Bool :=
  endsTagName c || c == '='

/-- What follows a character is shorter than the text. -/
theorem length_of_splitAt? {c : Char} {cs text rest : List Char}
    (h : splitAt? c cs = some (text, rest)) : rest.length ≤ cs.length := by
  have hle := (List.dropWhile_suffix (l := cs) (· != c)).length_le
  unfold splitAt? at h
  split at h
  · simp at h
  · rename_i heq
    simp only [Option.some.injEq, Prod.mk.injEq] at h
    rw [heq, List.length_cons, h.2] at hle
    omega

/-- What follows an attribute value is no longer than the text. -/
theorem length_of_readValue? {cs rest : List Char} {value : String}
    (h : readValue? cs = some (value, rest)) : rest.length ≤ cs.length := by
  have hle := (List.dropWhile_suffix (l := cs) isMarkupBlank).length_le
  unfold readValue? at h
  split at h
  · simp at h
  · rename_i heq
    obtain ⟨⟨text, behind⟩, hs, he⟩ := Option.map_eq_some_iff.1 h
    have := length_of_splitAt? hs
    simp_all
    omega
  · rename_i heq
    obtain ⟨⟨text, behind⟩, hs, he⟩ := Option.map_eq_some_iff.1 h
    have := length_of_splitAt? hs
    simp_all
    omega
  · split at h
    · simp at h
    · simp only [Option.some.injEq, Prod.mk.injEq] at h
      rw [← h.2]
      exact Nat.le_trans (List.dropWhile_suffix _).length_le hle

/-- Reads the attributes of a tag and its end.  The first of several attributes of one name counts.
There is nothing when the text ends before the tag does. -/
def readAttributes? (read : List (String × String)) (cs : List Char) :
    Option (List (String × String) × Bool × List Char) :=
  match _h : cs.dropWhile isMarkupBlank with
  | [] => none
  | '>' :: rest => some (read, false, rest)
  | '/' :: '>' :: rest => some (read, true, rest)
  | '/' :: rest => readAttributes? read rest
  | c :: rest =>
    let name := cleanName (c :: rest.takeWhile (!endsAttributeName ·))
    let add (value : String) : List (String × String) :=
      if (read.map Prod.fst).contains name then read else read ++ [(name, value)]
    match _hb : (rest.dropWhile (!endsAttributeName ·)).dropWhile isMarkupBlank with
    | '=' :: behind =>
      match _hv : readValue? behind with
      | none => none
      | some (value, behind) => readAttributes? (add value) behind
    | behind => readAttributes? (add "") behind
termination_by cs.length
decreasing_by
  all_goals
    have hle := (List.dropWhile_suffix (l := cs) isMarkupBlank).length_le
    rw [_h] at hle
    simp only [List.length_cons] at hle
  · omega
  · have h1 := (List.dropWhile_suffix (l := rest.dropWhile (!endsAttributeName ·))
      isMarkupBlank).length_le
    have h2 := (List.dropWhile_suffix (l := rest) (!endsAttributeName ·)).length_le
    have h3 := length_of_readValue? _hv
    rw [_hb] at h1
    simp only [List.length_cons] at h1
    omega
  · have h1 := (List.dropWhile_suffix (l := rest.dropWhile (!endsAttributeName ·))
      isMarkupBlank).length_le
    have h2 := (List.dropWhile_suffix (l := rest) (!endsAttributeName ·)).length_le
    rw [_hb] at h1
    omega

/-- Reads a tag at its name.  A tag that the end of the text cuts off is dropped with all that is
left. -/
def readTag (kind : Tag → Token) (cs : List Char) : List Token × List Char :=
  let name := cleanName (cs.takeWhile (!endsTagName ·))
  let rest := cs.dropWhile (!endsTagName ·)
  match readAttributes? [] rest with
  | none => ([], [])
  | some (attributes, selfClosing, rest) => ([kind ⟨name, attributes, selfClosing⟩], rest)

/-- The text of a comment up to its end and what follows; without an end the comment goes on to the
end of the text, less what could have begun its end. -/
def splitComment : List Char → List Char × List Char
  | [] => ([], [])
  | '-' :: '-' :: '>' :: rest => ([], rest)
  | '-' :: '-' :: '!' :: '>' :: rest => ([], rest)
  | ['-'] | ['-', '-'] | ['-', '-', '!'] => ([], [])
  | c :: rest =>
    let (text, rest) := splitComment rest
    (c :: text, rest)

/-- Reads a comment behind its opening. -/
def readComment (cs : List Char) : List Token × List Char :=
  match cs with
  | '>' :: rest | '-' :: '>' :: rest => ([.comment ""], rest)
  | _ =>
    let (text, rest) := splitComment cs
    ([.comment (String.ofList (replaceNulls text))], rest)

/-- Reads what is treated as a comment although it is none: everything up to a greater-than sign. -/
def readBogusComment (cs : List Char) : List Token × List Char :=
  let text := cs.takeWhile (· != '>')
  ([.comment (String.ofList (replaceNulls text))], (cs.dropWhile (· != '>')).drop 1)

/-- Drops a word, in capitals or not, from the start of a text. -/
def dropWord? (word : String) (cs : List Char) : Option (List Char) :=
  let length := word.length
  if (cs.take length).map Char.toLower == word.toList then some (cs.drop length) else none

/-- An identifier of a doctype. -/
inductive Identifier where
  /-- Between quotes, with what follows. -/
  | quoted (text : String) (rest : List Char)
  /-- Cut off by the end of the doctype, with what follows. -/
  | broken (text : String) (rest : List Char)
  /-- No quote stands here. -/
  | missing

/-- Reads an identifier behind blanks. -/
def readIdentifier (cs : List Char) : Identifier :=
  let close (quote : Char) (rest : List Char) : Identifier :=
    let ends (c : Char) : Bool := c == quote || c == '>'
    let text := String.ofList (replaceNulls (rest.takeWhile (!ends ·)))
    match rest.dropWhile (!ends ·) with
    | [] => .broken text []
    | c :: behind => if c == quote then .quoted text behind else .broken text behind
  match cs.dropWhile isMarkupBlank with
  | '"' :: rest => close '"' rest
  | '\'' :: rest => close '\'' rest
  | _ => .missing

/-- Ends a doctype: what stands before the greater-than sign is skipped, and may spoil its form. -/
def endDoctype (doctype : Doctype) (spoils : Bool) (cs : List Char) : List Token × List Char :=
  match cs.dropWhile isMarkupBlank with
  | '>' :: rest => ([.doctype doctype], rest)
  | [] => ([.doctype { doctype with malformed := true }], [])
  | rest =>
    ([.doctype { doctype with malformed := doctype.malformed || spoils }],
      (rest.dropWhile (· != '>')).drop 1)

/-- Reads the system identifier of a doctype and its end. -/
def readSystemId (doctype : Doctype) (required : Bool) (cs : List Char) :
    List Token × List Char :=
  match readIdentifier cs with
  | .quoted text rest => endDoctype { doctype with systemId := some text } false rest
  | .broken text rest =>
    ([.doctype { doctype with systemId := some text, malformed := true }], rest)
  | .missing => endDoctype { doctype with malformed := doctype.malformed || required } true cs

/-- Reads a doctype behind its keyword. -/
def readDoctype (cs : List Char) : List Token × List Char :=
  match cs.dropWhile isMarkupBlank with
  | [] => ([.doctype { malformed := true }], [])
  | '>' :: rest => ([.doctype { malformed := true }], rest)
  | start =>
    let ends (c : Char) : Bool := isMarkupBlank c || c == '>'
    let doctype : Doctype := { name := some (cleanName (start.takeWhile (!ends ·))) }
    let rest := (start.dropWhile (!ends ·)).dropWhile isMarkupBlank
    match dropWord? "public" rest, dropWord? "system" rest with
    | some rest, _ =>
      match readIdentifier rest with
      | .quoted text rest => readSystemId { doctype with publicId := some text } false rest
      | .broken text rest =>
        ([.doctype { doctype with publicId := some text, malformed := true }], rest)
      | .missing => endDoctype { doctype with malformed := true } true rest
    | none, some rest => readSystemId doctype true rest
    | none, none => endDoctype doctype true rest

/-- Reads a section of plain characters behind its opening, up to two brackets and a greater-than
sign. -/
def splitSection : List Char → List Char × List Char
  | [] => ([], [])
  | ']' :: ']' :: '>' :: rest => ([], rest)
  | c :: rest =>
    let (text, rest) := splitSection rest
    (c :: text, rest)

/-- Reads what follows `<!`. -/
def readDeclaration (sectionsAllowed : Bool) (cs : List Char) : List Token × List Char :=
  match cs with
  | '-' :: '-' :: rest => readComment rest
  | '[' :: 'C' :: 'D' :: 'A' :: 'T' :: 'A' :: '[' :: rest =>
    if sectionsAllowed then
      let (text, rest) := splitSection rest
      (text.map .char, rest)
    else readBogusComment cs
  | _ =>
    match dropWord? "doctype" cs with
    | some rest => readDoctype rest
    | none => readBogusComment cs

/-- Reads what follows an ampersand that may start a reference.  A reference without its semicolon
is a fault. -/
def readAmpersand (cs : List Char) : List Token × List Char :=
  match readReference? false cs with
  | some reference =>
    let chars := reference.text.map Token.char
    (if reference.closed then chars else .fault :: chars, reference.rest)
  | none => ([.char '&'], cs)

/-- Reads the next tokens of markup. -/
def readMarkup (sectionsAllowed : Bool) (cs : List Char) : List Token × List Char :=
  match cs with
  | [] => ([], [])
  | '<' :: '!' :: rest => readDeclaration sectionsAllowed rest
  | '<' :: '?' :: rest => readBogusComment ('?' :: rest)
  | '<' :: '/' :: '>' :: rest => ([.fault], rest)
  | '<' :: '/' :: c :: rest =>
    if c.isAlpha then readTag .endTag (c :: rest) else readBogusComment (c :: rest)
  | '<' :: c :: rest =>
    if c.isAlpha then readTag .startTag (c :: rest) else ([.char '<'], c :: rest)
  | '&' :: rest => readAmpersand rest
  | c :: rest => ([.char c], rest)

/-- Whether the end tag of a name starts here. -/
def startsEndTag (name : String) (cs : List Char) : Bool :=
  match cs with
  | '<' :: '/' :: rest =>
    match dropWord? name rest with
    | some (c :: _) => endsTagName c
    | _ => false
  | _ => false

/-- Reads the next tokens of text that ends at an end tag. -/
def readText (endTag : String) (references : Bool) (cs : List Char) : List Token × List Char :=
  match cs with
  | [] => ([], [])
  | '&' :: rest => if references then readAmpersand rest else ([.char '&'], rest)
  | c :: rest =>
    if startsEndTag endTag cs then readTag .endTag (rest.drop 1)
    else ([.char (if c == '\x00' then replacementChar else c)], rest)

/-- The parts of a script: outside comments, in a comment, and in a script element inside a comment,
with the number of dashes just read as far as it matters. -/
inductive ScriptPart where
  | plain
  | escaped (dashes : Nat)
  | doubleEscaped (dashes : Nat)
  deriving DecidableEq, Repr

/-- Whether the word `script` and the end of a tag name start here. -/
def startsScriptWord (cs : List Char) : Bool :=
  match dropWord? "script" cs with
  | some (c :: _) => endsTagName c
  | _ => false

/-- The part of a script that a character leads to, and the number of characters behind it that
belong to it. -/
def ScriptPart.next (part : ScriptPart) (c : Char) (rest : List Char) : ScriptPart × Nat :=
  let dash (make : Nat → ScriptPart) (dashes : Nat) : ScriptPart × Nat :=
    if c == '-' then (make (min 2 (dashes + 1)), 0)
    else if c == '>' && dashes == 2 then (plain, 0)
    else (make 0, 0)
  match part with
  | plain =>
    if c == '<' && ['!', '-', '-'].isPrefixOf rest then (escaped 2, 3) else (plain, 0)
  | escaped dashes =>
    if c == '<' && startsScriptWord rest then (doubleEscaped 0, 7) else dash escaped dashes
  | doubleEscaped dashes =>
    if c == '<' && rest.head? == some '/' && startsScriptWord (rest.drop 1) then (escaped 0, 8)
    else dash doubleEscaped dashes

/-- The text of a script and what follows it, which starts with the end tag if there is one. -/
def splitScript (endTag : String) : (skip : Nat) → ScriptPart → List Char → List Char × List Char
  | _, _, [] => ([], [])
  | skip + 1, part, c :: rest =>
    let (text, behind) := splitScript endTag skip part rest
    (c :: text, behind)
  | 0, part, c :: rest =>
    let open' := match part with
      | .doubleEscaped _ => false
      | _ => true
    if open' && startsEndTag endTag (c :: rest) then ([], c :: rest)
    else
      let (part, skip) := part.next c rest
      let (text, behind) := splitScript endTag skip part rest
      (c :: text, behind)

/-- Reads the next tokens of a script: all of its text, or its end tag. -/
def readScript (endTag : String) (cs : List Char) : List Token × List Char :=
  match splitScript endTag 0 .plain cs with
  | ([], rest) => readTag .endTag (rest.drop 2)
  | (text, rest) => ((replaceNulls text).map .char, rest)

/-- Reads the next tokens of a text that is not empty. -/
def ContentModel.read (model : ContentModel) (sectionsAllowed : Bool) (cs : List Char) :
    List Token × List Char :=
  match model with
  | markup => readMarkup sectionsAllowed cs
  | escapableText endTag => readText endTag true cs
  | rawText endTag => readText endTag false cs
  | script endTag => readScript endTag cs
  | plainText => ((replaceNulls cs).map .char, [])

/-- A text with one line feed for each line break, which a carriage return or both characters can
stand for. -/
def normalizeLines (cs : List Char) : List Char :=
  ((' ' :: cs).zip cs).filterMap fun (previous, c) =>
    if previous == '\r' && c == '\n' then none else some (if c == '\r' then '\n' else c)

/-- A text without a mark of its encoding at the start. -/
def dropMark : List Char → List Char
  | '\ufeff' :: cs => cs
  | cs => cs

end MarkupQuery.Html
