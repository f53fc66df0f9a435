import MarkupQuery.Html.Builder.Body

/-!
# Drawings and formulas

Inside drawings and formulas tags make elements of their language.  Some of these elements have
markup inside again, and some tags of markup end the drawing or formula that they stand in.
-/

namespace MarkupQuery.Html

open Text (isMarkupBlank)

namespace Builder

/-- Whether text in an element is read as in markup: the elements of formulas that hold text. -/
def holdsText (b : Builder) (id : DraftId) : Bool :=
  match b.draft.element? id with
  | some (.mathml, tag) => formulaTexts.contains tag
  | _ => false

/-- Whether an element of a drawing or formula has markup inside. -/
def holdsMarkup (b : Builder) (id : DraftId) : Bool :=
  match b.draft.element? id with
  | some (.svg, tag) => drawingTexts.contains tag
  | some (.mathml, "annotation-xml") =>
    ((b.draft.attributes id).lookup "encoding").any fun encoding =>
      ["text/html", "application/xhtml+xml"].contains encoding.toLower
  | _ => false

/-- Whether the current node belongs to a drawing or formula. -/
def currentIsForeign (b : Builder) : Bool :=
  ((b.openElements.head?.bind b.draft.element?).map Prod.fst).any (· != .html)

/-- Whether a token is read by the rules of drawings and formulas. -/
def readsAsForeign (b : Builder) (token : Token) : Bool :=
  match b.openElements.head? with
  | none => false
  | some id =>
    match b.draft.element? id with
    | none | some (.html, _) => false
    | some (space, name) =>
      let annotates := space = .mathml && name == "annotation-xml"
      match token with
      | .endOfFile => false
      | .startTag tag =>
        !(b.holdsText id && tag.name != "mglyph" && tag.name != "malignmark") &&
          !(annotates && tag.name == "svg") && !b.holdsMarkup id
      | .char _ => !b.holdsText id && !b.holdsMarkup id
      | _ => true

end Builder

namespace Build

/-- Whether a start tag ends the drawing or formula that it stands in. -/
def breaksOut (tag : Tag) : Bool :=
  breakoutElements.contains tag.name ||
    (tag.name == "font" &&
      tag.attributes.any fun a => ["color", "face", "size"].contains a.1)

/-- Closes the elements of drawings and formulas down to one that has markup or text inside,
whatever its attributes. -/
def closeForeign : Build Unit :=
  popWhile fun b id =>
    (b.draft.element? id).any fun e => e.1 != .html && !holdsContent e.1 e.2

/-- What an end tag closes among open elements: an element of the drawing or formula, or what the
rules for markup say as soon as an element of markup is met. -/
def closeForeignElement (markup : Build Outcome) (name : String) :
    List DraftId → Build Outcome
  | [] | [_] => ignore
  | id :: rest => do
    match (← get).draft.element? id with
    | some (.html, _) => markup
    | some (_, tag) =>
      if tag.toLower == name then
        popWhile fun _ other => other != id
        pop
        return .done
      else closeForeignElement markup name rest
    | none => ignore

/-- In a drawing or formula; `markup` follows the rules that hold outside. -/
def foreignRules (markup : Token → Build Outcome) (token : Token) : Build Outcome := do
  let leave : Build Outcome := do
    closeForeign
    markup token
  match token with
  | .char c =>
    insertChar (if c == '\x00' then replacementChar else c)
    unless isMarkupBlank c || c == '\x00' do forbidFrames
    return .done
  | .comment text => insertComment text
  | .doctype _ | .fault => ignore
  | .startTag tag =>
    if breaksOut tag then leave
    else
      let b ← get
      let space := ((b.openElements.head?.bind b.draft.element?).map Prod.fst).getD .html
      insertForeign space tag
  | .endTag tag =>
    if tag.name == "br" || tag.name == "p" then leave
    else closeForeignElement (markup token) tag.name (← get).openElements
  | .endOfFile => markup token

end Build

end MarkupQuery.Html
