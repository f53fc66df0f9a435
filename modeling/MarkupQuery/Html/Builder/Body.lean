import MarkupQuery.Html.Builder.Formatting
import MarkupQuery.Html.Builder.Head

/-!
# The body of a document

The rules for the content of a document: paragraphs and other blocks, lists, headings, formatting,
controls, and the elements that hold text.  Most other parts of a document fall back to them.
-/

namespace MarkupQuery.Html

open Text (isMarkupBlank)

namespace Build

/-- Opens an element that ends an open paragraph. -/
def insertBlock (tag : Tag) : Build Outcome := do
  closeParagraph
  insert tag
  return .done

/-- Opens an element inside the formatting that goes on. -/
def insertInline (tag : Tag) : Build Outcome := do
  reconstructFormatting
  insert tag
  return .done

/-- Closes the innermost open item of a kind, unless something is open that hides it. -/
def closeItem (names : List String) : Build Unit := do
  let b ← get
  let stops (id : DraftId) : Bool :=
    b.isOneOf names id ||
      (!b.isOneOf ["address", "div", "p"] id &&
        (b.draft.element? id).any fun e => isSpecial e.1 e.2)
  match (b.openElements.find? stops).bind b.draft.element? with
  | some (_, name) => if names.contains name then closeThrough [name] name
  | none => pure ()

/-- Opens an item of a list. -/
def insertItem (names : List String) (tag : Tag) : Build Outcome := do
  forbidFrames
  closeItem names
  insertBlock tag

/-- Opens a form, unless one is open. -/
def insertForm (tag : Tag) : Build Outcome := do
  let inTemplate ← hasOpen "template"
  if (← get).form.isSome && !inTemplate then return .done
  closeParagraph
  let id ← insertNew tag
  unless inTemplate do modify ({ · with form := some id })
  return .done

/-- Opens a link; links cannot stand in each other. -/
def insertLink (tag : Tag) : Build Outcome := do
  match liveElement? "a" (← get) with
  | some (id, _) =>
    let _ ← closeFormatting "a"
    forget id
    removeOpen id
  | none => pure ()
  reconstructFormatting
  insertFormatting tag

/-- Opens an element whose text does not break; such elements cannot stand in each other. -/
def insertUnbroken (tag : Tag) : Build Outcome := do
  reconstructFormatting
  if ← inReach ["nobr"] then
    let _ ← closeFormatting "nobr"
    reconstructFormatting
  insertFormatting tag

/-- Whether the tag of a field hides it. -/
def hidesField (tag : Tag) : Bool :=
  (tag.attributes.lookup "type").any (·.toLower == "hidden")

/-- Inserts a field of a form. -/
def insertInput (tag : Tag) : Build Outcome := do
  reconstructFormatting
  unless hidesField tag do forbidFrames
  insertVoid tag

/-- Opens a list of choices, whose content has rules of its own. -/
def insertSelect (tag : Tag) : Build Outcome := do
  reconstructFormatting
  insert tag
  forbidFrames
  let inTable := [Mode.inTable, .inCaption, .inTableBody, .inRow, .inCell].contains (← get).mode
  enter (if inTable then .inSelectInTable else .inSelect)

/-- Opens a choice or a group of choices outside a list of choices. -/
def insertOption (tag : Tag) : Build Outcome := do
  if ← currentIsOneOf ["option"] then pop
  insertInline tag

/-- Starts an element that holds text, outside the head. -/
def insertRawText (tag : Tag) : Build Outcome :=
  insertTextElement (.rawText tag.name) tag

/-- Gives the body the attributes that it does not have yet. -/
def mergeIntoBody (tag : Tag) : Build Outcome := do
  let b ← get
  match b.body? with
  | some body =>
    unless b.hasOpen "template" do
      forbidFrames
      modify fun b => { b with draft := b.draft.addMissingAttributes body tag.attributes }
  | none => pure ()
  return .done

/-- Makes a document a set of frames in place of its body, if nothing in it forbids that. -/
def replaceBody (tag : Tag) : Build Outcome := do
  let b ← get
  match b.body? with
  | none => ignore
  | some body =>
    if b.framesAllowed then
      set { b with draft := b.draft.detach body, openElements := b.rootElement?.toList }
      insert tag
      enter .inFrameset
    else ignore

/-- The start tags that the body ignores: parts of other structures without them. -/
def misplacedStarts : List String :=
  ["frame", "head"] ++ tableParts

/-- A start tag in the body, whose rules are those of the first group that has its name. -/
def startInBody (tag : Tag) : Build Outcome := do
  let name := tag.name
  let isIn (names : List String) : Bool := names.contains name
  if let some start := startHeadElement? tag then start
  else if name == "html" then mergeIntoRoot tag
  else if name == "body" then mergeIntoBody tag
  else if name == "frameset" then replaceBody tag
  else if isIn blockElements then insertBlock tag
  else if isIn headings then
    closeParagraph
    if ← currentIsOneOf headings then pop
    insert tag
    return .done
  else if isIn ["pre", "listing"] then
    let outcome ← insertBlock tag
    modify ({ · with skipsLineFeed := true, framesAllowed := false })
    return outcome
  else if name == "form" then insertForm tag
  else if name == "li" then insertItem ["li"] tag
  else if isIn ["dd", "dt"] then insertItem ["dd", "dt"] tag
  else if name == "plaintext" then
    let outcome ← insertBlock tag
    modify ({ · with model := .plainText })
    return outcome
  else if name == "button" then
    if ← inReach ["button"] then closeThrough ["button"]
    forbidFrames
    insertInline tag
  else if name == "a" then insertLink tag
  else if name == "nobr" then insertUnbroken tag
  else if isIn formattingElements then
    reconstructFormatting
    insertFormatting tag
  else if isIn ["applet", "marquee", "object"] then
    let outcome ← insertInline tag
    pushMarker
    forbidFrames
    return outcome
  else if name == "table" then
    unless (← get).tablesInParagraphs do closeParagraph
    insert tag
    forbidFrames
    enter .inTable
  else if isIn ["area", "br", "embed", "img", "keygen", "wbr"] then
    reconstructFormatting
    forbidFrames
    insertVoid tag
  else if name == "image" then
    reconstructFormatting
    forbidFrames
    insertVoid { tag with name := "img" }
  else if name == "input" then insertInput tag
  else if isIn ["param", "source", "track"] then insertVoid tag
  else if name == "hr" then
    closeParagraph
    forbidFrames
    insertVoid tag
  else if name == "textarea" then
    forbidFrames
    modify ({ · with skipsLineFeed := true })
    insertTextElement (.escapableText name) tag
  else if name == "xmp" then
    closeParagraph
    reconstructFormatting
    forbidFrames
    insertRawText tag
  else if name == "iframe" then
    forbidFrames
    insertRawText tag
  else if isIn ["noembed", "noscript"] then insertRawText tag
  else if name == "select" then insertSelect tag
  else if isIn ["optgroup", "option"] then insertOption tag
  else if isIn ["rb", "rtc"] then
    if ← inReach ["ruby"] then closeImplied
    insert tag
    return .done
  else if isIn ["rp", "rt"] then
    if ← inReach ["ruby"] then closeImplied "rtc"
    insert tag
    return .done
  else if name == "math" then insertForeign .mathml tag
  else if name == "svg" then insertForeign .svg tag
  else if isIn misplacedStarts then return .done
  else insertInline tag

/-- Closes the open form. -/
def closeForm : Build Outcome := do
  if ← hasOpen "template" then
    if ← inReach ["form"] then closeThrough ["form"]
  else
    let b ← get
    modify ({ · with form := none })
    match b.form with
    | some form =>
      if b.reaches .standard (· == form) b.openElements then
        closeImplied
        removeOpen form
    | none => pure ()
  return .done

/-- Closes the innermost element with one of the given tags, if one is open within a reach. -/
def closeWithin (reach : Reach) (tags : List String) (spared : String := "") : Build Outcome := do
  if ← inReach tags reach then closeThrough tags spared
  return .done

/-- An end tag in the body. -/
def endInBody (tag : Tag) : Build Outcome := do
  let name := tag.name
  let isIn (names : List String) : Bool := names.contains name
  if name == "template" then closeTemplate
  else if name == "body" then
    if ← inReach ["body"] then enter .afterBody else ignore
  else if name == "html" then
    if ← inReach ["body"] then againIn .afterBody else ignore
  else if isIn closingElements then closeWithin .standard [name]
  else if name == "form" then closeForm
  else if name == "p" then
    unless ← inReach ["p"] .button do insertPlain "p"
    closeParagraph
    return .done
  else if name == "li" then closeWithin .listItem [name] name
  else if isIn ["dd", "dt"] then closeWithin .standard [name] name
  else if isIn headings then closeWithin .standard headings
  else if isIn formattingElements then closeFormatting name
  else if isIn ["applet", "marquee", "object"] then
    if ← inReach [name] then
      closeThrough [name]
      clearFormatting
    return .done
  else if name == "br" then startInBody ⟨"br", [], false⟩
  else closeOrdinary name

/-- In the body. -/
def inBodyRules (token : Token) : Build Outcome := do
  match token with
  | .char '\x00' => ignore
  | .char c =>
    reconstructFormatting
    insertChar c
    unless isMarkupBlank c do forbidFrames
    return .done
  | .comment text => insertComment text
  | .doctype _ | .fault => ignore
  | .startTag tag => startInBody tag
  | .endTag tag => endInBody tag
  | .endOfFile => endInTemplate

/-- In a template, whose content may be that of a table or of a part of one. -/
def inTemplateRules (token : Token) : Build Outcome :=
  let enterAs (mode : Mode) : Build Outcome := do
    modify fun b => { b with templateModes := mode :: b.templateModes.drop 1 }
    againIn mode
  match token with
  | .startTag tag =>
    if headElements.contains tag.name then startInBody tag
    else if ["caption", "colgroup", "tbody", "tfoot", "thead"].contains tag.name then
      enterAs .inTable
    else if tag.name == "col" then enterAs .inColumnGroup
    else if tag.name == "tr" then enterAs .inTableBody
    else if tag.name == "td" || tag.name == "th" then enterAs .inRow
    else enterAs .inBody
  | .endTag tag => if tag.name == "template" then closeTemplate else ignore
  | .endOfFile => endInTemplate
  | _ => inBodyRules token

end Build

end MarkupQuery.Html
