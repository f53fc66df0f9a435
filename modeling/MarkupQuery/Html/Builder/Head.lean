import MarkupQuery.Html.Builder.Insertion
import MarkupQuery.Html.OldDoctype

/-!
# The start of a document and its head

What comes before the content of a document: the doctype, the root element and the head.  Elements
that are not written are implied.
-/

namespace MarkupQuery.Html

open Text (isMarkupBlank)

namespace Build

/-- The end tags that imply the elements that are missing before them. -/
def implyingEnds : List String := ["head", "body", "html", "br"]

/-- Before the doctype. -/
def initialRules (token : Token) : Build Outcome :=
  let other : Build Outcome := do
    modify ({ · with tablesInParagraphs := true })
    againIn .beforeHtml
  match token with
  | .char c => if isMarkupBlank c then ignore else other
  | .comment text => insertCommentIn Draft.documentId text
  | .doctype doctype => do
    let id ← create (.doctype (doctype.name.getD "") (doctype.publicId.getD "")
      (doctype.systemId.getD ""))
    put (.lastChild Draft.documentId) id
    modify ({ · with tablesInParagraphs := doctype.isOld })
    enter .beforeHtml
  | .fault => ignore
  | _ => other

/-- Opens the root of the document. -/
def openRoot (tag : Tag) : Build Unit := do
  let _ ← openAt (.lastChild Draft.documentId) .html tag

/-- Before the root element. -/
def beforeHtmlRules (token : Token) : Build Outcome :=
  let other : Build Outcome := do
    openRoot ⟨"html", [], false⟩
    againIn .beforeHead
  match token with
  | .char c => if isMarkupBlank c then ignore else other
  | .comment text => insertCommentIn Draft.documentId text
  | .doctype _ | .fault => ignore
  | .startTag tag =>
    if tag.name == "html" then do
      openRoot tag
      enter .beforeHead
    else other
  | .endTag tag => if implyingEnds.contains tag.name then other else ignore
  | .endOfFile => other

/-- Opens the head. -/
def openHead (tag : Tag) : Build Unit := do
  let id ← insertNew tag
  modify ({ · with head := some id })

/-- Before the head. -/
def beforeHeadRules (token : Token) : Build Outcome :=
  let other : Build Outcome := do
    openHead ⟨"head", [], false⟩
    againIn .inHead
  match token with
  | .char c => if isMarkupBlank c then ignore else other
  | .comment text => insertComment text
  | .doctype _ | .fault => ignore
  | .startTag tag =>
    if tag.name == "html" then mergeIntoRoot tag
    else if tag.name == "head" then do
      openHead tag
      enter .inHead
    else other
  | .endTag tag => if implyingEnds.contains tag.name then other else ignore
  | .endOfFile => other

/-- Opens a template. -/
def openTemplate (tag : Tag) : Build Outcome := do
  insert tag
  pushMarker
  forbidFrames
  modify fun b => { b with templateModes := .inTemplate :: b.templateModes }
  enter .inTemplate

/-- Closes the innermost template. -/
def closeTemplate : Build Outcome := do
  if ← hasOpen "template" then
    popWhile fun b id => b.isOneOf impliedTemplateEnds id
    leaveTemplate
  return .done

/-- Starts an element that stands in the head, if the tag is of that kind. -/
def startHeadElement? (tag : Tag) : Option (Build Outcome) :=
  let name := tag.name
  if ["base", "basefont", "bgsound", "link", "meta"].contains name then some (insertVoid tag)
  else if name == "title" then some (insertTextElement (.escapableText name) tag)
  else if name == "noframes" || name == "style" then some (insertTextElement (.rawText name) tag)
  else if name == "script" then some (insertTextElement (.script name) tag)
  else if name == "template" then some (openTemplate tag)
  else none

/-- In the head. -/
def inHeadRules (token : Token) : Build Outcome :=
  let other : Build Outcome := do
    pop
    againIn .afterHead
  match token with
  | .char c =>
    if isMarkupBlank c then do
      insertChar c
      return .done
    else other
  | .comment text => insertComment text
  | .doctype _ | .fault => ignore
  | .startTag tag =>
    match startHeadElement? tag with
    | some start => start
    | none =>
      if tag.name == "html" then mergeIntoRoot tag
      else if tag.name == "noscript" then insertTextElement (.rawText "noscript") tag
      else if tag.name == "head" then ignore
      else other
  | .endTag tag =>
    if tag.name == "head" then do
      pop
      enter .afterHead
    else if tag.name == "template" then closeTemplate
    else if implyingEnds.contains tag.name then other
    else ignore
  | .endOfFile => other

/-- After the head.  What belongs into the head still goes there. -/
def afterHeadRules (token : Token) : Build Outcome :=
  let other : Build Outcome := do
    insertPlain "body"
    againIn .inBody
  match token with
  | .char c =>
    if isMarkupBlank c then do
      insertChar c
      return .done
    else other
  | .comment text => insertComment text
  | .doctype _ | .fault => ignore
  | .startTag tag =>
    match startHeadElement? tag, tag.name with
    | some start, _ => do
      match (← get).head with
      | none => start
      | some head =>
        modify fun b => { b with openElements := head :: b.openElements }
        let outcome ← start
        removeOpen head
        return outcome
    | none, "html" => mergeIntoRoot tag
    | none, "body" => do
      insert tag
      forbidFrames
      enter .inBody
    | none, "frameset" => do
      insert tag
      enter .inFrameset
    | none, "head" => ignore
    | none, _ => other
  | .endTag tag =>
    if tag.name == "template" then closeTemplate
    else if tag.name != "head" && implyingEnds.contains tag.name then other
    else ignore
  | .endOfFile => other

/-- In an element whose content is text.  Reading starts afresh behind a script. -/
def textRules (token : Token) : Build Outcome := do
  match token with
  | .char c =>
    insertChar c
    return .done
  | .endOfFile =>
    pop
    againIn (← get).returnMode
  | .endTag tag =>
    pop
    modify ({ · with model := .markup, skipsMark := tag.name == "script" })
    enter (← get).returnMode
  | _ => ignore

end Build

end MarkupQuery.Html
