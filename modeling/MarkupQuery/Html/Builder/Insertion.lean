import MarkupQuery.Html.Builder.Basic
import MarkupQuery.Html.ForeignName

/-!
# Insertion of nodes

New nodes go behind the last child of the current node.  What stands inside a template goes into the
template's fragment, and what has no place between the parts of a table goes before the table.
-/

namespace MarkupQuery.Html

namespace Builder

/-- The place at the end of what stands inside an element. -/
def endOf (b : Builder) (id : DraftId) : Place :=
  .lastChild ((b.draft.get id).fragment.getD id)

/-- The place for what is moved out of a table: before the innermost open table, or in the element
outside it when the table has no parent.  The fragment of a template further inside comes first. -/
def fosterPlace (b : Builder) : List DraftId → Option Place
  | [] => none
  | [root] => some (b.endOf root)
  | id :: outer :: rest =>
    if b.isOneOf ["template"] id then some (b.endOf id)
    else if b.isOneOf ["table"] id then
      if (b.draft.get id).parent.isSome then some (.before id) else some (b.endOf outer)
    else b.fosterPlace (outer :: rest)

/-- The place for a new node that is to stand in `target`. -/
def placeIn (b : Builder) (target : DraftId) : Place :=
  if b.fostering && b.isOneOf tableStructure target then
    (b.fosterPlace b.openElements).getD (b.endOf target)
  else b.endOf target

/-- The place for a new node. -/
def place (b : Builder) : Place :=
  b.placeIn (b.openElements.head?.getD Draft.documentId)

end Builder

namespace Build

/-- Adds a node without a parent to the draft. -/
def create (content : DraftContent) : Build DraftId := do
  let id := (← get).draft.nodes.size
  modify fun b => { b with draft := (b.draft.create content).2 }
  return id

def put (place : Place) (id : DraftId) : Build Unit :=
  modify fun b => { b with draft := b.draft.put place id }

def insertChar (c : Char) : Build Unit :=
  modify fun b =>
    let place := b.place
    { b with draft := b.draft.addChar place c }

def insertComment (text : String) : Build Outcome := do
  let id ← create (.comment text)
  put (← get).place id
  return .done

/-- Adds a comment to the end of a node. -/
def insertCommentIn (parent : DraftId) (text : String) : Build Outcome := do
  put (.lastChild parent) (← create (.comment text))
  return .done

/-- Makes the element of a tag. -/
def createElement (space : Namespace) (tag : Tag) : Build DraftId := do
  let id ← create (.element space tag.name tag.attributes)
  if space = .html && tag.name == "template" then
    let fragment ← create .fragment
    modify fun b =>
      { b with draft := b.draft.modify id ({ · with fragment := some fragment }) }
  return id

/-- Inserts and opens the element of a tag at a place. -/
def openAt (place : Place) (space : Namespace) (tag : Tag) : Build DraftId := do
  let id ← createElement space tag
  put place id
  modify fun b => { b with openElements := id :: b.openElements }
  return id

/-- Inserts and opens the element of a tag. -/
def insertNew (tag : Tag) : Build DraftId := do
  openAt (← get).place .html tag

def insert (tag : Tag) : Build Unit := do
  let _ ← insertNew tag

/-- Inserts and opens an element without attributes. -/
def insertPlain (name : String) : Build Unit := insert ⟨name, [], false⟩

/-- Inserts an element with nothing inside. -/
def insertVoid (tag : Tag) : Build Outcome := do
  insert tag
  pop
  return .done

/-- Inserts an element of a drawing or formula. -/
def insertForeign (space : Namespace) (tag : Tag) : Build Outcome := do
  let _ ← openAt (← get).place space (tag.adjusted space)
  if tag.selfClosing then pop
  return .done

/-- Inserts an element whose content is text of the given kind. -/
def insertTextElement (model : ContentModel) (tag : Tag) : Build Outcome := do
  insert tag
  modify fun b => { b with model, returnMode := b.mode, mode := .text }
  return .done

/-- Gives the root of the document the attributes that it does not have yet. -/
def mergeIntoRoot (tag : Tag) : Build Outcome := do
  unless ← hasOpen "template" do
    modify fun b =>
      match b.rootElement? with
      | some root => { b with draft := b.draft.addMissingAttributes root tag.attributes }
      | none => b
  return .done

/-! ## The end of templates, and the mode that open elements ask for -/

/-- The mode for a list of choices inside the given elements. -/
def modeForSelect (b : Builder) (outside : List DraftId) : Mode :=
  match outside.find? (b.isOneOf ["table", "template"]) with
  | some id => if b.isOneOf ["table"] id then .inSelectInTable else .inSelect
  | none => .inSelect

/-- The mode for the open elements: that of the innermost one that stands for a part of a
document. -/
def modeFor (b : Builder) : List DraftId → Mode
  | [] => .inBody
  | id :: rest =>
    let outer : Bool := rest.isEmpty
    match b.draft.element? id with
    | some (.html, tag) =>
      if tag == "html" then if b.head.isNone then .beforeHead else .afterHead
      else if outer then .inBody
      else if tag == "select" then modeForSelect b rest
      else if tag == "td" || tag == "th" then .inCell
      else if tag == "tr" then .inRow
      else if tag == "tbody" || tag == "thead" || tag == "tfoot" then .inTableBody
      else if tag == "caption" then .inCaption
      else if tag == "colgroup" then .inColumnGroup
      else if tag == "table" then .inTable
      else if tag == "template" then b.templateModes.headD .inBody
      else if tag == "head" then .inHead
      else if tag == "body" then .inBody
      else if tag == "frameset" then .inFrameset
      else modeFor b rest
    | _ => modeFor b rest

/-- Goes to the mode for the open elements. -/
def resetMode : Build Unit :=
  modify fun b => { b with mode := modeFor b b.openElements }

/-- Forgets the formatting inside the innermost element that keeps its formatting to itself. -/
def clearFormatting : Build Unit :=
  modify fun b =>
    let isElement : Formatting → Bool
      | .element .. => true
      | .marker => false
    { b with formatting := (b.formatting.dropWhile isElement).drop 1 }

/-- Begins to keep formatting inside the current node. -/
def pushMarker : Build Unit :=
  modify fun b => { b with formatting := .marker :: b.formatting }

/-- Leaves the innermost template. -/
def leaveTemplate : Build Unit := do
  popThrough ["template"]
  clearFormatting
  modify fun b => { b with templateModes := b.templateModes.drop 1 }
  resetMode

/-- What happens at the end of the text when templates may be open. -/
def endInTemplate : Build Outcome := do
  if ← hasOpen "template" then
    leaveTemplate
    return .again
  else return .done

end Build

end MarkupQuery.Html
