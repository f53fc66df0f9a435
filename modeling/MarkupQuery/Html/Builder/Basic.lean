import MarkupQuery.Html.ElementClass
import MarkupQuery.Html.Token

/-!
# The state of a reader of markup

While tokens come in, the reader knows which elements are open, which formatting goes on, and in
which part of a document it is.  The stack of open elements is a list with the current node first,
and the list of formatting has its latest entry first.
-/

namespace MarkupQuery.Html

/-- The parts of a document, each of which has its own rules for tokens. -/
inductive Mode where
  | initial
  | beforeHtml
  | beforeHead
  | inHead
  | afterHead
  | inBody
  | text
  | inTable
  | inTableText
  | inCaption
  | inColumnGroup
  | inTableBody
  | inRow
  | inCell
  | inSelect
  | inSelectInTable
  | inTemplate
  | afterBody
  | inFrameset
  | afterFrameset
  | afterAfterBody
  | afterAfterFrameset
  deriving DecidableEq, Repr, Inhabited

/-- An entry of the list of formatting. -/
inductive Formatting where
  /-- What comes later belongs to an element that keeps its formatting to itself. -/
  | marker
  /-- A formatting element and the tag that it was made from. -/
  | element (id : DraftId) (tag : Tag)
  deriving Repr, Inhabited

structure Builder where
  draft : Draft
  mode : Mode
  /-- The mode to go back to after text. -/
  returnMode : Mode
  /-- The modes of the open templates, the innermost first. -/
  templateModes : List Mode
  openElements : List DraftId
  formatting : List Formatting
  head : Option DraftId
  form : Option DraftId
  /-- Whether the document can still turn out to be a set of frames. -/
  framesAllowed : Bool
  /-- Whether what has no place in a table goes before the table. -/
  fostering : Bool
  /-- The text between the parts of a table, the last character first. -/
  tableText : List Char
  /-- Whether a table can stand in a paragraph, as in documents of an old kind. -/
  tablesInParagraphs : Bool
  /-- How the text behind the last token is read. -/
  model : ContentModel
  /-- Whether a line feed is dropped if it comes next. -/
  skipsLineFeed : Bool
  /-- Whether a mark of the encoding is dropped if it comes next. -/
  skipsMark : Bool
  deriving Inhabited

namespace Builder

/-- The state before the first token. -/
def initial : Builder :=
  { draft := .empty
    mode := .initial
    returnMode := .initial
    templateModes := []
    openElements := []
    formatting := []
    head := none
    form := none
    framesAllowed := true
    fostering := false
    tableText := []
    tablesInParagraphs := false
    model := .markup
    skipsLineFeed := false
    skipsMark := true }

/-- Whether a node is an element of markup with one of the given tags. -/
def isOneOf (b : Builder) (tags : List String) (id : DraftId) : Bool :=
  match b.draft.element? id with
  | some (.html, tag) => tags.contains tag
  | _ => false

def currentIsOneOf (b : Builder) (tags : List String) : Bool :=
  b.openElements.head?.any (b.isOneOf tags)

/-- Whether an element with one of the given tags is open. -/
def hasOpen (b : Builder) (tag : String) : Bool :=
  b.openElements.any (b.isOneOf [tag])

/-- Whether a test finds an element before a reach ends. -/
def reaches (b : Builder) (reach : Reach) (found : DraftId → Bool) : List DraftId → Bool
  | [] => false
  | id :: rest =>
    if found id then true
    else if (b.draft.element? id).any fun e => reach.endsAt e.1 e.2 then false
    else b.reaches reach found rest

/-- Whether an element with one of the given tags is open within a reach. -/
def inReach (b : Builder) (tags : List String) (reach : Reach) : Bool :=
  b.reaches reach (b.isOneOf tags) b.openElements

/-- The element of the whole document. -/
def rootElement? (b : Builder) : Option DraftId := b.openElements.getLast?

/-- The element below the root of the document, if it is its body. -/
def body? (b : Builder) : Option DraftId :=
  (b.openElements.dropLast.getLast?).filter (b.isOneOf ["body"])

end Builder

/-- A change of a reader's state. -/
abbrev Build := StateM Builder

/-- What becomes of a token. -/
inductive Outcome where
  | done
  /-- The state has changed, and the token is to be looked at again. -/
  | again
  deriving DecidableEq, Repr, Inhabited

namespace Build

/-- Nothing happens. -/
def ignore : Build Outcome := pure .done

/-- Looks at a token again in another mode. -/
def againIn (mode : Mode) : Build Outcome := do
  modify ({ · with mode })
  return .again

def enter (mode : Mode) : Build Outcome := do
  modify ({ · with mode })
  return .done

def forbidFrames : Build Unit := modify ({ · with framesAllowed := false })

/-! ## The stack of open elements -/

/-- Whether an element with one of the given tags is open within a reach. -/
def inReach (tags : List String) (reach : Reach := .standard) : Build Bool := do
  return (← get).inReach tags reach

def hasOpen (tag : String) : Build Bool := do
  return (← get).hasOpen tag

def currentIsOneOf (tags : List String) : Build Bool := do
  return (← get).currentIsOneOf tags

/-- Closes the current node. -/
def pop : Build Unit := modify fun b => { b with openElements := b.openElements.drop 1 }

/-- Closes elements as long as a test holds of the current node. -/
def popWhile (test : Builder → DraftId → Bool) : Build Unit :=
  modify fun b => { b with openElements := b.openElements.dropWhile (test b) }

/-- Closes elements up to one with one of the given tags, and that one too. -/
def popThrough (tags : List String) : Build Unit := do
  popWhile fun b id => !b.isOneOf tags id
  pop

/-- Closes elements down to one with one of the given tags or the root. -/
def popTo (tags : List String) : Build Unit :=
  popWhile fun b id => !b.isOneOf ("html" :: "template" :: tags) id

/-- Closes elements whose end tags may be left out, except those with a given tag. -/
def closeImplied (spared : String := "") : Build Unit :=
  popWhile fun b id => b.isOneOf (impliedEnds.filter (· != spared)) id

/-- Closes elements whose end tags may be left out, and then up to one with one of the given
tags. -/
def closeThrough (tags : List String) (spared : String := "") : Build Unit := do
  closeImplied spared
  popThrough tags

/-- Closes an open paragraph. -/
def closeParagraph : Build Unit := do
  if ← inReach ["p"] .button then closeThrough ["p"] "p"

/-- Takes an element from the stack, wherever it is. -/
def removeOpen (id : DraftId) : Build Unit :=
  modify fun b => { b with openElements := b.openElements.filter (· != id) }

end Build

end MarkupQuery.Html
