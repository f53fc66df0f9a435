import MarkupQuery.Html.Builder.Insertion

/-!
# Formatting across elements

Formatting that is still on when its element is closed by another is opened again where text or an
element follows.  An end tag of formatting that is crossed by other elements is made to fit: the
formatting is closed in front of them and opened again inside.
-/

namespace MarkupQuery.Html

namespace Formatting

def isMarker : Formatting → Bool
  | marker => true
  | element .. => false

def id? : Formatting → Option DraftId
  | marker => none
  | element id _ => some id

/-- Whether an entry comes from a tag equal to the given one, the order of attributes aside. -/
def isFrom (tag : Tag) : Formatting → Bool
  | marker => false
  | element _ made =>
    made.name == tag.name && made.attributes.length == tag.attributes.length &&
      made.attributes.all tag.attributes.contains

end Formatting

namespace Build

open Formatting (isMarker)

/-- The entries of the list of formatting that are not kept apart by a marker. -/
def liveFormatting (b : Builder) : List Formatting :=
  b.formatting.takeWhile fun entry => !entry.isMarker

/-- The last formatting element with a tag. -/
def liveElement? (name : String) (b : Builder) : Option (DraftId × Tag) :=
  (liveFormatting b).findSome? fun entry =>
    match entry with
    | .element id tag => if tag.name == name then some (id, tag) else none
    | .marker => none

/-- Whether an entry is for the element with the given number. -/
def isFor (id : DraftId) (entry : Formatting) : Bool := entry.id? == some id

def isFormatting (b : Builder) (id : DraftId) : Bool := b.formatting.any (isFor id)

def forget (id : DraftId) : Build Unit :=
  modify fun b => { b with formatting := b.formatting.filter fun entry => !isFor id entry }

/-- Opens a formatting element.  At most three equal ones are kept. -/
def insertFormatting (tag : Tag) : Build Outcome := do
  let id ← insertNew tag
  let equals := (liveFormatting (← get)).filter (Formatting.isFrom tag)
  if 3 ≤ equals.length then
    match equals.getLast?.bind Formatting.id? with
    | some oldest => forget oldest
    | none => pure ()
  modify fun b => { b with formatting := .element id tag :: b.formatting }
  return .done

/-- Opens the elements of entries again, the first one outermost, and gives the new entries with the
last one first. -/
def reopen (opened : List Formatting) : List Formatting → Build (List Formatting)
  | [] => pure opened
  | .marker :: rest => reopen opened rest
  | .element _ tag :: rest => do
    let id ← insertNew tag
    reopen (.element id tag :: opened) rest

/-- Opens all formatting again that goes on and has no open element. -/
def reconstructFormatting : Build Unit := do
  let b ← get
  let isOpen (entry : Formatting) : Bool := entry.id?.any b.openElements.contains
  let isStale (entry : Formatting) : Bool := !entry.isMarker && !isOpen entry
  let fresh ← reopen [] (b.formatting.takeWhile isStale).reverse
  modify fun b => { b with formatting := fresh ++ b.formatting.drop fresh.length }

/-- Closes the innermost open element with a tag and what is open inside it, unless an element with
rules of its own is in between. -/
def closeOrdinary (name : String) : Build Outcome := do
  let b ← get
  let stops (id : DraftId) : Bool :=
    b.isOneOf [name] id || (b.draft.element? id).any fun e => isSpecial e.1 e.2
  match b.openElements.find? stops with
  | some id =>
    if b.isOneOf [name] id then
      closeImplied name
      popWhile fun _ other => other != id
      pop
  | none => pure ()
  return .done

/-! ## Crossed formatting -/

/-- What a walk from the block that crosses formatting up to the formatting element has done. -/
structure Weaving where
  /-- The node that is to be put into the next one. -/
  inner : DraftId
  /-- The open elements that stay, the outermost first. -/
  staying : List DraftId
  /-- The entry behind which the formatting is entered again. -/
  bookmark : Option DraftId

/-- Goes over the open elements between the block and the formatting element, from the inside out:
the first three that are formatting are made anew around what has been put together, and the
others are closed. -/
def weave (block : DraftId) : (count : Nat) → Weaving → List DraftId → Build Weaving
  | _, w, [] => pure w
  | count, w, id :: rest => do
    let b ← get
    match b.formatting.find? (isFor id) with
    | some (.element _ tag) =>
      if 3 ≤ count then
        forget id
        weave block (count + 1) w rest
      else
        let fresh ← createElement .html tag
        modify fun b =>
          { b with
            formatting := b.formatting.map fun entry =>
              if isFor id entry then .element fresh tag else entry }
        put (.lastChild fresh) w.inner
        let bookmark := if w.inner = block then some fresh else w.bookmark
        weave block (count + 1) ⟨fresh, fresh :: w.staying, bookmark⟩ rest
    | _ => weave block (count + 1) w rest

/-- Enters formatting behind the entry of `bookmark` and takes out its former entry; without a
bookmark it takes that entry's place. -/
def renewEntry (former : DraftId) (bookmark : Option DraftId) (entry : Formatting)
    (list : List Formatting) : List Formatting :=
  match bookmark with
  | none => list.map fun e => if isFor former e then entry else e
  | some mark =>
    (list.flatMap fun e => if isFor mark e then [entry, e] else [e]).filter fun e =>
      !isFor former e

/-- Closes formatting in front of the outermost block inside it and opens it again in the block. -/
def crossBlock (formatting : DraftId) (tag : Tag) (block : DraftId) : Build Unit := do
  let b ← get
  let inside := b.openElements.takeWhile (· != block)
  let between := ((b.openElements.dropWhile (· != block)).drop 1).takeWhile (· != formatting)
  let outside := (b.openElements.dropWhile (· != formatting)).drop 1
  let w ← weave block 0 ⟨block, [], none⟩ between
  match outside.head? with
  | some ancestor => put ((← get).placeIn ancestor) w.inner
  | none => pure ()
  let fresh ← createElement .html tag
  modify fun b =>
    let draft := b.draft.moveChildren block fresh
    { b with
      draft := draft.put (.lastChild block) fresh
      formatting := renewEntry formatting w.bookmark (.element fresh tag) b.formatting
      openElements := inside ++ fresh :: block :: w.staying.reverse ++ outside }

/-- One round of closing formatting.  It answers whether another round is to follow. -/
def closeFormattingOnce (name : String) : Build Bool := do
  let b ← get
  match liveElement? name b with
  | none =>
    let _ ← closeOrdinary name
    return false
  | some (id, tag) =>
    if !b.openElements.contains id then
      forget id
      return false
    else if !b.reaches .standard (· == id) b.openElements then return false
    else
      let above := b.openElements.takeWhile (· != id)
      let isBlock (id : DraftId) : Bool :=
        (b.draft.element? id).any fun e => isSpecial e.1 e.2
      match (above.filter isBlock).getLast? with
      | none =>
        popWhile fun _ other => other != id
        pop
        forget id
        return false
      | some block =>
        crossBlock id tag block
        return true

/-- Closes formatting in at most the given number of rounds. -/
def closeFormattingIn (name : String) : (rounds : Nat) → Build Unit
  | 0 => pure ()
  | rounds + 1 => do
    if ← closeFormattingOnce name then closeFormattingIn name rounds

/-- Closes formatting at its end tag. -/
def closeFormatting (name : String) : Build Outcome := do
  let b ← get
  let isPlain := b.openElements.head?.any fun id => b.isOneOf [name] id && !isFormatting b id
  if isPlain then pop else closeFormattingIn name 8
  return .done

end Build

end MarkupQuery.Html
