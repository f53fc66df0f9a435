import MarkupQuery.Html.Builder.Body

/-!
# Tables

The rules for the parts of a table: captions, groups of columns and rows, rows and cells.  Missing
parts are implied, and what has no place between the parts goes before the table.
-/

namespace MarkupQuery.Html

open Text (isMarkupBlank)

namespace Build

/-- Follows the rules of the body, with what is inserted between the parts of the table put before
it. -/
def foster (token : Token) : Build Outcome := do
  modify ({ · with fostering := true })
  let outcome ← inBodyRules token
  modify ({ · with fostering := false })
  return outcome

/-- Opens a part of a table in the structure that it belongs to. -/
def insertPart (context : List String) (tag : Tag) (mode : Mode) : Build Outcome := do
  popTo context
  insert tag
  enter mode

/-- Opens a part that is not written. -/
def implyPart (context : List String) (name : String) (mode : Mode) : Build Outcome := do
  popTo context
  insertPlain name
  againIn mode

/-- Between the parts of a table. -/
def inTableRules (token : Token) : Build Outcome := do
  match token with
  | .char _ =>
    if ← currentIsOneOf ("template" :: tableStructure) then
      modify fun b => { b with tableText := [], returnMode := b.mode }
      againIn .inTableText
    else foster token
  | .comment text => insertComment text
  | .doctype _ | .fault => ignore
  | .startTag tag =>
    let name := tag.name
    if name == "caption" then
      popTo ["table"]
      pushMarker
      insert tag
      enter .inCaption
    else if name == "colgroup" then insertPart ["table"] tag .inColumnGroup
    else if name == "col" then implyPart ["table"] "colgroup" .inColumnGroup
    else if ["tbody", "tfoot", "thead"].contains name then insertPart ["table"] tag .inTableBody
    else if ["td", "th", "tr"].contains name then implyPart ["table"] "tbody" .inTableBody
    else if name == "table" then
      if ← inReach ["table"] .table then
        popThrough ["table"]
        resetMode
        return .again
      else ignore
    else if ["script", "style", "template"].contains name then inHeadRules token
    else if name == "input" && hidesField tag then insertVoid tag
    else if name == "form" then
      let b ← get
      unless b.hasOpen "template" || b.form.isSome do
        let id ← insertNew tag
        modify ({ · with form := some id })
        pop
      return .done
    else foster token
  | .endTag tag =>
    if tag.name == "table" then
      if ← inReach ["table"] .table then
        popThrough ["table"]
        resetMode
      return .done
    else if (["body", "html"] ++ tableParts).contains tag.name then ignore
    else if tag.name == "template" then closeTemplate
    else foster token
  | .endOfFile => inBodyRules token

/-- In text between the parts of a table.  Blank text stays where it is. -/
def inTableTextRules (token : Token) : Build Outcome := do
  match token with
  | .char '\x00' => ignore
  | .char c =>
    modify fun b => { b with tableText := c :: b.tableText }
    return .done
  | _ =>
    let text := (← get).tableText.reverse
    if text.all isMarkupBlank then text.forM insertChar
    else text.forM fun c => do
      let _ ← foster (.char c)
    againIn (← get).returnMode

/-- Closes a part of a table that is open within the table, with what is open inside it. -/
def closePart (names : List String) (mode : Mode) : Build Bool := do
  if ← inReach names .table then
    closeThrough names
    clearFormatting
    modify ({ · with mode })
    return true
  else return false

/-- In a caption. -/
def inCaptionRules (token : Token) : Build Outcome := do
  let closeBefore : Build Outcome := do
    if ← closePart ["caption"] .inTable then return .again else return .done
  match token with
  | .startTag tag => if tableParts.contains tag.name then closeBefore else inBodyRules token
  | .endTag tag =>
    if tag.name == "caption" then
      let _ ← closePart ["caption"] .inTable
      return .done
    else if tag.name == "table" then closeBefore
    else if (["body", "html"] ++ tableParts).contains tag.name then ignore
    else inBodyRules token
  | _ => inBodyRules token

/-- In a group of columns. -/
def inColumnGroupRules (token : Token) : Build Outcome := do
  let other : Build Outcome := do
    if ← currentIsOneOf ["colgroup"] then
      pop
      againIn .inTable
    else ignore
  match token with
  | .char c =>
    if isMarkupBlank c then
      insertChar c
      return .done
    else other
  | .comment text => insertComment text
  | .doctype _ | .fault => ignore
  | .startTag tag =>
    if tag.name == "html" then mergeIntoRoot tag
    else if tag.name == "col" then insertVoid tag
    else if tag.name == "template" then inHeadRules token
    else other
  | .endTag tag =>
    if tag.name == "colgroup" then
      if ← currentIsOneOf ["colgroup"] then
        pop
        enter .inTable
      else ignore
    else if tag.name == "col" then ignore
    else if tag.name == "template" then closeTemplate
    else other
  | .endOfFile => inBodyRules token

/-- The groups of rows. -/
def rowGroups : List String := ["tbody", "tfoot", "thead"]

/-- In a group of rows. -/
def inTableBodyRules (token : Token) : Build Outcome := do
  let closeBefore : Build Outcome := do
    if ← inReach rowGroups .table then
      popTo rowGroups
      pop
      againIn .inTable
    else ignore
  match token with
  | .startTag tag =>
    if tag.name == "tr" then insertPart rowGroups tag .inRow
    else if tag.name == "td" || tag.name == "th" then implyPart rowGroups "tr" .inRow
    else if (["caption", "col", "colgroup"] ++ rowGroups).contains tag.name then closeBefore
    else inTableRules token
  | .endTag tag =>
    if rowGroups.contains tag.name then
      if ← inReach [tag.name] .table then
        popTo rowGroups
        pop
        enter .inTable
      else ignore
    else if tag.name == "table" then closeBefore
    else if (["body", "html"] ++ tableParts).contains tag.name then ignore
    else inTableRules token
  | _ => inTableRules token

/-- In a row. -/
def inRowRules (token : Token) : Build Outcome := do
  let close (next : Outcome) : Build Outcome := do
    if ← inReach ["tr"] .table then
      popTo ["tr"]
      pop
      modify ({ · with mode := .inTableBody })
      return next
    else return .done
  match token with
  | .startTag tag =>
    if tag.name == "td" || tag.name == "th" then
      let outcome ← insertPart ["tr"] tag .inCell
      pushMarker
      return outcome
    else if tableParts.contains tag.name then close .again
    else inTableRules token
  | .endTag tag =>
    if tag.name == "tr" then close .done
    else if tag.name == "table" then close .again
    else if rowGroups.contains tag.name then
      if ← inReach [tag.name] .table then close .again else ignore
    else if (["body", "html"] ++ tableParts).contains tag.name then ignore
    else inTableRules token
  | _ => inTableRules token

/-- In a cell. -/
def inCellRules (token : Token) : Build Outcome := do
  let closeBefore : Build Outcome := do
    if ← closePart ["td", "th"] .inRow then return .again else return .done
  match token with
  | .startTag tag => if tableParts.contains tag.name then closeBefore else inBodyRules token
  | .endTag tag =>
    if tag.name == "td" || tag.name == "th" then
      let _ ← closePart [tag.name] .inRow
      return .done
    else if ["body", "caption", "col", "colgroup", "html"].contains tag.name then ignore
    else if tableStructure.contains tag.name then
      if ← inReach [tag.name] .table then closeBefore else ignore
    else inBodyRules token
  | _ => inBodyRules token

end Build

end MarkupQuery.Html
