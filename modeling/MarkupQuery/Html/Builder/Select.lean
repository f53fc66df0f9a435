import MarkupQuery.Html.Builder.Body

/-!
# Lists of choices

A list of choices holds choices, groups of them, lines between them and text.  Other tags are
dropped inside it, except for controls and parts of tables that close the list, and for scripts and
templates.
-/

namespace MarkupQuery.Html

namespace Build

/-- Closes the current node if it has one of the given tags. -/
def popIf (tags : List String) : Build Unit := do
  if ← currentIsOneOf tags then pop

/-- Closes the innermost list of choices and goes back to the mode around it. -/
def leaveSelect : Build Unit := do
  popThrough ["select"]
  resetMode

/-- Closes a list of choices and looks at what comes again, unless no list is open. -/
def leaveSelectBefore : Build Outcome := do
  if ← inReach ["select"] .choices then
    leaveSelect
    return .again
  else ignore

/-- Closes a list of choices at its end tag or at the start of another list. -/
def closeSelect : Build Outcome := do
  if ← inReach ["select"] .choices then leaveSelect
  return .done

/-- Closes a group of choices, with the choice that is open in it. -/
def closeGroup : Build Outcome := do
  let b ← get
  if b.currentIsOneOf ["option"] && (b.openElements.drop 1).head?.any (b.isOneOf ["optgroup"]) then
    pop
  popIf ["optgroup"]
  return .done

/-- A start tag in a list of choices. -/
def startInSelect (tag : Tag) : Build Outcome := do
  let name := tag.name
  if name == "html" then mergeIntoRoot tag
  else if name == "option" then
    popIf ["option"]
    insert tag
    return .done
  else if name == "optgroup" then
    popIf ["option"]
    popIf ["optgroup"]
    insert tag
    return .done
  else if name == "hr" then
    popIf ["option"]
    popIf ["optgroup"]
    insertVoid tag
  else if name == "select" then closeSelect
  else if ["input", "keygen", "textarea"].contains name then leaveSelectBefore
  else if ["script", "template"].contains name then startInBody tag
  else ignore

/-- An end tag in a list of choices. -/
def endInSelect (tag : Tag) : Build Outcome := do
  if tag.name == "optgroup" then closeGroup
  else if tag.name == "option" then
    popIf ["option"]
    return .done
  else if tag.name == "select" then closeSelect
  else if tag.name == "template" then closeTemplate
  else ignore

/-- In a list of choices. -/
def inSelectRules (token : Token) : Build Outcome := do
  match token with
  | .char '\x00' => ignore
  | .char c =>
    insertChar c
    return .done
  | .comment text => insertComment text
  | .doctype _ | .fault => ignore
  | .startTag tag => startInSelect tag
  | .endTag tag => endInSelect tag
  | .endOfFile => inBodyRules token

/-- In a list of choices in a table, which the parts of the table close. -/
def inSelectInTableRules (token : Token) : Build Outcome := do
  let parts := ["caption", "table", "tbody", "td", "tfoot", "th", "thead", "tr"]
  let leave : Build Outcome := do
    leaveSelect
    return .again
  match token with
  | .startTag tag => if parts.contains tag.name then leave else inSelectRules token
  | .endTag tag =>
    if parts.contains tag.name then
      if ← inReach [tag.name] .table then leave else ignore
    else inSelectRules token
  | _ => inSelectRules token

end Build

end MarkupQuery.Html
