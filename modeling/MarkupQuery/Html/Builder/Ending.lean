import MarkupQuery.Html.Builder.Body

/-!
# Frames and the end of a document

What may still come after the body, and documents that are sets of frames.
-/

namespace MarkupQuery.Html

open Text (isMarkupBlank)

namespace Build

/-- After the body.  Blanks still belong to it, and so does anything else that is no comment. -/
def afterBodyRules (token : Token) : Build Outcome := do
  match token with
  | .char c => if isMarkupBlank c then inBodyRules token else againIn .inBody
  | .comment text =>
    match (← get).rootElement? with
    | some root => insertCommentIn root text
    | none => ignore
  | .doctype _ | .fault => ignore
  | .startTag tag => if tag.name == "html" then mergeIntoRoot tag else againIn .inBody
  | .endTag tag => if tag.name == "html" then enter .afterAfterBody else againIn .inBody
  | .endOfFile => return .done

/-- After the root element. -/
def afterAfterBodyRules (token : Token) : Build Outcome := do
  match token with
  | .char c => if isMarkupBlank c then inBodyRules token else againIn .inBody
  | .comment text => insertCommentIn Draft.documentId text
  | .doctype _ | .fault => ignore
  | .startTag tag => if tag.name == "html" then mergeIntoRoot tag else againIn .inBody
  | .endTag _ => againIn .inBody
  | .endOfFile => return .done

/-- What blanks, comments, the tags of the root and text without frames come to wherever there are
frames; nothing comes of other tokens. -/
def framesRules (token : Token) : Build Outcome := do
  match token with
  | .char c =>
    if isMarkupBlank c then insertChar c
    return .done
  | .comment text => insertComment text
  | .startTag tag =>
    if tag.name == "html" then mergeIntoRoot tag
    else if tag.name == "noframes" then inHeadRules token
    else ignore
  | _ => ignore

/-- In a set of frames. -/
def inFramesetRules (token : Token) : Build Outcome := do
  match token with
  | .startTag tag =>
    if tag.name == "frameset" then
      insert tag
      return .done
    else if tag.name == "frame" then insertVoid tag
    else framesRules token
  | .endTag tag =>
    if tag.name == "frameset" && !(← currentIsOneOf ["html"]) then
      pop
      if ← currentIsOneOf ["frameset"] then return .done else enter .afterFrameset
    else ignore
  | _ => framesRules token

/-- After the outermost set of frames. -/
def afterFramesetRules (token : Token) : Build Outcome := do
  match token with
  | .endTag tag => if tag.name == "html" then enter .afterAfterFrameset else ignore
  | _ => framesRules token

/-- After the root of a document of frames. -/
def afterAfterFramesetRules (token : Token) : Build Outcome := do
  match token with
  | .char c => if isMarkupBlank c then inBodyRules token else ignore
  | .comment text => insertCommentIn Draft.documentId text
  | _ => framesRules token

end Build

end MarkupQuery.Html
