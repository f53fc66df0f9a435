import MarkupQuery.Html.Builder.Ending
import MarkupQuery.Html.Builder.Foreign
import MarkupQuery.Html.Builder.Select
import MarkupQuery.Html.Builder.Table

/-!
# Reading of markup

Any text is markup.  The reader takes tokens from the text one after another and follows the rules
of the part of the document that it is in; what elements are open decides how the next token is
read.
-/

namespace MarkupQuery.Html

namespace Build

/-- The rules of a part of a document. -/
def rulesOf : Mode → Token → Build Outcome
  | .initial => initialRules
  | .beforeHtml => beforeHtmlRules
  | .beforeHead => beforeHeadRules
  | .inHead => inHeadRules
  | .afterHead => afterHeadRules
  | .inBody => inBodyRules
  | .text => textRules
  | .inTable => inTableRules
  | .inTableText => inTableTextRules
  | .inCaption => inCaptionRules
  | .inColumnGroup => inColumnGroupRules
  | .inTableBody => inTableBodyRules
  | .inRow => inRowRules
  | .inCell => inCellRules
  | .inSelect => inSelectRules
  | .inSelectInTable => inSelectInTableRules
  | .inTemplate => inTemplateRules
  | .afterBody => afterBodyRules
  | .inFrameset => inFramesetRules
  | .afterFrameset => afterFramesetRules
  | .afterAfterBody => afterAfterBodyRules
  | .afterAfterFrameset => afterAfterFramesetRules

/-- Follows the rules for a token once. -/
def followOnce (token : Token) : Build Outcome := do
  let markup (token : Token) : Build Outcome := do rulesOf (← get).mode token
  if (← get).readsAsForeign token then foreignRules markup token else markup token

/-- Follows the rules for a token at most `times` times. -/
def follow (token : Token) : (times : Nat) → Build Unit
  | 0 => pure ()
  | times + 1 => do
    if (← followOnce token) = .again then follow token times

/-- A token is looked at again when elements have been closed or when a later part of the document
has begun, so the open elements bound how often. -/
def followBound (b : Builder) : Nat :=
  4 * (b.openElements.length + b.templateModes.length) + 32

/-- Whether nothing comes of a token whatever is open: a fault, a doctype behind the start of the
document, or a line feed that is dropped. -/
def drops (b : Builder) : Token → Bool
  | .fault => true
  | .doctype _ => b.mode ≠ .initial
  | .char c => b.skipsLineFeed && c == '\n'
  | _ => false

/-- Takes a token in. -/
def feed (token : Token) : Build Unit := do
  let b ← get
  set { b with skipsLineFeed := false }
  unless drops b token do
    if (← followOnce token) = .again then follow token (followBound (← get))

/-- Takes in the tokens of a text.  No text has more tokens than characters. -/
def feedText : (bound : Nat) → List Char → Build Unit
  | 0, _ => pure ()
  | _, [] => pure ()
  | bound + 1, cs => do
    let b ← get
    set { b with skipsMark := false }
    let (tokens, rest) := b.model.read b.currentIsForeign (if b.skipsMark then dropMark cs else cs)
    tokens.forM feed
    feedText bound rest

end Build

/-- The nodes of the document that a text stands for. -/
def readNodes (text : String) : List Node :=
  let cs := normalizeLines text.toList
  let read : Build Unit := do
    Build.feedText (cs.length + 1) cs
    Build.feed .endOfFile
  (read Builder.initial).2.draft.toNodes

end MarkupQuery.Html
