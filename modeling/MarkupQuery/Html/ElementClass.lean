import MarkupQuery.Html.Draft

/-!
# Classes of elements

Which elements are treated alike while markup is read: those with a place of their own in the
structure of a document, those whose end tags may be left out, and those that hide what is outside
from what is inside.
-/

namespace MarkupQuery.Html

/-- The elements in which the parts of formulas that are plain text stand. -/
def formulaTexts : List String := ["mi", "mo", "mn", "ms", "mtext"]

/-- The elements of drawings with markup inside. -/
def drawingTexts : List String := ["foreignObject", "desc", "title"]

def headings : List String := ["h1", "h2", "h3", "h4", "h5", "h6"]

/-- The elements with rules of their own. -/
def specialElements : List String :=
  ["address", "applet", "area", "article", "aside", "base", "basefont", "bgsound", "blockquote",
   "body", "br", "button", "caption", "center", "col", "colgroup", "dd", "details", "dir", "div",
   "dl", "dt", "embed", "fieldset", "figcaption", "figure", "footer", "form", "frame", "frameset",
   "h1", "h2", "h3", "h4", "h5", "h6", "head", "header", "hgroup", "hr", "html", "iframe", "img",
   "input", "isindex", "keygen", "li", "link", "listing", "main", "marquee", "menu", "meta", "nav",
   "noembed", "noframes", "noscript", "object", "ol", "p", "param", "plaintext", "pre", "script",
   "section", "select", "source", "style", "summary", "table", "tbody", "td", "template",
   "textarea", "tfoot", "th", "thead", "title", "tr", "track", "ul", "wbr", "xmp"]

/-- Whether an element has rules of its own, which other end tags cannot cross.  No element of a
drawing or formula has. -/
def isSpecial (space : Namespace) (tag : String) : Bool :=
  space = .html && specialElements.contains tag

/-- Whether an element of a drawing or formula has markup or text inside, whatever its
attributes. -/
def holdsContent (space : Namespace) (tag : String) : Bool :=
  match space with
  | .html => false
  | .svg => drawingTexts.contains tag
  | .mathml => formulaTexts.contains tag

/-- How far up an open element is looked for. -/
inductive Reach where
  | standard
  | listItem
  | button
  | table
  /-- Within a list of choices: through groups and choices only. -/
  | choices
  deriving DecidableEq, Repr

/-- Whether nothing is looked for above an element. -/
def Reach.endsAt (reach : Reach) (space : Namespace) (tag : String) : Bool :=
  match reach, space with
  | table, .html => ["html", "table", "template"].contains tag
  | table, _ => false
  | choices, .html => tag != "optgroup" && tag != "option"
  | choices, _ => true
  | _, .svg | _, .mathml => holdsContent space tag
  | _, .html =>
    ["applet", "caption", "html", "table", "td", "th", "marquee", "object",
      "template"].contains tag ||
    match reach with
    | listItem => tag == "ol" || tag == "ul"
    | button => tag == "button"
    | _ => false

/-- The elements whose end tags may be left out. -/
def impliedEnds : List String :=
  ["dd", "dt", "li", "optgroup", "option", "p", "rb", "rp", "rt", "rtc"]

/-- The elements whose end tags may be left out at the end of a template. -/
def impliedTemplateEnds : List String :=
  impliedEnds ++ ["caption", "colgroup", "tbody", "td", "tfoot", "th", "thead", "tr"]

/-- The elements that stand in the head of a document. -/
def headElements : List String :=
  ["base", "basefont", "bgsound", "link", "meta", "noframes", "script", "style", "template",
   "title"]

/-- The elements that end an open paragraph when they start. -/
def blockElements : List String :=
  ["address", "article", "aside", "blockquote", "center", "details", "dialog", "dir", "div", "dl",
   "fieldset", "figcaption", "figure", "footer", "header", "hgroup", "main", "menu", "nav", "ol",
   "p", "search", "section", "summary", "ul"]

/-- The elements whose end tags close what is open inside them. -/
def closingElements : List String :=
  ["address", "article", "aside", "blockquote", "button", "center", "details", "dialog", "dir",
   "div", "dl", "fieldset", "figcaption", "figure", "footer", "header", "hgroup", "listing", "main",
   "menu", "nav", "ol", "pre", "search", "section", "summary", "ul"]

/-- The elements that are opened again when others close them too early. -/
def formattingElements : List String :=
  ["a", "b", "big", "code", "em", "font", "i", "nobr", "s", "small", "strike", "strong", "tt", "u"]

/-- The parts of tables. -/
def tableParts : List String :=
  ["caption", "col", "colgroup", "tbody", "td", "tfoot", "th", "thead", "tr"]

/-- The elements in which text has no place between the parts of a table. -/
def tableStructure : List String := ["table", "tbody", "tfoot", "thead", "tr"]

/-- The elements that end a drawing or a formula when they start inside it. -/
def breakoutElements : List String :=
  ["b", "big", "blockquote", "body", "br", "center", "code", "dd", "div", "dl", "dt", "em", "embed",
   "h1", "h2", "h3", "h4", "h5", "h6", "head", "hr", "i", "img", "li", "listing", "menu", "meta",
   "nobr", "ol", "p", "pre", "ruby", "s", "small", "span", "strong", "strike", "sub", "sup",
   "table", "tt", "u", "ul", "var"]

end MarkupQuery.Html
