import MarkupQuery.Tree.Reading

/-!
# Written markup

Nodes of a tree as markup.  The writer keeps a stack of pending work, nodes to write and end tags to
close, so that the depth of a tree costs no recursion.  Every node is written once and closed at
most once, which bounds the work.
-/

namespace MarkupQuery.Html

/-- The elements without content and end tag. -/
def voidElements : List String :=
  ["area", "base", "br", "col", "embed", "hr", "img", "input", "link", "meta", "param", "source",
   "track", "wbr"]

/-- The elements whose text is written as it stands. -/
def rawTextElements : List String :=
  ["script", "style", "xmp", "iframe", "noembed", "noframes", "plaintext"]

/-- A character of a text. -/
def escapeTextChar (c : Char) : List Char :=
  if c == '&' then "&amp;".toList
  else if c == '<' then "&lt;".toList
  else if c == '>' then "&gt;".toList
  else if c == '\u00a0' then "&nbsp;".toList
  else [c]

/-- A character of an attribute value, where a quote would end the value. -/
def escapeAttributeChar (c : Char) : List Char :=
  if c == '"' then "&quot;".toList else escapeTextChar c

def escapeText (s : String) : String :=
  String.ofList (s.toList.flatMap escapeTextChar)

def escapeAttribute (s : String) : String :=
  String.ofList (s.toList.flatMap escapeAttributeChar)

/-- A start tag with its attributes in order. -/
def startTag (tag : String) (attributes : List (String × String)) : String :=
  let written := attributes.map fun a => " " ++ a.1 ++ "=\"" ++ escapeAttribute a.2 ++ "\""
  "<" ++ tag ++ String.join written ++ ">"

def endTag (tag : String) : String := "</" ++ tag ++ ">"

def commentText (value : String) : String := "<!--" ++ value ++ "-->"

/-- A doctype, with the identifiers that are not empty. -/
def doctypeText (name publicId systemId : String) : String :=
  let quoted (s : String) : String := " \"" ++ s ++ "\""
  let identifiers :=
    if !publicId.isEmpty then
      " PUBLIC" ++ quoted publicId ++ (if systemId.isEmpty then "" else quoted systemId)
    else if !systemId.isEmpty then " SYSTEM" ++ quoted systemId
    else ""
  "<!DOCTYPE " ++ name ++ identifiers ++ ">"

def instructionText (target data : String) : String :=
  "<?" ++ target ++ (if data.isEmpty then "" else " " ++ data) ++ ">"

/-- Pending work of the writer. -/
inductive Frame where
  /-- A node to write. -/
  | node (id : NodeId)
  /-- An end tag to write. -/
  | close (tag : String)
  deriving DecidableEq, Repr

/-- The text of the text nodes among the children of a node, as it stands. -/
def rawText (t : Tree) (id : NodeId) : String :=
  String.join ((t.children id).filterMap fun child => (t.get? child).bind Node.text?)

/-- What a frame writes at once, and the work that is to be done next. -/
def Frame.visit (t : Tree) : Frame → String × List Frame
  | close tag => (endTag tag, [])
  | node id =>
    match (t.get? id).map Node.content with
    | none => ("", [])
    | some .document => ("", (t.children id).map node)
    | some (.doctype name publicId systemId) =>
      (doctypeText (t.resolve name) publicId systemId, [])
    | some (.text value) => (escapeText value, [])
    | some (.comment value) => (commentText value, [])
    | some (.instruction target data) => (instructionText (t.resolve target) data, [])
    | some (.element tag _) =>
      let tag := t.resolve tag
      let start := startTag tag (t.attributes id)
      if voidElements.contains tag then (start, [])
      else if rawTextElements.contains tag then (start ++ rawText t id, [close tag])
      else (start, (t.children id).map node ++ [close tag])

/-- Does pending work, the top of the stack first, and writes behind `out`. -/
def drain (t : Tree) : (bound : Nat) → List Frame → (out : String) → String
  | _, [], out => out
  | 0, _ :: _, out => out
  | bound + 1, frame :: stack, out =>
    let (text, frames) := frame.visit t
    drain t bound (frames ++ stack) (out ++ text)

/-- No node is written twice, and no element is closed twice. -/
def drainBound (t : Tree) : Nat := 2 * t.size

/-- A node with what is below it. -/
def outerMarkup (t : Tree) (id : NodeId) : String :=
  drain t (drainBound t) [.node id] ""

/-- What is below a node. -/
def innerMarkup (t : Tree) (id : NodeId) : String :=
  drain t (drainBound t) ((t.children id).map .node) ""

/-- A whole document: a line feed follows each doctype and ends a text that is not empty. -/
def documentMarkup (t : Tree) : String :=
  let write (child : NodeId) : String :=
    let isDoctype := (t.get? child).any (·.kind == .doctype)
    outerMarkup t child ++ (if isDoctype then "\n" else "")
  let text := String.join ((t.children Tree.root).map write)
  if text.isEmpty || text.endsWith "\n" then text else text ++ "\n"

end MarkupQuery.Html
