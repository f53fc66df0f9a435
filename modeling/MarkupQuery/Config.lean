/-!
# Configuration

What can be chosen for a document: which attributes hold lists of words, and whether texts that are
blank are kept.
-/

namespace MarkupQuery

/-- The attributes whose value is a list of words by default. -/
def defaultListAttributes : List String :=
  ["accept-charset", "accesskey", "archive", "class", "dropzone", "for", "headers", "rel", "rev",
   "sandbox", "sizes"]

structure Config where
  /-- The attributes that are searched for words and not for their whole value. -/
  listAttributes : List String := defaultListAttributes
  /-- Whether texts made of nothing but blanks stay in the tree. -/
  keepBlankText : Bool := true
  deriving DecidableEq, Repr, Inhabited

/-- Whether an attribute holds a list of words. -/
def Config.isListAttribute (config : Config) (name : String) : Bool :=
  config.listAttributes.contains name

end MarkupQuery
