import MarkupQuery.Html.Conversion
import MarkupQuery.Html.Reader

/-!
# Trees of markup texts
-/

namespace MarkupQuery.Html

/-- The tree of the document that a text stands for.  Every text has one. -/
def parse (text : String) (keepBlank : Bool := true) : Tree :=
  treeOfNodes keepBlank (readNodes text)

end MarkupQuery.Html
