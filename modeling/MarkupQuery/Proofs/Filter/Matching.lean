import MarkupQuery.Filter.Query
import MarkupQuery.Proofs.Tree.Links
import MarkupQuery.Tree.Reading

/-!
# What a filter looks for

The nodes that answer to a normal form, said without queries: by tags, attributes and texts of the
tree, and by where a node lies below the start of the search.
-/

namespace MarkupQuery

/-- The content of a text or a comment. -/
def Tree.leaf? (t : Tree) (id : NodeId) : Option String :=
  (t.get? id).bind fun n => n.text?.or n.comment?

/-- The node where a search starts. -/
def Scope.start (scope : Scope) : NodeId := scope.nodeId?.getD Tree.root

namespace Filter

/-- Whether the value of an attribute is what is asked for.  The words that are asked for have to
stand side by side in a list attribute; if there are none, it has to have none either. -/
def Accepts (config : Config) (name wanted actual : String) : Prop :=
  if config.isListAttribute name then
    (Text.words wanted.toList ≠ [] ∧ Text.words wanted.toList <:+: Text.words actual.toList) ∨
      (Text.words wanted.toList = [] ∧ Text.words actual.toList = [])
  else actual = wanted

/-- What is asked of one attribute of an element. -/
def AttributeTest.Admits (config : Config) (t : Tree) (id : NodeId) (name : String) :
    AttributeTest → Prop
  | .absent => ¬ ∃ value, (name, value) ∈ t.attributes id
  | .present => ∃ value, (name, value) ∈ t.attributes id
  | .exact wanted => ∃ value, (name, value) ∈ t.attributes id ∧ Accepts config name wanted value
  | .oneOf several => ∃ wanted ∈ several, ∃ value, (name, value) ∈ t.attributes id ∧
    Accepts config name wanted value

def NameTest.Admits (tag : String) : NameTest → Prop
  | .unspecified | .any => True
  | .oneOf names => tag ∈ names

/-- What is asked of the attributes of an element: each constraint has to hold, and of the values
that any attribute may have one has to be there, unless there are none. -/
def AttributesTest.Admits (config : Config) (t : Tree) (id : NodeId) : AttributesTest → Prop
  | .named constraints => ∀ entry ∈ constraints, entry.2.Admits config t id entry.1
  | .wildcard values constraints =>
    (values ≠ [] → ∃ wanted ∈ values, ∃ name, (name, wanted) ∈ t.attributes id) ∧
      ∀ entry ∈ constraints, entry.2.Admits config t id entry.1

/-- What is asked of the text of an element: any has to stand right inside, one of several anywhere
inside, in a text or comment of its own. -/
def TextTest.AdmitsElement (t : Tree) (id : NodeId) : TextTest → Prop
  | .unspecified => True
  | .any => ∃ c content, t.Up c id ∧ t.leaf? c = some content
  | .oneOf texts => ∃ content ∈ texts, ∃ d, t.Below d id ∧ t.leaf? d = some content

/-- What is asked of a text or comment that is looked for itself. -/
def TextTest.AdmitsLeaf (content : String) : TextTest → Prop
  | .unspecified | .any => True
  | .oneOf texts => content ∈ texts

namespace Spec

/-- Whether texts and comments are looked for, and not elements. -/
def seeksLeaves (spec : Spec) : Bool :=
  spec.name = .unspecified && spec.attributes.isEmpty

/-- The elements that answer to a normal form. -/
structure MatchesElement (config : Config) (t : Tree) (spec : Spec) (id : NodeId) : Prop where
  name : ∃ tag, t.tagName? id = some tag ∧ spec.name.Admits tag
  attributes : spec.attributes.Admits config t id
  text : spec.text.AdmitsElement t id

/-- The nodes that answer to a normal form. -/
def Matches (config : Config) (t : Tree) (spec : Spec) (id : NodeId) : Prop :=
  if spec.seeksLeaves then ∃ content, t.leaf? id = some content ∧ spec.text.AdmitsLeaf content
  else spec.MatchesElement config t id

/-- Where a normal form looks: anywhere below the start, or among its children. -/
def Covers (t : Tree) (spec : Spec) (scope : Scope) (id : NodeId) : Prop :=
  if spec.recursive then t.Below id scope.start else t.Up id scope.start

end Spec

end Filter

end MarkupQuery
