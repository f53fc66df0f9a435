import Std.Data.HashMap

/-!
# Name tables

Tag and attribute names are stored once, in the order in which they first occur, and referred to by
their place.  A table keeps the names both ways: by number and by spelling.
-/

namespace MarkupQuery

/-- The place of a name in a name table. -/
abbrev NameId := Nat

/-- Names by number, and the number of each name. -/
structure NameTable where
  names : Array String
  numbers : Std.HashMap String NameId

namespace NameTable

def empty : NameTable := ⟨#[], {}⟩

/-- The number of a name that is in the table. -/
def lookup? (table : NameTable) (name : String) : Option NameId :=
  table.numbers[name]?

/-- The number of a name, and the table with the name in it. -/
def intern (table : NameTable) (name : String) : NameId × NameTable :=
  match table.lookup? name with
  | some id => (id, table)
  | none =>
    let id := table.names.size
    (id, ⟨table.names.push name, table.numbers.insert name id⟩)

/-- The name with the given number; a number without a name stands for the empty name. -/
def resolve (table : NameTable) (id : NameId) : String :=
  table.names.getD id ""

def size (table : NameTable) : Nat := table.names.size

def isEmpty (table : NameTable) : Bool := table.names.isEmpty

/-- The names that every table starts with, behind the empty name: the common vocabulary of
markup. -/
def commonNames : List String :=
  ["html", "head", "body", "title", "meta", "link", "script", "style",
   "div", "span", "p", "a", "b", "i", "u", "em", "strong", "img", "br", "hr",
   "ul", "ol", "li", "table", "thead", "tbody", "tr", "td", "th",
   "form", "input", "button", "select", "option", "textarea", "label",
   "h1", "h2", "h3", "h4", "h5", "h6",
   "header", "footer", "nav", "main", "section", "article", "aside",
   "id", "class", "name", "href", "src", "alt", "type", "value", "rel", "for"]

/-- Enters names in order. -/
def internAll (table : NameTable) (names : List String) : NameTable :=
  names.foldl (fun t name => (t.intern name).2) table

/-- The table that a new tree starts with. -/
def common : NameTable := empty.internAll ("" :: commonNames)

instance : Inhabited NameTable := ⟨common⟩

theorem intern_of_lookup?_eq_some {table : NameTable} {name : String} {id : NameId}
    (h : table.lookup? name = some id) : table.intern name = (id, table) := by
  simp [intern, h]

theorem intern_of_lookup?_eq_none {table : NameTable} {name : String}
    (h : table.lookup? name = none) :
    table.intern name =
      (table.names.size, ⟨table.names.push name, table.numbers.insert name table.names.size⟩) := by
  simp [intern, h]

/-- A name that was entered is found. -/
theorem lookup?_intern_self (table : NameTable) (name : String) :
    (table.intern name).2.lookup? name = some (table.intern name).1 := by
  cases h : table.lookup? name with
  | some id => rw [intern_of_lookup?_eq_some h]; exact h
  | none =>
    rw [intern_of_lookup?_eq_none h]
    simp [lookup?]

/-- Entering a name does not move the others. -/
theorem lookup?_intern_of_ne {table : NameTable} {name other : String} (h : other ≠ name) :
    (table.intern name).2.lookup? other = table.lookup? other := by
  unfold intern
  split
  · rfl
  · simp [lookup?, Std.HashMap.getElem?_insert, Ne.symm h]

end NameTable

end MarkupQuery
