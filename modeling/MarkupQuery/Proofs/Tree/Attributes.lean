import Mathlib.Data.List.Find
import MarkupQuery.Proofs.Tree.Growth
import MarkupQuery.Proofs.Tree.History

/-!
# Attributes and their history

What is done to a tree, one operation after another, says which attributes were set on which
element.  However the operations go on, attaching included, an element has the names that were set
on it in the order in which each was set first, with the values that were set last, although all
nodes of the tree share one table of names.  Nothing else that is done to the tree makes a
difference to it.
-/

namespace MarkupQuery

namespace Tree

/-- The kind of the node that an operation makes. -/
def Operation.kind? : Operation → Option NodeKind
  | createElement _ => some .element
  | createText _ => some .text
  | createComment _ => some .comment
  | createDoctype .. => some .doctype
  | createInstruction .. => some .instruction
  | setAttribute .. | appendChild .. | askRank _ => none

/-- The kinds of all nodes after operations on an empty tree. -/
def kindsMade (operations : List Operation) : List NodeKind :=
  .document :: operations.filterMap Operation.kind?

/-- The node, the name and the value of an attribute that an operation sets in a tree of `size`
nodes. -/
def Operation.setting? (size : Nat) : Operation → Option (NodeId × String × String)
  | setAttribute element name value => if element < size then some (element, name, value) else none
  | _ => none

/-- The attributes that operations set, in order. -/
def settings : (size : Nat) → List Operation → List (NodeId × String × String)
  | _, [] => []
  | size, operation :: rest =>
    (operation.setting? size).toList ++ settings (size + operation.created) rest

/-- The names and values of a record that belong to one node. -/
def entriesIn (record : List (NodeId × String × String)) (x : NodeId) : List (String × String) :=
  (record.filter (·.1 = x)).map Prod.snd

/-- The names and values that operations on an empty tree set on a node, in order. -/
def setOn (operations : List Operation) : NodeId → List (String × String) :=
  entriesIn (settings 1 operations)

/-- The tree has nodes of these kinds.  Its elements have the entries that were set on them, each
name once, where it was set first, and with the value that it was given last, and other nodes have
none.  This changes for a node only when an attribute is set on it. -/
structure TellsAttributes (t : Tree) (kinds : List NodeKind)
    (entries : NodeId → List (String × String)) : Prop where
  kind (x : NodeId) : (t.get? x).map Node.kind = kinds[x]?
  attributes {x : NodeId} (h : kinds[x]? = some .element) : t.attributes x = lastEntries (entries x)
  value {x : NodeId} (h : kinds[x]? = some .element) (name : String) :
    t.attribute? x name = (entries x).reverse.lookup name
  others {x : NodeId} (h : kinds[x]? ≠ some .element) :
    t.attributes x = [] ∧ ∀ name, t.attribute? x name = none
  unchanged {x : NodeId} {operation : Operation}
    (h : ∀ name value, operation ≠ .setAttribute x name value) :
    (t.perform operation).attributes x = t.attributes x ∧
      ∀ name, (t.perform operation).attribute? x name = t.attribute? x name
  interned (x : NodeId) (other : String) : (t.intern other).2.attributes x = t.attributes x ∧
    ∀ name, (t.intern other).2.attribute? x name = t.attribute? x name

variable {t : Tree} {x : NodeId} {kinds : List NodeKind} {entries : NodeId → List (String × String)}
  {operation : Operation} {operations : List Operation}

/-! ## Attributes by name -/

theorem lookup_map_attribute (spell : NameId → String) (name : String)
    (attributes : List Attribute) :
    (attributes.map fun a => (spell a.name, a.value)).lookup name =
      (attributes.find? fun a => spell a.name == name).map Attribute.value := by
  induction attributes with
  | nil => rfl
  | cons a attributes ih =>
    rw [List.map_cons, List.lookup_cons, List.find?_cons, ih, BEq.comm]
    cases spell a.name == name <;> rfl

/-- The number of a name finds the value that its spelling finds. -/
theorem NamesValid.attribute?_eq (h : t.NamesValid) (x : NodeId) (name : String) :
    t.attribute? x name = (t.attributes x).lookup name := by
  have hspelled {a : Attribute} (ha : a ∈ t.attributeList x) :=
    h.table.resolve_eq_iff (h.known x a ha) name
  rw [attributes, lookup_map_attribute, attribute?]
  cases hid : t.names.lookup? name with
  | none =>
    rw [List.find?_eq_none.2 fun a ha => ?_]
    · rfl
    · rw [beq_iff_eq, resolve, hspelled ha, hid]
      simp
  | some id =>
    have hsame : ∀ a ∈ t.attributeList x, (t.resolve a.name == name) = (a.name == id) := by
      intro a ha
      rw [Bool.eq_iff_iff, beq_iff_eq, beq_iff_eq, resolve, hspelled ha, hid, Option.some_inj,
        eq_comm]
    rw [List.find?_congr hsame]
    exact Option.map_eq_bind.symm

/-! ## One operation -/

theorem NamesValid.perform (h : t.NamesValid) (operation : Operation) :
    (t.perform operation).NamesValid := by
  cases operation with
  | createElement tag => exact (h.intern tag).push rfl
  | createText | createComment => exact h.push rfl
  | createDoctype name => exact (h.intern name).push rfl
  | createInstruction target => exact (h.intern target).push rfl
  | setAttribute element name value => exact h.setAttribute element name value
  | appendChild parent child => exact h.appendChild parent child
  | askRank => exact h.rankNodes

theorem NamesValid.attributes_intern (h : t.NamesValid) (name : String) (x : NodeId) :
    (t.intern name).2.attributes x = t.attributes x :=
  (Keeps.intern t name).attributes_eq_of_attributeList h rfl

theorem NamesValid.attributes_push (h : t.NamesValid) {content : Content}
    (hcontent : Node.attributes { content } = []) (x : NodeId) :
    (t.push content).2.attributes x = t.attributes x :=
  (Keeps.push t content).attributes_eq_of_attributeList h (attributeList_push hcontent x)

/-- The attributes of a node change only when one is set on it. -/
theorem NamesValid.attributes_perform (h : t.NamesValid)
    (hother : ∀ name value, operation ≠ .setAttribute x name value) :
    (t.perform operation).attributes x = t.attributes x := by
  cases operation with
  | createElement name | createDoctype name | createInstruction name =>
    exact ((h.intern name).attributes_push rfl x).trans (h.attributes_intern name x)
  | createText | createComment => exact h.attributes_push rfl x
  | appendChild parent child =>
    exact (Keeps.appendChild t parent child).attributes_eq_of_attributeList h
      (attributeList_appendChild parent child x)
  | askRank => exact (Keeps.rankNodes t).attributes_eq_of_attributeList h rfl
  | setAttribute element name value =>
    have helement : element ≠ x := by
      rintro rfl
      exact hother name value rfl
    have hlist : (t.setAttribute element name value).attributeList x = t.attributeList x := by
      rw [attributeList, get?_setAttribute, if_neg helement, attributeList]
    rw [← h.attributes_intern name x, Tree.perform, attributes, hlist]
    rfl

theorem kind_push (content : Content) (x : NodeId) :
    ((t.push content).2.get? x).map Node.kind =
      if x < t.size then (t.get? x).map Node.kind else [content.kind][x - t.size]? := by
  rw [get?_push]
  rcases Nat.lt_trichotomy x t.size with hx | rfl | hx
  · rw [if_neg (Nat.ne_of_lt hx), if_pos hx]
  · rw [if_pos rfl, if_neg (Nat.lt_irrefl _), Nat.sub_self]
    rfl
  · rw [if_neg (Nat.ne_of_gt hx), if_neg (Nat.not_lt.2 (Nat.le_of_lt hx)),
      get?_eq_none_iff.2 (Nat.le_of_lt hx), List.getElem?_eq_none (by simp; omega)]
    rfl

theorem kind_setAttribute (n : Node) (name : NameId) (value : String) :
    (n.setAttribute name value).kind = n.kind := by
  unfold Node.setAttribute
  split
  · rename_i hcontent
    rw [Node.kind, Node.kind, hcontent]
    rfl
  · rfl

/-- Nodes keep their kinds, and a new node has the kind that the operation makes. -/
theorem kind_perform (operation : Operation) (x : NodeId) :
    ((t.perform operation).get? x).map Node.kind =
      if x < t.size then (t.get? x).map Node.kind else operation.kind?.toList[x - t.size]? := by
  have hsame (h : ((t.perform operation).get? x).map Node.kind = (t.get? x).map Node.kind) :
      ((t.perform operation).get? x).map Node.kind =
        if x < t.size then (t.get? x).map Node.kind else ([] : List NodeKind)[x - t.size]? := by
    split
    · exact h
    · rename_i hx
      rw [h, get?_eq_none_iff.2 (Nat.not_lt.1 hx)]
      rfl
  cases operation with
  | createElement name | createDoctype name | createInstruction name =>
    exact kind_push (t := (t.intern name).2) _ x
  | createText | createComment => exact kind_push _ x
  | askRank => exact hsame rfl
  | appendChild parent child =>
    refine hsame ?_
    have hcontent :=
      congrArg (Option.map Content.kind) (map_content_appendChild (t := t) parent child x)
    rwa [Option.map_map, Option.map_map] at hcontent
  | setAttribute element name value =>
    refine hsame ?_
    rw [perform, get?_setAttribute]
    split
    · rw [Option.map_map]
      exact Option.map_congr fun n _ => kind_setAttribute n _ value
    · rfl

theorem length_kind? (operation : Operation) :
    operation.kind?.toList.length = operation.created := by
  cases operation <;> rfl

/-! ## Records -/

/-- The entries of nodes with those of a record behind them. -/
def settled (entries : NodeId → List (String × String)) (record : List (NodeId × String × String)) :
    NodeId → List (String × String) :=
  fun x => entries x ++ entriesIn record x

theorem settled_nil (entries : NodeId → List (String × String)) : settled entries [] = entries :=
  funext fun x => List.append_nil (entries x)

theorem settled_append (entries : NodeId → List (String × String))
    (record record' : List (NodeId × String × String)) :
    settled entries (record ++ record') = settled (settled entries record) record' := by
  funext x
  simp [settled, entriesIn]

/-- What an operation records belongs to a node that is there. -/
theorem entriesIn_setting? {size : Nat}
    (h : size ≤ x ∨ ∀ name value, operation ≠ .setAttribute x name value) :
    entriesIn (operation.setting? size).toList x = [] := by
  cases operation with
  | setAttribute element name value =>
    rw [Operation.setting?]
    split
    · rename_i helement
      have hne : element ≠ x := by
        rintro rfl
        rcases h with hx | hother
        · exact absurd helement (Nat.not_lt.2 hx)
        · exact hother name value rfl
      simp [entriesIn, hne]
    · rfl
  | _ => rfl

/-- A tree with its record: the kinds of its nodes, and what was set on them. -/
structure Recorded (t : Tree) (kinds : List NodeKind) (entries : NodeId → List (String × String)) :
    Prop where
  names : t.NamesValid
  length : kinds.length = t.size
  kind (x : NodeId) : (t.get? x).map Node.kind = kinds[x]?
  fresh {x : NodeId} (hx : t.size ≤ x) : entries x = []
  attributes {x : NodeId} (hx : kinds[x]? = some .element) :
    t.attributes x = lastEntries (entries x)

namespace Recorded

theorem empty : Tree.empty.Recorded [.document] fun _ => [] where
  names := namesValid_empty
  length := rfl
  kind x := by
    cases x with
    | zero => rfl
    | succ x => rfl
  fresh _ := rfl
  attributes {x} hx := by
    cases x with
    | zero => cases hx
    | succ x => cases hx

theorem attributes_perform (h : t.Recorded kinds entries)
    (hx : (kinds ++ operation.kind?.toList)[x]? = some .element) :
    (t.perform operation).attributes x =
      lastEntries (settled entries (operation.setting? t.size).toList x) := by
  by_cases hset : ∃ name value, operation = .setAttribute x name value
  · obtain ⟨name, value, rfl⟩ := hset
    have hkind : kinds[x]? = some .element := by simpa [Operation.kind?] using hx
    have hget := h.kind x
    rw [hkind] at hget
    obtain ⟨n, hn, helement⟩ := Option.map_eq_some_iff.1 hget
    have hsetting : (Operation.setAttribute x name value).setting? t.size = some (x, name, value) :=
      if_pos (lt_size_of_get? hn)
    have hentries :
        settled entries ((Operation.setAttribute x name value).setting? t.size).toList x =
          entries x ++ [(name, value)] := by
      simp [settled, entriesIn, hsetting]
    rw [hentries, lastEntries_concat, ← h.attributes hkind]
    cases hcontent : n.content with
    | element tag attributes =>
      exact h.names.attributes_setAttribute_self (by rw [hn, Option.map_some, hcontent]) name value
    | _ => simp [Node.kind, Content.kind, hcontent] at helement
  · simp only [not_exists] at hset
    rw [h.names.attributes_perform hset, settled, entriesIn_setting? (.inr hset), List.append_nil]
    by_cases hold : x < t.size
    · exact h.attributes (by rwa [List.getElem?_append_left (h.length.symm ▸ hold)] at hx)
    · have hnone := get?_eq_none_iff.2 (Nat.not_lt.1 hold)
      rw [h.fresh (Nat.not_lt.1 hold), Tree.attributes, attributeList, hnone]
      rfl

theorem perform (h : t.Recorded kinds entries) (operation : Operation) :
    (t.perform operation).Recorded (kinds ++ operation.kind?.toList)
      (settled entries (operation.setting? t.size).toList) where
  names := h.names.perform operation
  length := by rw [List.length_append, length_kind?, size_perform, h.length]
  kind x := by
    rw [kind_perform, List.getElem?_append, h.kind, h.length]
  fresh hx := by
    rw [size_perform] at hx
    have hold := Nat.le_trans (Nat.le_add_right _ _) hx
    rw [settled, h.fresh hold, entriesIn_setting? (.inl hold), List.append_nil]
  attributes hx := h.attributes_perform hx

theorem performAll (h : t.Recorded kinds entries) (operations : List Operation) :
    (t.performAll operations).Recorded (kinds ++ operations.filterMap Operation.kind?)
      (settled entries (settings t.size operations)) := by
  induction operations generalizing t kinds entries with
  | nil =>
    rw [List.filterMap_nil, List.append_nil, settings, settled_nil]
    exact h
  | cons operation rest ih =>
    have hrest := ih (h.perform operation)
    rw [size_perform, ← settled_append, List.append_assoc] at hrest
    have hkinds : (operation :: rest).filterMap Operation.kind? =
        operation.kind?.toList ++ rest.filterMap Operation.kind? := by
      rw [List.filterMap_cons]
      cases operation.kind? <;> rfl
    rw [hkinds]
    exact hrest

theorem attributes_of_kind_ne (h : t.Recorded kinds entries) (hx : kinds[x]? ≠ some .element) :
    t.attributes x = [] := by
  rw [← h.kind] at hx
  rw [Tree.attributes, attributeList]
  cases hget : t.get? x with
  | none => rfl
  | some n =>
    rw [hget] at hx
    cases hcontent : n.content <;> simp_all [Node.attributes, Node.kind, Content.kind]

theorem tellsAttributes (h : t.Recorded kinds entries) : t.TellsAttributes kinds entries := by
  -- the value of a name is told by the attributes
  have hvalues {t' : Tree} {x : NodeId} (h' : t'.NamesValid)
      (hattributes : t'.attributes x = t.attributes x) :
      t'.attributes x = t.attributes x ∧ ∀ name, t'.attribute? x name = t.attribute? x name :=
    ⟨hattributes, fun name => by rw [h'.attribute?_eq, h.names.attribute?_eq, hattributes]⟩
  constructor
  case kind => exact h.kind
  case attributes => exact h.attributes
  case value =>
    intro x hx name
    rw [h.names.attribute?_eq, h.attributes hx, lookup_lastEntries]
  case others =>
    intro x hx
    have hnone := h.attributes_of_kind_ne hx
    exact ⟨hnone, fun name => by rw [h.names.attribute?_eq, hnone, List.lookup_nil]⟩
  case unchanged =>
    intro x operation hother
    exact hvalues (h.names.perform operation) (h.names.attributes_perform hother)
  case interned =>
    intro x other
    exact hvalues (h.names.intern other) (h.names.attributes_intern other x)

end Recorded

/-- After any operations, and so after each of them, every element of the tree has what was set on
it, and no other node has attributes. -/
theorem tellsAttributes_performAll (operations : List Operation) :
    (Tree.empty.performAll operations).TellsAttributes (kindsMade operations)
      (setOn operations) := by
  have hrecorded := Recorded.empty.performAll operations
  have hentries : settled (fun _ => []) (settings Tree.empty.size operations) = setOn operations :=
    rfl
  rw [hentries] at hrecorded
  exact hrecorded.tellsAttributes

end Tree

end MarkupQuery
