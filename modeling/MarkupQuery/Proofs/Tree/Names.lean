import MarkupQuery.Proofs.Tree.Links
import MarkupQuery.Tree.Reading

/-!
# Names in a tree

The two sides of a name table agree, so that different numbers spell different names.  The
attributes of an element have different numbers, all of them in the table of the tree, and with
this different names.
-/

namespace MarkupQuery

/-! ## Name tables -/

namespace NameTable

variable {table : NameTable}

/-- The numbers of a table are the places of the names. -/
def Valid (table : NameTable) : Prop :=
  ∀ name id, table.lookup? name = some id ↔ table.names[id]? = some name

theorem valid_empty : empty.Valid := by
  intro name id
  simp [lookup?, empty]

theorem Valid.intern (h : table.Valid) (name : String) : (table.intern name).2.Valid := by
  cases hname : table.lookup? name with
  | some id => rwa [intern_of_lookup?_eq_some hname]
  | none =>
    have hnew (id : NameId) : table.names[id]? ≠ some name := by
      intro hid
      rw [← h, hname] at hid
      cases hid
    intro other id
    have hnumbers : (table.intern name).2.lookup? other =
        if other = name then some table.names.size else table.lookup? other := by
      split
      · rename_i heq
        rw [heq, lookup?_intern_self, intern_of_lookup?_eq_none hname]
      · rename_i hne
        exact lookup?_intern_of_ne hne
    have hnames : (table.intern name).2.names[id]? =
        if id = table.names.size then some name else table.names[id]? := by
      rw [intern_of_lookup?_eq_none hname]
      exact Array.getElem?_push
    have hend : table.names[table.names.size]? = none := Array.getElem?_eq_none (Nat.le_refl _)
    rw [hnumbers, hnames]
    by_cases hother : other = name <;> by_cases hid : id = table.names.size
    · simp [hother, hid]
    · simp [hother, hid, hnew, Ne.symm hid]
    · have hnone : table.lookup? other ≠ some table.names.size := by
        rw [ne_eq, h, hend]
        simp
      simp [hother, hid, hnone, Ne.symm hother]
    · simpa [hother, hid] using h other id

theorem Valid.internAll (h : table.Valid) (names : List String) :
    (table.internAll names).Valid := by
  induction names generalizing table with
  | nil => exact h
  | cons name names ih => exact ih (h.intern name)

theorem valid_common : common.Valid := valid_empty.internAll _

theorem Valid.lt_of_lookup? (h : table.Valid) {name : String} {id : NameId}
    (hid : table.lookup? name = some id) : id < table.names.size :=
  (Array.getElem?_eq_some_iff.1 ((h name id).1 hid)).1

/-- The spelling of a number finds the number. -/
theorem Valid.resolve_eq_iff (h : table.Valid) {id : NameId} (hid : id < table.names.size)
    (name : String) : table.resolve id = name ↔ table.lookup? name = some id := by
  rw [h, resolve, Array.getD_eq_getD_getElem?, Array.getElem?_eq_getElem hid, Option.getD_some,
    Option.some_inj]

theorem Valid.lookup?_eq_some_iff (h : table.Valid) (name : String) (id : NameId) :
    table.lookup? name = some id ↔ id < table.size ∧ table.resolve id = name := by
  constructor
  · intro hlookup
    have hid := h.lt_of_lookup? hlookup
    exact ⟨hid, (h.resolve_eq_iff hid name).2 hlookup⟩
  · rintro ⟨hid, hresolve⟩
    exact (h.resolve_eq_iff hid name).1 hresolve

theorem Valid.intern_lt (h : table.Valid) (name : String) :
    (table.intern name).1 < (table.intern name).2.names.size :=
  (h.intern name).lt_of_lookup? (lookup?_intern_self table name)

theorem Valid.resolve_intern (h : table.Valid) (name : String) :
    (table.intern name).2.resolve (table.intern name).1 = name :=
  ((h.intern name).resolve_eq_iff (h.intern_lt name) name).2 (lookup?_intern_self table name)

theorem size_le_intern (table : NameTable) (name : String) :
    table.names.size ≤ (table.intern name).2.names.size := by
  unfold NameTable.intern
  split
  · exact Nat.le_refl _
  · simp

theorem resolve_intern_of_lt {name : String} {id : NameId} (h : id < table.names.size) :
    (table.intern name).2.resolve id = table.resolve id := by
  unfold NameTable.intern
  split
  · rfl
  · have hne : id ≠ table.names.size := Nat.ne_of_lt h
    simp [resolve, Array.getD_eq_getD_getElem?, Array.getElem?_push, hne]

theorem Valid.resolve_inj (h : table.Valid) {i j : NameId} (hi : i < table.names.size)
    (hj : j < table.names.size) (heq : table.resolve i = table.resolve j) : i = j := by
  have hfirst := (h.resolve_eq_iff hi _).1 rfl
  rw [(h.resolve_eq_iff hj _).1 heq.symm] at hfirst
  exact (Option.some.inj hfirst).symm

end NameTable

/-! ## Attributes -/

/-- The names after an attribute is set: a new name comes behind the others. -/
theorem Attribute.map_name_assign (name : NameId) (value : String) (attributes : List Attribute) :
    (assign name value attributes).map Attribute.name =
      if name ∈ attributes.map Attribute.name then attributes.map Attribute.name
      else attributes.map Attribute.name ++ [name] := by
  induction attributes with
  | nil => simp [assign]
  | cons a rest ih =>
    unfold assign
    by_cases h : a.name = name
    · simp [h]
    · simp only [h, ↓reduceIte, List.map_cons, ih, List.mem_cons, Ne.symm h, false_or]
      split <;> simp

theorem Attribute.nodup_assign {attributes : List Attribute} (name : NameId) (value : String)
    (h : (attributes.map Attribute.name).Nodup) :
    ((assign name value attributes).map Attribute.name).Nodup := by
  rw [map_name_assign]
  split
  · exact h
  · rename_i hnew
    exact List.nodup_append'.2 ⟨h, by simp, by simpa using hnew⟩

namespace Tree

variable {t : Tree}

theorem attributeList_push {content : Content} (h : Node.attributes { content } = []) (x : NodeId) :
    (t.push content).2.attributeList x = t.attributeList x := by
  rw [attributeList, get?_push]
  split
  · rename_i hx
    rw [attributeList, get?_eq_none_iff.2 (Nat.le_of_eq hx.symm), Option.map_some, h]
    rfl
  · rfl

theorem attributes_setAttribute (n : Node) (name : NameId) (value : String) :
    (n.setAttribute name value).attributes = n.attributes ∨
      (n.setAttribute name value).attributes = Attribute.assign name value n.attributes := by
  unfold Node.setAttribute
  split
  · rename_i heq
    right
    simp only [Node.attributes, heq]
  · exact .inl rfl

theorem attributeList_setAttribute (element : NodeId) (name value : String) (x : NodeId) :
    (t.setAttribute element name value).attributeList x = t.attributeList x ∨
      (t.setAttribute element name value).attributeList x =
        Attribute.assign (t.intern name).1 value (t.attributeList x) := by
  simp only [attributeList, get?_setAttribute]
  split
  · cases t.get? x with
    | none => exact .inl rfl
    | some n => exact attributes_setAttribute n _ value
  · exact .inl rfl

theorem names_appendChild (t : Tree) (parent child : NodeId) :
    (t.appendChild parent child).names = t.names := by
  unfold appendChild
  split
  · rfl
  · split <;> rfl

/-- The attributes of a node are part of its content. -/
theorem attributeList_of_content_eq {t' : Tree} {x : NodeId}
    (h : (t'.get? x).map Node.content = (t.get? x).map Node.content) :
    t'.attributeList x = t.attributeList x := by
  have hlist (t : Tree) : t.attributeList x =
      (((t.get? x).map Node.content).map fun content => Node.attributes { content }).getD [] := by
    rw [attributeList, Option.map_map]
    rfl
  rw [hlist, hlist, h]

theorem attributeList_appendChild (parent child x : NodeId) :
    (t.appendChild parent child).attributeList x = t.attributeList x :=
  attributeList_of_content_eq (map_content_appendChild parent child x)

/-- The names of a tree are in order. -/
structure NamesValid (t : Tree) : Prop where
  table : t.names.Valid
  known (x : NodeId) : ∀ a ∈ t.attributeList x, a.name < t.names.names.size
  distinct (x : NodeId) : ((t.attributeList x).map Attribute.name).Nodup

namespace NamesValid

theorem intern (h : t.NamesValid) (name : String) : (t.intern name).2.NamesValid where
  table := h.table.intern name
  known x a ha := Nat.lt_of_lt_of_le (h.known x a ha) (t.names.size_le_intern name)
  distinct := h.distinct

theorem of_attributeList_eq {t' : Tree} (h : t.NamesValid) (hnames : t'.names = t.names)
    (hlist : ∀ x, t'.attributeList x = t.attributeList x) : t'.NamesValid where
  table := hnames ▸ h.table
  known x := by
    rw [hlist, hnames]
    exact h.known x
  distinct x := by
    rw [hlist]
    exact h.distinct x

theorem push (h : t.NamesValid) {content : Content} (hcontent : Node.attributes { content } = []) :
    (t.push content).2.NamesValid :=
  h.of_attributeList_eq rfl (attributeList_push hcontent)

theorem appendChild (h : t.NamesValid) (parent child : NodeId) :
    (t.appendChild parent child).NamesValid :=
  h.of_attributeList_eq (names_appendChild t parent child) (attributeList_appendChild parent child)

theorem rankNodes (h : t.NamesValid) : t.rankNodes.NamesValid :=
  h.of_attributeList_eq rfl fun _ => rfl

theorem setAttribute (h : t.NamesValid) (element : NodeId) (name value : String) :
    (t.setAttribute element name value).NamesValid := by
  have hold := h.intern name
  refine ⟨hold.table, fun x => ?_, fun x => ?_⟩
  · rcases attributeList_setAttribute (t := t) element name value x with heq | heq
    · rw [heq]
      exact hold.known x
    · -- the new name is the one that was entered
      have hnames := Attribute.map_name_assign (t.intern name).1 value (t.attributeList x)
      intro a ha
      have hmem := List.mem_map_of_mem (f := Attribute.name) ha
      rw [heq, hnames] at hmem
      have hcases : a.name = (t.intern name).1 ∨
          a.name ∈ (t.attributeList x).map Attribute.name := by
        split at hmem
        · exact .inr hmem
        · simpa [or_comm] using hmem
      rcases hcases with hself | hmem
      · rw [hself]
        exact h.table.intern_lt name
      · obtain ⟨b, hb, hname⟩ := List.mem_map.1 hmem
        rw [← hname]
        exact hold.known x b hb
  · rcases attributeList_setAttribute (t := t) element name value x with heq | heq
    · rw [heq]
      exact h.distinct x
    · rw [heq]
      exact Attribute.nodup_assign _ _ (h.distinct x)

theorem nodup_attributes (h : t.NamesValid) (x : NodeId) :
    ((t.attributes x).map Prod.fst).Nodup := by
  have hnames : (t.attributes x).map Prod.fst =
      ((t.attributeList x).map Attribute.name).map t.resolve := by
    simp [attributes]
  rw [hnames]
  refine List.Nodup.map_on ?_ (h.distinct x)
  intro i hi j hj heq
  obtain ⟨a, ha, rfl⟩ := List.mem_map.1 hi
  obtain ⟨b, hb, rfl⟩ := List.mem_map.1 hj
  exact h.table.resolve_inj (h.known x a ha) (h.known x b hb) heq

end NamesValid

theorem namesValid_empty : Tree.empty.NamesValid := by
  have hlist (x : NodeId) : Tree.empty.attributeList x = [] := by
    rw [attributeList]
    cases hget : Tree.empty.get? x with
    | none => rfl
    | some n =>
      obtain rfl : x = 0 := Nat.lt_one_iff.1 (lt_size_of_get? hget)
      cases hget
      rfl
  exact {
    table := by
      simpa only [Tree.empty] using NameTable.valid_common
    known x := by simp [hlist]
    distinct x := by simp [hlist] }

theorem Assembled.namesValid (h : t.Assembled) : t.NamesValid := by
  refine h.of_changes (P := NamesValid) namesValid_empty ?_ ?_ ?_ ?_ ?_
  · exact fun t name ht => ht.intern name
  · exact fun t content hcontent ht => ht.push hcontent
  · exact fun t element name value ht => ht.setAttribute element name value
  · exact fun t parent child ht _ _ _ _ _ => ht.appendChild parent child
  · exact fun t ht => ht.rankNodes

theorem Built.namesValid (h : t.Built) : t.NamesValid := h.assembled.namesValid

end Tree

end MarkupQuery
