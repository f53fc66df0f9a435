import Mathlib.Data.List.Induction
import MarkupQuery.Proofs.Tree.Names
import MarkupQuery.Proofs.Tree.Ranks

/-!
# Growing trees

A tree that is worked on keeps what it has: the contents of its nodes and the spelling of its names
stay as they are while nodes are made and attached and names are entered.  Only an attribute that is
set changes a content.  Attributes that are set one after another leave every name once, where it
was first set, with the value that it was given last.
-/

namespace MarkupQuery

/-! ## Names of contents -/

/-- The name that a content has of its own, apart from those of attributes. -/
def Content.name? : Content → Option NameId
  | doctype name _ _ => some name
  | element tag _ => some tag
  | instruction target _ => some target
  | document | text _ | comment _ => none

namespace Tree

variable {t t' t'' : Tree} {x : NodeId} {content : Content}

/-- Every name that a content has of its own is in the table of the tree. -/
def KnowsNames (t : Tree) : Prop :=
  ∀ (x : NodeId) (content : Content) (name : NameId), (t.get? x).map Node.content = some content →
    content.name? = some name → name < t.names.names.size

theorem name?_setAttribute (n : Node) (name : NameId) (value : String) :
    (n.setAttribute name value).content.name? = n.content.name? := by
  unfold Node.setAttribute
  split
  · rename_i hcontent
    rw [hcontent]
    rfl
  · rfl

theorem map_content_push (content : Content) (x : NodeId) :
    ((t.push content).2.get? x).map Node.content =
      if x = t.size then some content else (t.get? x).map Node.content := by
  rw [get?_push]
  split <;> rfl

theorem content_push_self (t : Tree) (content : Content) :
    ((t.push content).2.get? t.size).map Node.content = some content := by
  rw [map_content_push, if_pos rfl]

theorem content_createElement (t : Tree) (tag : String) :
    ((t.createElement tag).2.get? t.size).map Node.content =
      some (.element (t.intern tag).1 []) :=
  content_push_self (t.intern tag).2 _

namespace KnowsNames

theorem intern (h : t.KnowsNames) (name : String) : (t.intern name).2.KnowsNames :=
  fun x content id hx hid =>
    Nat.lt_of_lt_of_le (h x content id hx hid) (t.names.size_le_intern name)

theorem push (h : t.KnowsNames)
    (hcontent : ∀ name, content.name? = some name → name < t.names.names.size) :
    (t.push content).2.KnowsNames := by
  intro x c name hx hname
  rw [map_content_push] at hx
  split at hx
  · obtain rfl := Option.some.inj hx
    exact hcontent name hname
  · exact h x c name hx hname

theorem setAttribute (h : t.KnowsNames) (element : NodeId) (name value : String) :
    (t.setAttribute element name value).KnowsNames := by
  intro x content id hx hid
  obtain ⟨n, hn, rfl⟩ := Option.map_eq_some_iff.1 hx
  have hold : ∃ m, t.get? x = some m ∧ n.content.name? = m.content.name? := by
    rw [get?_setAttribute] at hn
    split at hn
    · obtain ⟨m, hm, rfl⟩ := Option.map_eq_some_iff.1 hn
      exact ⟨m, hm, name?_setAttribute m _ value⟩
    · exact ⟨n, hn, rfl⟩
  obtain ⟨m, hm, hsame⟩ := hold
  refine h.intern name x m.content id ?_ (hsame ▸ hid)
  exact congrArg (Option.map Node.content) hm

end KnowsNames

theorem Built.knowsNames (h : t.Built) : t.KnowsNames := by
  induction h with
  | empty =>
    intro x content name hx hname
    obtain ⟨n, hn, rfl⟩ := Option.map_eq_some_iff.1 hx
    obtain rfl : x = 0 := Nat.lt_one_iff.1 (lt_size_of_get? hn)
    cases hn
    cases hname
  | createElement h tag ih =>
    refine (ih.intern tag).push fun name hname => ?_
    exact Option.some.inj hname ▸ h.namesValid.table.intern_lt tag
  | createDoctype h name _ _ ih =>
    refine (ih.intern name).push fun id hid => ?_
    exact Option.some.inj hid ▸ h.namesValid.table.intern_lt name
  | createInstruction h target _ ih =>
    refine (ih.intern target).push fun name hname => ?_
    exact Option.some.inj hname ▸ h.namesValid.table.intern_lt target
  | createText _ value ih => exact ih.push fun _ hname => nomatch hname
  | createComment _ value ih => exact ih.push fun _ hname => nomatch hname
  | setAttribute _ element name value ih => exact ih.setAttribute element name value
  | @appendChild t _ parent child _ _ _ ih =>
    intro x content name hx
    rw [map_content_appendChild] at hx
    rw [names_appendChild]
    exact ih x content name hx
  | rankNodes _ ih => exact ih

/-! ## What a growing tree keeps -/

/-- A tree `t'` has the nodes and the names of `t`, with their contents and spellings. -/
structure Keeps (t t' : Tree) : Prop where
  size_le : t.size ≤ t'.size
  content {x : NodeId} (hx : x < t.size) :
    (t'.get? x).map Node.content = (t.get? x).map Node.content
  names_le : t.names.names.size ≤ t'.names.names.size
  resolve {name : NameId} (hname : name < t.names.names.size) : t'.resolve name = t.resolve name

namespace Keeps

theorem refl (t : Tree) : t.Keeps t where
  size_le := Nat.le_refl _
  content _ := rfl
  names_le := Nat.le_refl _
  resolve _ := rfl

theorem trans (h : t.Keeps t') (h' : t'.Keeps t'') : t.Keeps t'' where
  size_le := Nat.le_trans h.size_le h'.size_le
  content hx := (h'.content (Nat.lt_of_lt_of_le hx h.size_le)).trans (h.content hx)
  names_le := Nat.le_trans h.names_le h'.names_le
  resolve hname := (h'.resolve (Nat.lt_of_lt_of_le hname h.names_le)).trans (h.resolve hname)

theorem intern (t : Tree) (name : String) : t.Keeps (t.intern name).2 where
  size_le := Nat.le_refl _
  content _ := rfl
  names_le := t.names.size_le_intern name
  resolve hname := NameTable.resolve_intern_of_lt hname

theorem push (t : Tree) (content : Content) : t.Keeps (t.push content).2 where
  size_le := Nat.le_of_lt (by rw [size_push]; omega)
  content hx := by rw [map_content_push, if_neg (Nat.ne_of_lt hx)]
  names_le := Nat.le_refl _
  resolve _ := rfl

theorem appendChild (t : Tree) (parent child : NodeId) : t.Keeps (t.appendChild parent child) where
  size_le := Nat.le_of_eq (size_appendChild t parent child).symm
  content _ := map_content_appendChild parent child _
  names_le := Nat.le_of_eq (congrArg (·.names.size) (names_appendChild t parent child).symm)
  resolve _ := congrArg (NameTable.resolve · _) (names_appendChild t parent child)

theorem rankNodes (t : Tree) : t.Keeps t.rankNodes where
  size_le := Nat.le_refl _
  content _ := rfl
  names_le := Nat.le_refl _
  resolve _ := rfl

/-- Attributes of nodes that were not there before take nothing away. -/
theorem setAttribute (h : t.Keeps t') {element : NodeId} (helement : t.size ≤ element)
    (name value : String) : t.Keeps (t'.setAttribute element name value) where
  size_le := by
    rw [size_setAttribute]
    exact h.size_le
  content hx := by
    rw [get?_setAttribute, if_neg (Nat.ne_of_gt (Nat.lt_of_lt_of_le hx helement))]
    exact h.content hx
  names_le := (h.trans (.intern t' name)).names_le
  resolve hname := (h.trans (.intern t' name)).resolve hname

theorem setAttributes (h : t.Keeps t') {element : NodeId} (helement : t.size ≤ element)
    (attributes : List (String × String)) : t.Keeps (t'.setAttributes element attributes) := by
  induction attributes generalizing t' with
  | nil => exact h
  | cons a attributes ih => exact ih (h.setAttribute helement a.1 a.2)

/-- What keeps the numbers of names keeps their spellings. -/
theorem attributes_eq_of_attributeList (h : t.Keeps t') (hnames : t.NamesValid)
    (hlist : t'.attributeList x = t.attributeList x) : t'.attributes x = t.attributes x := by
  rw [attributes, attributes, hlist]
  refine List.map_congr_left fun a ha => ?_
  rw [h.resolve (hnames.known x a ha)]

theorem attributes_eq (h : t.Keeps t') (ht : t.Built) (hx : x < t.size) :
    t'.attributes x = t.attributes x :=
  h.attributes_eq_of_attributeList ht.namesValid (attributeList_of_content_eq (h.content hx))

theorem tagName?_eq (h : t.Keeps t') (ht : t.Built) (hx : x < t.size) :
    t'.tagName? x = t.tagName? x := by
  have hcontent := h.content hx
  obtain ⟨n, hn⟩ := exists_get?_of_lt hx
  obtain ⟨n', hn'⟩ := exists_get?_of_lt (Nat.lt_of_lt_of_le hx h.size_le)
  simp only [hn, hn', Option.map_some, Option.some.injEq] at hcontent
  have htag : n'.tag? = n.tag? := by
    unfold Node.tag?
    rw [hcontent]
  simp only [tagName?, hn, hn', Option.bind_some, htag]
  refine Option.map_congr fun tag htag => h.resolve ?_
  refine ht.knowsNames x n.content tag (by rw [hn]; rfl) ?_
  unfold Node.tag? at htag
  split at htag
  · rename_i heq
    rw [heq]
    exact htag
  · cases htag

end Keeps

end Tree

/-! ## Entries set one after another -/

theorem eraseDups_concat {α : Type} [DecidableEq α] (l : List α) (x : α) :
    (l ++ [x]).eraseDups = if x ∈ l then l.eraseDups else l.eraseDups ++ [x] := by
  rw [List.eraseDups_append]
  split <;> rename_i hx <;> simp [List.removeAll, hx, List.eraseDups_cons]

theorem nodup_eraseDups {α : Type} [DecidableEq α] (l : List α) : l.eraseDups.Nodup := by
  induction l using List.reverseRecOn with
  | nil => exact .nil
  | append_singleton l x ih =>
    rw [eraseDups_concat]
    split
    · exact ih
    · rename_i hx
      refine List.nodup_append'.2 ⟨ih, List.nodup_singleton x, ?_⟩
      simpa using hx

theorem lookup_eq_none_iff_not_mem {α : Type} {l : List (String × α)} {name : String} :
    l.lookup name = none ↔ name ∉ l.map Prod.fst := by
  simp only [List.lookup_eq_none_iff, bne_iff_ne, List.mem_map, not_exists, not_and]
  exact forall₂_congr fun _ _ => ne_comm

/-- Entries with every name once, where it first occurs, and with the last value given for it. -/
def lastEntries (entries : List (String × String)) : List (String × String) :=
  (entries.map Prod.fst).eraseDups.map fun name => (name, (entries.reverse.lookup name).getD "")

/-- Gives a name its value: in place when the name is there, behind the others when not. -/
def assignEntry (name value : String) : List (String × String) → List (String × String)
  | [] => [(name, value)]
  | entry :: rest =>
    if entry.1 = name then (name, value) :: rest else entry :: assignEntry name value rest

theorem assignEntry_map {names : List String} (hnames : names.Nodup) (name value : String)
    (f : String → String) :
    assignEntry name value (names.map fun n => (n, f n)) =
      (if name ∈ names then names else names ++ [name]).map
        fun n => (n, if n = name then value else f n) := by
  induction names with
  | nil => simp [assignEntry]
  | cons first names ih =>
    obtain ⟨hfirst, hnames⟩ := List.nodup_cons.1 hnames
    rw [List.map_cons, assignEntry]
    by_cases hname : first = name
    · have hrest : ∀ n ∈ names, n ≠ name := fun n hn heq => hfirst (hname ▸ heq ▸ hn)
      rw [if_pos hname, if_pos (by simp [hname]), List.map_cons, if_pos hname, hname]
      exact congrArg _ (List.map_congr_left fun n hn => by rw [if_neg (hrest n hn)])
    · have hmem : name ∈ first :: names ↔ name ∈ names := by simp [Ne.symm hname]
      rw [if_neg hname, ih hnames]
      by_cases hold : name ∈ names
      · rw [if_pos hold, if_pos (hmem.2 hold), List.map_cons, if_neg hname]
      · rw [if_neg hold, if_neg (mt hmem.1 hold), List.cons_append, List.map_cons, if_neg hname]

theorem lastEntries_concat (entries : List (String × String)) (name value : String) :
    lastEntries (entries ++ [(name, value)]) = assignEntry name value (lastEntries entries) := by
  have hlookup (n : String) : (((entries ++ [(name, value)]).reverse).lookup n).getD "" =
      if n = name then value else (entries.reverse.lookup n).getD "" := by
    rw [List.reverse_append, List.reverse_singleton, List.singleton_append, List.lookup_cons]
    split <;> rename_i h <;> simp_all
  rw [lastEntries, lastEntries, assignEntry_map (nodup_eraseDups _), List.map_append,
    List.map_singleton, eraseDups_concat]
  simp only [List.mem_eraseDups, hlookup]

theorem lookup_lastEntries (entries : List (String × String)) (name : String) :
    (lastEntries entries).lookup name = entries.reverse.lookup name := by
  by_cases hname : name ∈ entries.map Prod.fst
  · have hsome : entries.reverse.lookup name ≠ none := by
      rw [ne_eq, lookup_eq_none_iff_not_mem, not_not, List.map_reverse]
      exact List.mem_reverse.2 hname
    obtain ⟨value, hvalue⟩ := Option.ne_none_iff_exists'.1 hsome
    rw [lastEntries, List.lookup_graph _ (List.mem_eraseDups.2 hname), hvalue, Option.getD_some]
  · have hlast : name ∉ (lastEntries entries).map Prod.fst := by
      simpa [lastEntries, Function.comp_def] using hname
    have hreverse : name ∉ entries.reverse.map Prod.fst := by
      rwa [List.map_reverse, List.mem_reverse]
    rw [lookup_eq_none_iff_not_mem.2 hlast, lookup_eq_none_iff_not_mem.2 hreverse]

theorem foldl_assignEntry (entries : List (String × String)) :
    entries.foldl (fun l entry => assignEntry entry.1 entry.2 l) [] = lastEntries entries := by
  induction entries using List.reverseRecOn with
  | nil => rfl
  | append_singleton entries entry ih => rw [List.foldl_concat, ih, ← lastEntries_concat]

/-- Spelled out, the attributes of an element are assigned as entries are. -/
theorem Attribute.map_assign {spell : NameId → String} {name : NameId} (value : String)
    {attributes : List Attribute}
    (hinj : ∀ a ∈ attributes, spell a.name = spell name → a.name = name) :
    (assign name value attributes).map (fun a => (spell a.name, a.value)) =
      assignEntry (spell name) value (attributes.map fun a => (spell a.name, a.value)) := by
  induction attributes with
  | nil => rfl
  | cons a rest ih =>
    obtain ⟨ha, hrest⟩ := List.forall_mem_cons.1 hinj
    rw [assign, List.map_cons, assignEntry]
    by_cases heq : a.name = name
    · rw [if_pos heq, if_pos (congrArg spell heq), List.map_cons]
    · rw [if_neg heq, if_neg (mt ha heq), List.map_cons, ih hrest]

namespace Tree

variable {t : Tree} {x : NodeId} {tag : NameId} {attributes : List Attribute}

theorem attributeList_of_content
    (hx : (t.get? x).map Node.content = some (.element tag attributes)) :
    t.attributeList x = attributes := by
  obtain ⟨n, hn, hcontent⟩ := Option.map_eq_some_iff.1 hx
  simp only [attributeList, hn, Option.map_some, Option.getD_some, Node.attributes, hcontent]

theorem content_setAttribute_self
    (hx : (t.get? x).map Node.content = some (.element tag attributes)) (name value : String) :
    ((t.setAttribute x name value).get? x).map Node.content =
      some (.element tag (Attribute.assign (t.intern name).1 value attributes)) := by
  obtain ⟨n, hn, hcontent⟩ := Option.map_eq_some_iff.1 hx
  rw [get?_setAttribute, if_pos rfl, hn, Option.map_some, Option.map_some, Node.setAttribute,
    hcontent]

theorem NamesValid.attributes_setAttribute_self (hnames : t.NamesValid)
    (hx : (t.get? x).map Node.content = some (.element tag attributes)) (name value : String) :
    (t.setAttribute x name value).attributes x = assignEntry name value (t.attributes x) := by
  have hold := attributeList_of_content hx
  have hnew := attributeList_of_content (content_setAttribute_self hx name value)
  have hknown : ∀ a ∈ attributes, a.name < t.names.names.size := hold ▸ hnames.known x
  have hspell : (t.intern name).2.resolve (t.intern name).1 = name :=
    hnames.table.resolve_intern name
  have hkept : ∀ a ∈ attributes, (t.intern name).2.resolve a.name = t.resolve a.name :=
    fun a ha => (Keeps.intern t name).resolve (hknown a ha)
  have hinj : ∀ a ∈ attributes, (t.intern name).2.resolve a.name =
      (t.intern name).2.resolve (t.intern name).1 → a.name = (t.intern name).1 := by
    intro a ha
    refine (hnames.table.intern name).resolve_inj ?_ (hnames.table.intern_lt name)
    exact Nat.lt_of_lt_of_le (hknown a ha) (t.names.size_le_intern name)
  calc (t.setAttribute x name value).attributes x
      = (Attribute.assign (t.intern name).1 value attributes).map
          fun a => ((t.intern name).2.resolve a.name, a.value) := by rw [Tree.attributes, hnew]; rfl
    _ = assignEntry name value
          (attributes.map fun a => ((t.intern name).2.resolve a.name, a.value)) := by
        rw [Attribute.map_assign value hinj, hspell]
    _ = assignEntry name value (t.attributes x) := by
        rw [Tree.attributes, hold, List.map_congr_left fun a ha => by rw [hkept a ha]]

theorem attributes_setAttribute_self (ht : t.Built)
    (hx : (t.get? x).map Node.content = some (.element tag attributes)) (name value : String) :
    (t.setAttribute x name value).attributes x = assignEntry name value (t.attributes x) :=
  ht.namesValid.attributes_setAttribute_self hx name value

theorem Built.setAttributes (h : t.Built) (element : NodeId) (entries : List (String × String)) :
    (t.setAttributes element entries).Built := by
  induction entries generalizing t with
  | nil => exact h
  | cons a entries ih => exact ih (h.setAttribute element a.1 a.2)

theorem Fresh.setAttributes {child : NodeId} (h : t.Fresh child) (element : NodeId)
    (entries : List (String × String)) : (t.setAttributes element entries).Fresh child := by
  induction entries generalizing t with
  | nil => exact h
  | cons a entries ih =>
    refine ih ⟨h.ne_root, ?_, fun x => ?_⟩
    · rw [parent?_setAttribute]
      exact h.parent
    · rw [Up, parent?_setAttribute]
      exact h.alone x

theorem Linked.setAttributes {kids : NodeId → List NodeId} (h : t.Linked kids) (element : NodeId)
    (entries : List (String × String)) : (t.setAttributes element entries).Linked kids := by
  induction entries generalizing t with
  | nil => exact h
  | cons a entries ih => exact ih (h.setAttribute element a.1 a.2)

theorem size_setAttributes (element : NodeId) (entries : List (String × String)) :
    (t.setAttributes element entries).size = t.size := by
  induction entries generalizing t with
  | nil => rfl
  | cons a entries ih => exact ih.trans (size_setAttribute element a.1 a.2)

/-- An element stays one, and the entries are assigned in their order. -/
theorem setAttributes_self (ht : t.Built)
    (hx : (t.get? x).map Node.content = some (.element tag attributes))
    (entries : List (String × String)) :
    (∃ attributes', ((t.setAttributes x entries).get? x).map Node.content =
      some (.element tag attributes')) ∧
    (t.setAttributes x entries).attributes x =
      entries.foldl (fun l entry => assignEntry entry.1 entry.2 l) (t.attributes x) := by
  induction entries generalizing t attributes with
  | nil => exact ⟨⟨attributes, hx⟩, rfl⟩
  | cons entry entries ih =>
    rw [List.foldl_cons, ← attributes_setAttribute_self ht hx]
    exact ih (ht.setAttribute x entry.1 entry.2) (content_setAttribute_self hx entry.1 entry.2)

end Tree

end MarkupQuery
