import MarkupQuery.Filter.Basic
import MarkupQuery.Proofs.Tree.Growth

/-!
# Attribute arguments in normal form

Constraints on attributes come from a positional argument and from constraints set one after
another, and their values may be lists in lists.  The normal form has each attribute once: those of
the positional argument in their places, then the others by first mention, and each with the
constraint that was set last.  What a list in lists stands for is told by its members in depth-first
order, so that nesting makes no difference.
-/

namespace MarkupQuery

/-! ## First occurrences -/

/-- `r` has the members of `l`, each once and in the order of their first occurrences. -/
structure FirstOccurrences (l r : List String) : Prop where
  mem_iff (s : String) : s ∈ r ↔ s ∈ l
  ordered : r.Pairwise fun s s' => l.idxOf s < l.idxOf s'

theorem firstOccurrences_eraseDups (l : List String) : FirstOccurrences l l.eraseDups := by
  refine ⟨fun s => List.mem_eraseDups, ?_⟩
  induction l using List.reverseRecOn with
  | nil => exact .nil
  | append_singleton l x ih =>
    have hlater : l.eraseDups.Pairwise fun s s' => (l ++ [x]).idxOf s < (l ++ [x]).idxOf s' := by
      refine ih.imp_of_mem fun {s s'} hs hs' hlt => ?_
      rw [List.idxOf_append_of_mem (List.mem_eraseDups.1 hs),
        List.idxOf_append_of_mem (List.mem_eraseDups.1 hs')]
      exact hlt
    rw [eraseDups_concat]
    split_ifs with hx
    · exact hlater
    · refine List.pairwise_append.2 ⟨hlater, List.pairwise_singleton _ x, fun s hs s' hs' => ?_⟩
      have hs := List.mem_eraseDups.1 hs
      rw [List.mem_singleton.1 hs', List.idxOf_append_of_mem hs, List.idxOf_append_of_notMem hx]
      exact Nat.lt_add_right _ (List.idxOf_lt_length_iff.2 hs)

theorem eraseDups_eraseDups (l : List String) : l.eraseDups.eraseDups = l.eraseDups := by
  induction l using List.reverseRecOn with
  | nil => rfl
  | append_singleton l x ih =>
    rw [eraseDups_concat]
    split_ifs with hx
    · exact ih
    · rw [eraseDups_concat, if_neg (mt List.mem_eraseDups.1 hx), ih]

theorem eraseDups_filter (p : String → Bool) (l : List String) :
    (l.filter p).eraseDups = l.eraseDups.filter p := by
  induction l using List.reverseRecOn with
  | nil => rfl
  | append_singleton l x ih =>
    rw [List.filter_append, eraseDups_concat]
    cases hp : p x with
    | false =>
      rw [List.filter_cons_of_neg (by simp [hp]), List.filter_nil, List.append_nil, ih]
      split_ifs
      · rfl
      · rw [List.filter_append, List.filter_cons_of_neg (by simp [hp]), List.filter_nil,
          List.append_nil]
    | true =>
      rw [List.filter_cons_of_pos hp, List.filter_nil, eraseDups_concat, ih]
      by_cases hx : x ∈ l
      · rw [if_pos hx, if_pos (List.mem_filter.2 ⟨hx, hp⟩)]
      · rw [if_neg hx, if_neg fun hmem => hx (List.mem_filter.1 hmem).1, List.filter_append,
          List.filter_cons_of_pos hp, List.filter_nil]

/-! ## Maps in order of insertion -/

variable {α β : Type}

theorem lookup_entry_cons (entry : String × α) (rest : List (String × α)) (key : String) :
    (entry :: rest).lookup key = if key = entry.1 then some entry.2 else rest.lookup key := by
  rw [List.lookup_cons]
  by_cases hkey : key = entry.1
  · rw [if_pos hkey, beq_iff_eq.2 hkey]
  · rw [if_neg hkey, beq_eq_false_iff_ne.2 hkey]

theorem lookup_putEntry (key : String) (value : α) (entries : List (String × α)) (other : String) :
    (putEntry key value entries).lookup other =
      if other = key then some value else entries.lookup other := by
  induction entries with
  | nil => rw [putEntry, lookup_entry_cons]
  | cons entry rest ih =>
    rw [putEntry]
    by_cases hentry : entry.1 = key
    · rw [if_pos hentry, lookup_entry_cons, lookup_entry_cons, hentry]
      split_ifs <;> rfl
    · rw [if_neg hentry, lookup_entry_cons, lookup_entry_cons, ih]
      by_cases hother : other = key
      · rw [if_pos hother, if_pos hother, if_neg fun heq => hentry (heq.symm.trans hother)]
      · rw [if_neg hother, if_neg hother]

theorem putEntries_concat (entries new : List (String × α)) (entry : String × α) :
    putEntries entries (new ++ [entry]) = putEntry entry.1 entry.2 (putEntries entries new) := by
  rw [putEntries, List.foldl_append]
  rfl

/-- Keys that are there keep their places, and new keys follow in the order of first mention. -/
theorem keys_putEntries (entries new : List (String × α)) :
    (putEntries entries new).map Prod.fst = entries.map Prod.fst ++
      ((new.map Prod.fst).filter (· ∉ entries.map Prod.fst)).eraseDups := by
  induction new using List.reverseRecOn with
  | nil => simp [putEntries]
  | append_singleton new entry ih =>
    rw [putEntries_concat, keys_putEntry, ih, List.map_append, List.map_singleton,
      List.filter_append]
    by_cases hold : entry.1 ∈ entries.map Prod.fst
    · rw [if_pos (List.mem_append_left _ hold), List.filter_cons_of_neg (by simpa using hold),
        List.filter_nil, List.append_nil]
    · rw [List.filter_cons_of_pos (by simpa using hold), List.filter_nil, eraseDups_concat]
      simp only [List.mem_append, List.mem_eraseDups, hold, false_or]
      split_ifs
      · rfl
      · rw [List.append_assoc]

/-- The last value given for a key is what a map has for it. -/
theorem lookup_putEntries (entries new : List (String × α)) (key : String) :
    (putEntries entries new).lookup key = (new.reverse.lookup key).or (entries.lookup key) := by
  induction new using List.reverseRecOn with
  | nil => rfl
  | append_singleton new entry ih =>
    rw [putEntries_concat, lookup_putEntry, ih, List.reverse_append, List.reverse_singleton,
      List.singleton_append, lookup_entry_cons]
    split_ifs <;> rfl

theorem lookup_reverse {l : List (String × α)} (h : (l.map Prod.fst).Nodup) (key : String) :
    l.reverse.lookup key = l.lookup key := by
  induction l with
  | nil => rfl
  | cons entry rest ih =>
    obtain ⟨hentry, hrest⟩ := List.nodup_cons.1 h
    rw [List.reverse_cons, List.lookup_append, ih hrest, lookup_entry_cons, lookup_entry_cons]
    split_ifs with hkey
    · rw [lookup_eq_none_iff_not_mem.2 (hkey ▸ hentry), Option.none_or]
    · exact Option.or_none

theorem lookup_map_snd (f : α → β) (l : List (String × α)) (key : String) :
    (l.map fun entry => (entry.1, f entry.2)).lookup key = (l.lookup key).map f := by
  induction l with
  | nil => rfl
  | cons entry rest ih =>
    rw [List.map_cons, lookup_entry_cons, lookup_entry_cons, ih]
    split_ifs <;> rfl

/-! ## Lists in lists -/

namespace AttributeValue

/-- A value occurs in another: as it, or at some depth in it. -/
inductive Occurs (value : AttributeValue) : AttributeValue → Prop where
  | here : Occurs value value
  | inside {item : AttributeValue} {items : List AttributeValue} (hmem : item ∈ items)
      (hitem : Occurs value item) : Occurs value (.list items)

mutual

/-- The members of a value in depth-first order: the value itself, or the members of a list. -/
def members : AttributeValue → List AttributeValue
  | list items => flattened items
  | value => [value]

/-- A list with its lists in lists resolved. -/
def flattened : List AttributeValue → List AttributeValue
  | [] => []
  | first :: rest => first.members ++ flattened rest

end

/-- The text that a member of a list asks for. -/
def asked? : AttributeValue → Option String
  | text s => some s
  | number value => some (toString value)
  | _ => none

theorem flattened_append (items items' : List AttributeValue) :
    flattened (items ++ items') = flattened items ++ flattened items' := by
  induction items with
  | nil => rfl
  | cons first rest ih => rw [List.cons_append, flattened, ih, flattened, List.append_assoc]

mutual

theorem flattened_members (value : AttributeValue) : flattened value.members = value.members := by
  match value with
  | list items => exact flattened_flattened items
  | absent | flag _ | text _ | number _ => rfl

theorem flattened_flattened (items : List AttributeValue) :
    flattened (flattened items) = flattened items := by
  match items with
  | [] => rfl
  | first :: rest =>
    rw [flattened, flattened_append, flattened_members first, flattened_flattened rest]

end

mutual

theorem texts_eq (value : AttributeValue) : value.texts = value.members.filterMap asked? := by
  match value with
  | list items => exact allTexts_eq items
  | absent | flag _ | text _ | number _ => rfl

theorem allTexts_eq (items : List AttributeValue) :
    allTexts items = (flattened items).filterMap asked? := by
  match items with
  | [] => rfl
  | first :: rest =>
    rw [allTexts, flattened, List.filterMap_append, texts_eq first, allTexts_eq rest]

end

mutual

theorem holdsTrue_iff (value : AttributeValue) :
    value.holdsTrue = true ↔ flag true ∈ value.members := by
  match value with
  | list items => exact someHoldsTrue_iff items
  | flag _ => simp [holdsTrue, members, eq_comm]
  | absent | text _ | number _ => simp [holdsTrue, members]

theorem someHoldsTrue_iff (items : List AttributeValue) :
    someHoldsTrue items = true ↔ flag true ∈ flattened items := by
  match items with
  | [] => simp [someHoldsTrue, flattened]
  | first :: rest =>
    rw [someHoldsTrue, flattened, Bool.or_eq_true, List.mem_append, holdsTrue_iff first,
      someHoldsTrue_iff rest]

end

/-- The constraint that a list stands for: that there is any value when `true` occurs in it, and
else one of its texts and numbers. -/
structure Stands (items : List AttributeValue) : Prop where
  present_iff : (list items).test = .present ↔ Occurs (.flag true) (list items)
  oneOf (h : ¬ Occurs (.flag true) (list items)) : ∃ values, (list items).test = .oneOf values ∧
    FirstOccurrences ((flattened items).filterMap asked?) values
  flat : (list items).test = (list (flattened items)).test

variable {value : AttributeValue}

mutual

/-- What is no list occurs in a value as one of its members. -/
theorem occurs_iff (hvalue : ∀ items, value ≠ list items) (item : AttributeValue) :
    Occurs value item ↔ value ∈ item.members := by
  match item with
  | list items =>
    rw [members, ← exists_occurs_iff hvalue items]
    constructor
    · intro h
      cases h with
      | here => exact absurd rfl (hvalue items)
      | @inside item _ hmem hitem => exact ⟨item, hmem, hitem⟩
    · rintro ⟨item, hmem, hitem⟩
      exact .inside hmem hitem
  | absent | flag _ | text _ | number _ =>
    simp only [members, List.mem_singleton]
    constructor
    · intro h
      cases h
      rfl
    · rintro rfl
      exact .here

theorem exists_occurs_iff (hvalue : ∀ items, value ≠ list items) (items : List AttributeValue) :
    (∃ item ∈ items, Occurs value item) ↔ value ∈ flattened items := by
  match items with
  | [] => simp [flattened]
  | first :: rest =>
    rw [List.exists_mem_cons_iff, flattened, List.mem_append, occurs_iff hvalue first,
      exists_occurs_iff hvalue rest]

end

theorem test_of_mem {items : List AttributeValue} (h : flag true ∈ flattened items) :
    (list items).test = .present := by
  rw [test, if_pos ((someHoldsTrue_iff items).2 h)]

theorem test_of_not_mem {items : List AttributeValue} (h : flag true ∉ flattened items) :
    (list items).test = .oneOf ((flattened items).filterMap asked?).eraseDups := by
  rw [test, if_neg (mt (someHoldsTrue_iff items).1 h), allTexts_eq]

theorem stands (items : List AttributeValue) : Stands items := by
  have hoccurs : Occurs (flag true) (list items) ↔ flag true ∈ flattened items :=
    occurs_iff (by simp) _
  constructor
  case present_iff =>
    rw [hoccurs]
    refine ⟨fun hpresent => ?_, test_of_mem⟩
    by_contra h
    rw [test_of_not_mem h] at hpresent
    cases hpresent
  case oneOf =>
    intro h
    exact ⟨_, test_of_not_mem (mt hoccurs.2 h), firstOccurrences_eraseDups _⟩
  case flat =>
    by_cases h : flag true ∈ flattened items
    · rw [test_of_mem h, test_of_mem (by rwa [flattened_flattened])]
    · rw [test_of_not_mem h, test_of_not_mem (by rwa [flattened_flattened]), flattened_flattened]

end AttributeValue

/-! ## Positional and named constraints -/

namespace AttributesArgument

/-- The constraints by name in an argument. -/
def entries : AttributesArgument → List (String × AttributeValue)
  | .map constraints => constraints
  | .value _ | .values _ => []

/-- The values in an argument that any attribute may have. -/
def anyValues : AttributesArgument → List String
  | .map _ => []
  | .value wanted => [wanted]
  | .values wanted => wanted

end AttributesArgument

namespace Filter

/-- Constrains attributes one after another. -/
def withAttributes (filter : Filter) (calls : List (String × AttributeValue)) : Filter :=
  calls.foldl (fun filter call => filter.withAttribute call.1 call.2) filter

/-- The part of a normal form on attributes, for a positional argument and constraints set one after
another. -/
structure Merges (positional : AttributesArgument) (calls : List (String × AttributeValue))
    (spec : Spec) : Prop where
  keys : ∃ new,
    spec.attributes.constraints.map Prod.fst = positional.entries.map Prod.fst ++ new ∧
      FirstOccurrences ((calls.map Prod.fst).filter (· ∉ positional.entries.map Prod.fst)) new
  test (key : String) : spec.attributes.constraints.lookup key =
    ((calls.reverse.lookup key).or (positional.entries.lookup key)).map AttributeValue.test
  wildcard_iff : (∃ values constraints, spec.attributes = .wildcard values constraints) ↔
    (∃ value, positional = .value value) ∨ ∃ values, positional = .values values ∧ values ≠ []
  values {values : List String} {constraints : List (String × AttributeTest)}
    (h : spec.attributes = .wildcard values constraints) :
    FirstOccurrences positional.anyValues values

theorem withAttributes_eq (filter : Filter) (calls : List (String × AttributeValue)) :
    filter.withAttributes calls = { filter with named := putEntries filter.named calls } := by
  induction calls using List.reverseRecOn with
  | nil => rfl
  | append_singleton calls call ih =>
    have hlast : filter.withAttributes (calls ++ [call]) =
        (filter.withAttributes calls).withAttribute call.1 call.2 := by
      rw [withAttributes, List.foldl_append]
      rfl
    rw [hlast, ih, putEntries_concat]
    rfl

/-- The constraints by attribute of a filter in normal form. -/
def mergedConstraints (filter : Filter) : List (String × AttributeTest) :=
  (putEntries filter.attributes.entries filter.named).map fun entry => (entry.1, entry.2.test)

theorem eraseDups_eq_nil_iff {l : List String} : l.eraseDups = [] ↔ l = [] := by
  simp only [List.eq_nil_iff_forall_not_mem, List.mem_eraseDups]

theorem attributes_normalize (filter : Filter) : filter.normalize.attributes =
    if filter.attributes.anyValues = [] then .named filter.mergedConstraints
    else .wildcard filter.attributes.anyValues.eraseDups filter.mergedConstraints := by
  rw [normalize, mergedConstraints]
  cases filter.attributes with
  | map => rfl
  | value => rfl
  | values values =>
    have hnone : values.eraseDups.isEmpty = true ↔ values = [] := by
      rw [List.isEmpty_iff, eraseDups_eq_nil_iff]
    exact if_congr hnone rfl rfl

theorem constraints_normalize (filter : Filter) :
    filter.normalize.attributes.constraints = filter.mergedConstraints := by
  rw [attributes_normalize]
  split <;> rfl

/-- The form with values for any attribute is taken just when there are such values. -/
theorem attributes_normalize_eq_wildcard_iff {filter : Filter} {values : List String}
    {constraints : List (String × AttributeTest)} :
    filter.normalize.attributes = .wildcard values constraints ↔
      filter.attributes.anyValues ≠ [] ∧ filter.attributes.anyValues.eraseDups = values ∧
        filter.mergedConstraints = constraints := by
  rw [attributes_normalize]
  split_ifs with h
  · simp [h]
  · simp [h]

/-- The normal form has the attributes of the positional argument in their places and then the
others by first mention, each with its last constraint, and asks for values that any attribute may
have just when the positional argument is a value or some values.  A list in lists stands for the
constraint of its members. -/
theorem normalize_withAttributes (filter : Filter) (calls : List (String × AttributeValue))
    (hnew : filter.named = []) :
    Merges filter.attributes calls (filter.withAttributes calls).normalize ∧
      ∀ items, AttributeValue.Stands items := by
  refine ⟨?_, AttributeValue.stands⟩
  have hcalls : (putEntries [] calls).map Prod.fst = (calls.map Prod.fst).eraseDups := by
    rw [keys_putEntries]
    simp
  have hconstraints : (filter.withAttributes calls).normalize.attributes.constraints =
      (putEntries filter.attributes.entries (putEntries [] calls)).map fun entry =>
        (entry.1, entry.2.test) := by
    rw [withAttributes_eq, constraints_normalize, mergedConstraints, hnew]
  have hpositional : (filter.withAttributes calls).attributes = filter.attributes := by
    rw [withAttributes_eq]
  constructor
  case keys =>
    refine ⟨_, ?_, firstOccurrences_eraseDups _⟩
    have hkeys : (filter.withAttributes calls).normalize.attributes.constraints.map Prod.fst =
        (putEntries filter.attributes.entries (putEntries [] calls)).map Prod.fst := by
      rw [hconstraints, List.map_map]
      rfl
    rw [hkeys, keys_putEntries, hcalls, ← eraseDups_filter, eraseDups_eraseDups]
  case test =>
    intro key
    have hnodup : ((putEntries [] calls).map Prod.fst).Nodup := hcalls ▸ nodup_eraseDups _
    rw [hconstraints, lookup_map_snd, lookup_putEntries, lookup_reverse hnodup, lookup_putEntries,
      List.lookup_nil, Option.or_none]
  case wildcard_iff =>
    simp only [attributes_normalize_eq_wildcard_iff, hpositional, exists_and_left, exists_eq',
      and_true]
    cases filter.attributes <;> simp [AttributesArgument.anyValues]
  case values =>
    intro values constraints h
    obtain ⟨-, hvalues, -⟩ := attributes_normalize_eq_wildcard_iff.1 h
    rw [hpositional] at hvalues
    exact hvalues ▸ firstOccurrences_eraseDups _

/-- A positional constraint that is set again keeps its place, and the others follow it. -/
theorem normalize_withAttributes_id :
    let map : Filter := { attributes := .map [("id", .text "a"), ("class", .text "b")] }
    let calls : List (String × AttributeValue) :=
      [("href", .absent), ("id", .list [.number 1, .list [.text "c", .number 1]])]
    map.named = [] ∧ Merges map.attributes calls (map.withAttributes calls).normalize ∧
      (map.withAttributes calls).normalize.attributes =
        .named [("id", .oneOf ["1", "c"]), ("class", .exact "b"), ("href", .absent)] :=
  ⟨rfl, (normalize_withAttributes _ _ rfl).1, by decide +kernel⟩

end Filter

end MarkupQuery
