import MarkupQuery.Proofs.Tree.Growth

/-!
# Names and their history

A table of names is asked to enter names, to find the numbers of names, and to spell numbers.  What
was asked tells the names that it holds: those that every table starts with, and behind them the
others that were entered, each once, in the order in which they were entered first.  A name has its
place in this order as its number, now and for ever, and no other name has it.
-/

namespace MarkupQuery

namespace NameTable

/-- What can be asked of a table. -/
inductive Request where
  | intern (name : String)
  | lookup (name : String)
  | resolve (id : NameId)
  deriving DecidableEq, Repr

/-- The table after a request. -/
def ask (table : NameTable) : Request → NameTable
  | .intern name => (table.intern name).2
  | .lookup _ => table
  | .resolve _ => table

/-- The table after requests, one after another. -/
def askAll (table : NameTable) (requests : List Request) : NameTable := requests.foldl ask table

/-- The number that a request gets, with the name that it is given for. -/
def number? (table : NameTable) : Request → Option (String × NameId)
  | .intern name => some (name, (table.intern name).1)
  | .lookup name => (table.lookup? name).map fun id => (name, id)
  | .resolve _ => none

/-- The name that a request enters. -/
def Request.entered? : Request → Option String
  | intern name => some name
  | lookup _ | resolve _ => none

/-- The names that every table starts with. -/
def startNames : List String := "" :: commonNames

/-- The names that were entered with requests to a new table. -/
def namesAfter (requests : List Request) : List String :=
  startNames ++ ((requests.filterMap Request.entered?).filter (· ∉ startNames)).eraseDups

/-- A table holds these names, none of them twice, and finds for each name its place among them.  A
name that it has is entered without a change, and another one behind the others.  Finding and
spelling leave the table as it is.  A number that it gives spells the same name after all further
requests, and fits in four bytes while there are fewer names than these can count. -/
structure TellsNames (table : NameTable) (names : List String) : Prop where
  stored : table.names.toList = names
  nodup : table.names.toList.Nodup
  lookup (name : String) (id : NameId) :
    table.lookup? name = some id ↔ id < table.size ∧ table.resolve id = name
  known {name : String} {id : NameId} (h : table.lookup? name = some id) :
    table.intern name = (id, table)
  added {name : String} (h : table.lookup? name = none) :
    (table.intern name).1 = table.size ∧ (table.intern name).2.size = table.size + 1 ∧
      (table.intern name).2.names.toList = names ++ [name]
  unchanged {requests : List Request} (h : ∀ request ∈ requests, request.entered? = none) :
    table.askAll requests = table
  lasting {request : Request} {name : String} {id : NameId}
    (h : table.number? request = some (name, id)) (requests : List Request) :
    ((table.ask request).askAll requests).resolve id = name
  narrow {request : Request} {name : String} {id : NameId}
    (h : table.number? request = some (name, id)) (hsize : table.size < UInt32.size) :
    id.toUInt32.toNat = id

variable {table : NameTable} {name : String} {id : NameId} {request : Request}

/-! ## Names entered in order -/

theorem Valid.mem_names_iff (h : table.Valid) (name : String) :
    name ∈ table.names.toList ↔ table.lookup? name ≠ none := by
  rw [Option.ne_none_iff_exists', List.mem_iff_getElem?]
  exact exists_congr fun id => by rw [h, Array.getElem?_toList]

/-- A name comes behind the others when it is not there. -/
theorem Valid.toList_names_intern (h : table.Valid) (name : String) :
    (table.intern name).2.names.toList =
      if name ∈ table.names.toList then table.names.toList else table.names.toList ++ [name] := by
  have hmem := h.mem_names_iff name
  cases hname : table.lookup? name with
  | some id => rw [intern_of_lookup?_eq_some hname, if_pos (hmem.2 (by simp [hname]))]
  | none =>
    rw [intern_of_lookup?_eq_none hname, if_neg (mt hmem.1 (by simp [hname]))]
    exact Array.toList_push

theorem internAll_concat (table : NameTable) (names : List String) (name : String) :
    table.internAll (names ++ [name]) = ((table.internAll names).intern name).2 :=
  List.foldl_concat ..

theorem toList_names_internAll (names : List String) :
    (empty.internAll names).names.toList = names.eraseDups := by
  induction names using List.reverseRecOn with
  | nil => rfl
  | append_singleton names name ih =>
    have hvalid := valid_empty.internAll names
    rw [internAll_concat, hvalid.toList_names_intern, ih, eraseDups_concat]
    simp only [List.mem_eraseDups]

theorem resolve_internAll_of_lt (h : id < table.names.size) (names : List String) :
    (table.internAll names).resolve id = table.resolve id := by
  induction names generalizing table with
  | nil => rfl
  | cons name names ih =>
    exact (ih (Nat.lt_of_lt_of_le h (table.size_le_intern name))).trans (resolve_intern_of_lt h)

/-! ## Requests -/

/-- Only the names that are entered make a difference to the table. -/
theorem askAll_eq_internAll (table : NameTable) (requests : List Request) :
    table.askAll requests = table.internAll (requests.filterMap Request.entered?) := by
  induction requests generalizing table with
  | nil => rfl
  | cons request requests ih =>
    cases request with
    | intern name => exact ih (table.intern name).2
    | lookup | resolve => exact ih table

theorem eraseDups_startNames : startNames.eraseDups = startNames := by
  decide +kernel

theorem toList_names_askAll (requests : List Request) :
    (common.askAll requests).names.toList = namesAfter requests := by
  -- a new table is itself one that names were entered into
  have hjoined : common.askAll requests =
      empty.internAll (startNames ++ requests.filterMap Request.entered?) := by
    rw [askAll_eq_internAll]
    exact List.foldl_append.symm
  rw [hjoined, toList_names_internAll, List.eraseDups_append, eraseDups_startNames]
  simp [namesAfter, List.removeAll]

theorem Valid.askAll (h : table.Valid) (requests : List Request) :
    (table.askAll requests).Valid := by
  rw [askAll_eq_internAll]
  exact h.internAll _

/-! ## Numbers -/

/-- A name with two places would have two numbers. -/
theorem Valid.nodup (h : table.Valid) : table.names.toList.Nodup := by
  rw [List.nodup_iff_getElem?_ne_getElem?]
  intro i j hij hj heq
  obtain ⟨name, hname⟩ : ∃ name, table.names[j]? = some name :=
    ⟨_, Array.getElem?_eq_getElem (by simpa using hj)⟩
  have hplace : table.names[i]? = some name := by
    rw [← hname, ← Array.getElem?_toList, ← Array.getElem?_toList, heq]
  rw [← h] at hname hplace
  exact Nat.ne_of_lt hij (Option.some.inj (hplace.symm.trans hname))

/-- A number that is given is in the table from then on, and spells its name. -/
theorem Valid.resolve_number (h : table.Valid) (hnumber : table.number? request = some (name, id)) :
    id < (table.ask request).names.size ∧ (table.ask request).resolve id = name := by
  cases request with
  | intern entered =>
    obtain ⟨rfl, rfl⟩ := Prod.mk.inj (Option.some.inj hnumber)
    exact ⟨h.intern_lt entered, h.resolve_intern entered⟩
  | lookup sought =>
    obtain ⟨found, hfound, heq⟩ := Option.map_eq_some_iff.1 hnumber
    obtain ⟨rfl, rfl⟩ := Prod.mk.inj heq
    exact (h.lookup?_eq_some_iff sought found).1 hfound
  | resolve => cases hnumber

theorem size_ask_le (table : NameTable) (request : Request) :
    (table.ask request).names.size ≤ table.names.size + 1 := by
  cases request with
  | intern name =>
    rw [ask, intern]
    split
    · exact Nat.le_succ _
    · exact Nat.le_of_eq (Array.size_push ..)
  | lookup | resolve => exact Nat.le_succ _

/-- Whatever a new table is asked, its names tell their history. -/
theorem tellsNames_askAll (requests : List Request) :
    (common.askAll requests).TellsNames (namesAfter requests) := by
  have hstored := toList_names_askAll requests
  have hvalid := valid_common.askAll requests
  generalize common.askAll requests = table at hstored hvalid
  constructor
  case stored => exact hstored
  case nodup => exact hvalid.nodup
  case lookup => exact hvalid.lookup?_eq_some_iff
  case known => exact intern_of_lookup?_eq_some
  case added =>
    intro name hname
    rw [intern_of_lookup?_eq_none hname, ← hstored]
    exact ⟨rfl, Array.size_push .., Array.toList_push⟩
  case unchanged =>
    intro requests hquiet
    rw [askAll_eq_internAll, List.filterMap_eq_nil_iff.2 hquiet]
    rfl
  case lasting =>
    intro request name id hnumber requests
    obtain ⟨hid, hresolve⟩ := hvalid.resolve_number hnumber
    rw [askAll_eq_internAll, resolve_internAll_of_lt hid, hresolve]
  case narrow =>
    intro request name id hnumber hsize
    have hid : id < table.size + 1 :=
      Nat.lt_of_lt_of_le (hvalid.resolve_number hnumber).1 (table.size_ask_le request)
    exact Nat.mod_eq_of_lt (Nat.lt_of_lt_of_le hid hsize)

end NameTable

end MarkupQuery
