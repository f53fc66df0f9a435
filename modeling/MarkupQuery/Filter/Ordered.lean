/-!
# Maps and sets in order of insertion

Arguments keep the order in which they are given.  A map is a list of entries with distinct keys,
and a new value for a key that is there takes the old one's place; a set is a list without
repetitions, which `List.eraseDups` makes by keeping first occurrences.
-/

namespace MarkupQuery

/-- Gives a key its value: in place when the key is there, behind the others when not. -/
def putEntry {α : Type} (key : String) (value : α) : List (String × α) → List (String × α)
  | [] => [(key, value)]
  | entry :: rest =>
    if entry.1 = key then (key, value) :: rest else entry :: putEntry key value rest

/-- Gives values to keys one after another. -/
def putEntries {α : Type} (entries new : List (String × α)) : List (String × α) :=
  new.foldl (fun entries entry => putEntry entry.1 entry.2 entries) entries

/-- Keys that are there keep their places, and a new key comes last. -/
theorem keys_putEntry {α : Type} (key : String) (value : α) (entries : List (String × α)) :
    (putEntry key value entries).map Prod.fst =
      if key ∈ entries.map Prod.fst then entries.map Prod.fst
      else entries.map Prod.fst ++ [key] := by
  induction entries with
  | nil => simp [putEntry]
  | cons entry rest ih =>
    by_cases h : entry.1 = key
    · simp [putEntry, h]
    · have hne : ¬ key = entry.1 := fun e => h e.symm
      simp only [putEntry, h, ↓reduceIte, List.map_cons, ih, List.mem_cons, hne, false_or]
      split <;> simp

end MarkupQuery
