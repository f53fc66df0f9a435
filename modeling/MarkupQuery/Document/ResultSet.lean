import MarkupQuery.Document.Basic

/-!
# Sets of results

What a query has found, by place.  A place can be emptied or filled anew, which moves no other; how
many items the query found is remembered through all changes.  Places lie side by side in memory, so
that there is no room for the places up to one that is too far off.
-/

namespace MarkupQuery

structure ResultSet where
  /-- How many items the query found. -/
  count : Nat
  slots : Array (Option Item)
  deriving Inhabited

namespace ResultSet

/-- The result of a query that has found the given items. -/
def ofList (items : List Item) : ResultSet :=
  ⟨items.length, (items.map some).toArray⟩

instance : BEq ResultSet where
  beq a b := a.count == b.count && a.slots == b.slots

/-- Whether the query has found nothing. -/
def isEmpty (r : ResultSet) : Bool := r.count == 0

/-- The item at a place. -/
def get? (r : ResultSet) (index : Nat) : Option Item := r.slots[index]?.join

def contains (r : ResultSet) (index : Nat) : Bool := (r.get? index).isSome

/-- How many places there is room for: a place takes 24 bytes, and all of them together fewer than
`2 ^ 63`. -/
def maxPlaces : Nat := 384307168202282325

/-- The slots up to a place and all others; those that did not exist are empty. -/
def slotsThrough (r : ResultSet) (index : Nat) : Array (Option Item) :=
  r.slots ++ Array.replicate (index + 1 - r.slots.size) none

/-- Puts an item at a place.  It fails when there is no room for the places before that do not exist
yet. -/
def set (r : ResultSet) (index : Nat) (item : Item) : Option ResultSet :=
  if index < max r.slots.size maxPlaces then
    some { r with slots := (r.slotsThrough index).setIfInBounds index (some item) }
  else none

/-- Empties a place, and gives the item that was there. -/
def remove (r : ResultSet) (index : Nat) : Option Item × ResultSet :=
  (r.get? index, { r with slots := r.slots.setIfInBounds index none })

/-- The items in order of their places. -/
def toList (r : ResultSet) : List Item := r.slots.toList.filterMap id

/-- The step of a loop at a place: the body for the item that is there, and nothing for an empty
place. -/
def visit {m : Type → Type} [Monad m] {β : Type} (body : Item → β → m (ForInStep β)) :
    Option Item → β → m (ForInStep β)
  | some item, state => body item state
  | none, state => pure (.yield state)

/-- A loop over a set of results goes through its places and passes over the empty ones. -/
instance {m : Type → Type} [Monad m] : ForIn m ResultSet Item where
  forIn r start body := forIn r.slots start (visit body)

def first? (r : ResultSet) : Option Item := r.toList.head?

/-- The string value of each item. -/
def strings (r : ResultSet) : List String := r.toList.map Item.stringValue

/-! ## Places after a change -/

/-- The places of a query's result are those of its items. -/
theorem get?_ofList (items : List Item) (index : Nat) :
    (ofList items).get? index = items[index]? := by
  simp only [get?, ofList, List.getElem?_toArray, List.getElem?_map]
  cases items[index]? <;> rfl

theorem getElem?_slotsThrough (r : ResultSet) (index other : Nat) :
    (r.slotsThrough index)[other]?.join = r.get? other := by
  rw [slotsThrough, get?]
  by_cases h : other < r.slots.size
  · rw [Array.getElem?_append_left h]
  · have outside : r.slots[other]? = none := Array.getElem?_eq_none (by omega)
    rw [Array.getElem?_append_right (by omega), Array.getElem?_replicate, outside]
    split <;> rfl

theorem size_slotsThrough (r : ResultSet) (index : Nat) :
    (r.slotsThrough index).size = max r.slots.size (index + 1) := by
  rw [slotsThrough, Array.size_append, Array.size_replicate]
  omega

theorem set_eq_some_iff {r r' : ResultSet} {index : Nat} {item : Item} :
    r.set index item = some r' ↔ index < max r.slots.size maxPlaces ∧
      { r with slots := (r.slotsThrough index).setIfInBounds index (some item) } = r' := by
  rw [set, Option.ite_none_right_eq_some, Option.some.injEq]

/-- A place holds what was put there last, and the others keep what they held. -/
theorem get?_set {r r' : ResultSet} {index : Nat} {item : Item} (h : r.set index item = some r')
    (other : Nat) : r'.get? other = if other = index then some item else r.get? other := by
  obtain ⟨-, rfl⟩ := set_eq_some_iff.1 h
  by_cases h : other = index
  · subst h
    have room : other < (r.slotsThrough other).size := by
      rw [size_slotsThrough]
      omega
    simp only [get?, ↓reduceIte]
    rw [Array.getElem?_setIfInBounds_self_of_lt room]
    rfl
  · rw [get?, if_neg h, Array.getElem?_setIfInBounds_ne (Ne.symm h)]
    exact getElem?_slotsThrough r index other

/-- A place that was emptied holds nothing, and the others keep what they held. -/
theorem get?_remove (r : ResultSet) (index other : Nat) :
    (r.remove index).2.get? other = if other = index then none else r.get? other := by
  by_cases h : other = index
  · subst h
    simp only [get?, remove, ↓reduceIte, Array.getElem?_setIfInBounds]
    split <;> rfl
  · simp only [get?, remove, h, ↓reduceIte]
    rw [Array.getElem?_setIfInBounds_ne (Ne.symm h)]

end ResultSet

end MarkupQuery
