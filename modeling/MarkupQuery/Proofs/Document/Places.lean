import Mathlib.Data.List.Basic
import Mathlib.Data.List.Induction
import MarkupQuery.Document.ResultSet

/-!
# Places of results

A set of results is a partial map from places to items.  However it is changed, each place holds
what the last change of it left there, or what the query found for it, and every way to go through
the set meets the items of the occupied places in the order of these.  Only for a place too far off
there is no room.
-/

namespace MarkupQuery

namespace ResultSet

/-- What can be done to a set of results. -/
inductive Change where
  | set (index : Nat) (item : Item)
  | remove (index : Nat)

/-- The place that a change concerns. -/
def Change.index : Change → Nat
  | set index _ => index
  | remove index => index

/-- What a change leaves in its place. -/
def Change.leaves : Change → Option Item
  | set _ item => some item
  | remove _ => none

/-- Whether there is room for a change of what a query has found: places are made for items that are
put behind the others, and never to empty them. -/
def Change.HasRoom (found : Nat) : Change → Prop
  | set index _ => index < max found maxPlaces
  | remove _ => True

instance (found : Nat) (change : Change) : Decidable (change.HasRoom found) :=
  match change with
  | .set index _ => inferInstanceAs (Decidable (index < max found maxPlaces))
  | .remove _ => isTrue trivial

/-- The set after a change. -/
def change (r : ResultSet) : Change → Option ResultSet
  | .set index item => r.set index item
  | .remove index => some (r.remove index).2

/-- The set after changes, one after another, as long as there is room for them. -/
def changeAll (r : ResultSet) (changes : List Change) : Option ResultSet := changes.foldlM change r

/-- What a place holds by its history: what its last change left there, and what was found for it
when there was no change. -/
def heldAfter (found : List Item) (changes : List Change) (index : Nat) : Option Item :=
  match (changes.filter (·.index = index)).getLast? with
  | some last => last.leaves
  | none => found[index]?

/-- The values of the occupied places, in the order of the places. -/
def InPlaceOrder {α : Type} (held : Nat → Option α) (values : List α) : Prop :=
  ∃ places : List Nat, places.Pairwise (· < ·) ∧ (∀ i, i ∈ places ↔ held i ≠ none) ∧
    values.map some = places.map held

/-- The places of a set hold what `held` says, the set remembers that the query found `found` items,
and goes through what is held in the order of the places. -/
structure TellsPlaces (r : ResultSet) (found : Nat) (held : Nat → Option Item) : Prop where
  get? (i : Nat) : r.get? i = held i
  contains (i : Nat) : r.contains i = true ↔ held i ≠ none
  removed (i : Nat) : (r.remove i).1 = held i
  others {change : Change} {r' : ResultSet} (h : r.change change = some r') {i : Nat}
    (hi : i ≠ change.index) : r'.get? i = held i
  count : r.count = found
  isEmpty : r.isEmpty = true ↔ found = 0
  toList : InPlaceOrder held r.toList
  loop {m : Type → Type} [Monad m] [LawfulMonad m] {β : Type} (start : β)
    (body : Item → β → m (ForInStep β)) : forIn r start body = forIn r.toList start body
  first? (item : Item) :
    r.first? = some item ↔ ∃ i, held i = some item ∧ ∀ j < i, held j = none
  strings : InPlaceOrder (fun i => (held i).map Item.stringValue) r.strings

variable {r r' : ResultSet} {found : List Item} {changes : List Change} {last : Change}
  {α β : Type} {held : Nat → Option α} {values : List α}

/-! ## Changes -/

theorem get?_change (h : r.change last = some r') (i : Nat) :
    r'.get? i = if i = last.index then last.leaves else r.get? i := by
  cases last with
  | set index item => exact get?_set h i
  | remove index =>
    obtain rfl := Option.some.inj h
    exact get?_remove r index i

theorem count_change (h : r.change last = some r') : r'.count = r.count := by
  cases last with
  | set index item =>
    obtain ⟨-, rfl⟩ := set_eq_some_iff.1 h
    rfl
  | remove index =>
    obtain rfl := Option.some.inj h
    rfl

/-- A change makes no more places than there is room for. -/
theorem max_size_change (h : r.change last = some r') :
    max r'.slots.size maxPlaces = max r.slots.size maxPlaces := by
  cases last with
  | set index item =>
    obtain ⟨hroom, rfl⟩ := set_eq_some_iff.1 h
    rw [Array.size_setIfInBounds, size_slotsThrough]
    omega
  | remove index =>
    obtain rfl := Option.some.inj h
    rw [remove, Array.size_setIfInBounds]

/-- A change goes through just when there is room for it. -/
theorem isSome_change (r : ResultSet) (change : Change) :
    (r.change change).isSome ↔ change.HasRoom r.slots.size := by
  cases change with
  | set index item => simp [ResultSet.change, set, Change.HasRoom]
  | remove index => simp [ResultSet.change, Change.HasRoom]

theorem changeAll_concat (r : ResultSet) (changes : List Change) (change : Change) :
    r.changeAll (changes ++ [change]) = (r.changeAll changes).bind (·.change change) := by
  simp [changeAll, List.foldlM_append]

theorem heldAfter_concat (found : List Item) (changes : List Change) (change : Change) (i : Nat) :
    heldAfter found (changes ++ [change]) i =
      if i = change.index then change.leaves else heldAfter found changes i := by
  rw [heldAfter, List.filter_append]
  by_cases hi : i = change.index
  · simp [hi]
  · simp [hi, Ne.symm hi, heldAfter]

/-- A set after changes to what a query has found: what its places hold, and how many places there
are or may be. -/
structure Follows (found : List Item) (changes : List Change) (r : ResultSet) : Prop where
  get? (i : Nat) : r.get? i = heldAfter found changes i
  count : r.count = found.length
  room : max r.slots.size maxPlaces = max found.length maxPlaces

theorem follows_ofList (found : List Item) : Follows found [] (ofList found) where
  get? := get?_ofList found
  count := rfl
  room := by simp [ofList]

theorem Follows.change (h : Follows found changes r) (hchange : r.change last = some r') :
    Follows found (changes ++ [last]) r' where
  get? i := by rw [get?_change hchange, h.get?, heldAfter_concat]
  count := (count_change hchange).trans h.count
  room := (max_size_change hchange).trans h.room

theorem Follows.isSome_change_iff (h : Follows found changes r) :
    (r.change last).isSome ↔ last.HasRoom found.length := by
  rw [isSome_change]
  cases last with
  | set index item => rw [Change.HasRoom, Change.HasRoom, h.room]
  | remove index => rfl

/-- Changes go through just when there is room for each of them. -/
theorem changeAll_iff (found : List Item) (changes : List Change) :
    (∀ r, (ofList found).changeAll changes = some r → Follows found changes r) ∧
      (((ofList found).changeAll changes).isSome ↔
        ∀ change ∈ changes, change.HasRoom found.length) := by
  induction changes using List.reverseRecOn with
  | nil =>
    refine ⟨fun r h => ?_, by simp [changeAll]⟩
    obtain rfl := Option.some.inj h
    exact follows_ofList found
  | append_singleton changes change ih =>
    obtain ⟨hfollows, hroom⟩ := ih
    rw [changeAll_concat, List.forall_mem_append, List.forall_mem_singleton, ← hroom]
    cases hr : (ofList found).changeAll changes with
    | none => simp
    | some r =>
      have hr := hfollows r hr
      refine ⟨fun r' h => hr.change h, ?_⟩
      simpa using hr.isSome_change_iff

/-! ## Going through the places -/

theorem map_some_filterMap (slots : List (Option α)) :
    (slots.filterMap id).map some = slots.filter Option.isSome := by
  induction slots with
  | nil => rfl
  | cons slot slots ih =>
    cases slot with
    | none => exact ih
    | some a => exact congrArg (some a :: ·) ih

/-- What the slots hold stands in the order of the slots. -/
theorem inPlaceOrder_filterMap (slots : List (Option α)) :
    InPlaceOrder (fun i => slots[i]?.join) (slots.filterMap id) := by
  have hslots : slots = (List.range slots.length).map (fun i => slots[i]?.join) := by
    refine List.ext_getElem (by simp) fun i hi _ => ?_
    simp [hi]
  refine ⟨(List.range slots.length).filter fun i => slots[i]?.join.isSome,
    List.pairwise_lt_range.filter _, fun i => ?_, ?_⟩
  · have hbound : slots[i]?.join ≠ none → i < slots.length := fun h => by
      by_contra hi
      simp [List.getElem?_eq_none (Nat.le_of_not_lt hi)] at h
    simpa [Option.isSome_iff_ne_none] using hbound
  · calc (slots.filterMap id).map some = slots.filter Option.isSome := map_some_filterMap slots
      _ = _ := by
          conv_lhs => rw [hslots]
          exact List.filter_map ..

theorem inPlaceOrder_toList (r : ResultSet) : InPlaceOrder r.get? r.toList := by
  have hget : r.get? = fun i => r.slots.toList[i]?.join :=
    funext fun i => by rw [get?, Array.getElem?_toList]
  rw [hget]
  exact inPlaceOrder_filterMap r.slots.toList

/-- Values in the order of their places stay so when each is turned into another. -/
theorem InPlaceOrder.map (h : InPlaceOrder held values) (f : α → β) :
    InPlaceOrder (fun i => (held i).map f) (values.map f) := by
  obtain ⟨places, hsorted, hmem, hvalues⟩ := h
  refine ⟨places, hsorted, fun i => by simp [hmem i], ?_⟩
  calc (values.map f).map some = (values.map some).map (Option.map f) := by simp
    _ = places.map fun i => (held i).map f := by rw [hvalues, List.map_map]; rfl

/-- The first of the values is that of the first occupied place. -/
theorem InPlaceOrder.head?_eq_some_iff (h : InPlaceOrder held values) (a : α) :
    values.head? = some a ↔ ∃ i, held i = some a ∧ ∀ j < i, held j = none := by
  obtain ⟨places, hsorted, hmem, hvalues⟩ := h
  have hhead : values.head?.map some = places.head?.map held := by
    rw [← List.head?_map, hvalues, List.head?_map]
  cases places with
  | nil =>
    have hnone : ∀ i, held i = none := by simpa using hmem
    simp_all
  | cons p places =>
    have hbefore : ∀ j < p, held j = none := fun j hj => by
      by_contra hj'
      cases (hmem j).2 hj' with
      | head => exact Nat.lt_irrefl _ hj
      | tail _ hmem => exact Nat.lt_asymm hj (List.rel_of_pairwise_cons hsorted hmem)
    have hp : held p ≠ none := (hmem p).1 List.mem_cons_self
    have hfirst : values.head? = some a ↔ held p = some a := by
      cases values <;> simp_all
    refine hfirst.trans ⟨fun ha => ⟨p, ha, hbefore⟩, fun ⟨i, ha, hi⟩ => ?_⟩
    have hpi : ¬ p < i := fun h => hp (hi p h)
    have hip : ¬ i < p := fun h => by simp [hbefore i h] at ha
    rwa [show p = i by omega]

theorem forIn_visit {m : Type → Type} [Monad m] [LawfulMonad m] (slots : List (Option Item))
    (start : β) (body : Item → β → m (ForInStep β)) :
    forIn slots start (visit body) = forIn (slots.filterMap id) start body := by
  induction slots generalizing start with
  | nil => rfl
  | cons slot slots ih =>
    cases slot with
    | none => simp [visit, ih]
    | some item => simp [visit, ih]

theorem forIn_toList {m : Type → Type} [Monad m] [LawfulMonad m] (r : ResultSet) (start : β)
    (body : Item → β → m (ForInStep β)) : forIn r start body = forIn r.toList start body :=
  Array.forIn_toList.symm.trans (forIn_visit r.slots.toList start body)

theorem Follows.tellsPlaces (h : Follows found changes r) :
    TellsPlaces r found.length (heldAfter found changes) := by
  have hheld : heldAfter found changes = r.get? := (funext h.get?).symm
  rw [hheld]
  have horder := inPlaceOrder_toList r
  exact
    { get? := fun _ => rfl
      contains := fun i => Option.isSome_iff_ne_none
      removed := fun _ => rfl
      others := fun hchange i hi => by rw [get?_change hchange, if_neg hi]
      count := h.count
      isEmpty := by rw [isEmpty, h.count]; exact beq_iff_eq
      toList := horder
      loop := forIn_toList r
      first? := horder.head?_eq_some_iff
      strings := horder.map Item.stringValue }

/-- Whatever is done to the result of a query, its places tell their history, as long as there is
room for what is put into them.  Without room for one of the changes there is no result. -/
theorem tellsPlaces_changeAll (found : List Item) (changes : List Change) :
    if ∀ change ∈ changes, change.HasRoom found.length then
      ∃ r, (ofList found).changeAll changes = some r ∧
        TellsPlaces r found.length (heldAfter found changes)
    else (ofList found).changeAll changes = none := by
  obtain ⟨hfollows, hroom⟩ := changeAll_iff found changes
  split_ifs with h
  · obtain ⟨r, hr⟩ := Option.isSome_iff_exists.1 (hroom.2 h)
    exact ⟨r, hr, (hfollows r hr).tellsPlaces⟩
  · exact Option.not_isSome_iff_eq_none.1 (mt hroom.1 h)

/-- An item cannot be put at a place that is too far off, though a word can hold the number of the
place. -/
theorem changeAll_far_off :
    let item : Item := ⟨.ofNodes 0 [.element "a" [] []], .element, 1⟩
    4611686018427387904 < UInt64.size - 1 ∧
      (ofList [item]).changeAll [.set 4611686018427387904 item] = none :=
  ⟨by decide, rfl⟩

end ResultSet

end MarkupQuery
