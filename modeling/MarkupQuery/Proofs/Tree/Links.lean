import Mathlib.Logic.Relation
import Mathlib.Data.List.Nodup
import MarkupQuery.Html.Parser
import MarkupQuery.Tree.Order

/-!
# The links of a tree

The five links of each node say over and over what one function says once: the list of children of
every node.  `Linked t kids` is this agreement.  It holds of the empty tree with no children
anywhere, and every operation keeps it: attaching a node puts it at the end of one list, and the
others leave all lists as they are.
-/

namespace MarkupQuery

namespace Tree

/-- The parent of `x` is `y`. -/
def Up (t : Tree) (x y : NodeId) : Prop := t.parent? x = some y

/-- `x` is `y` or lies below it. -/
def Inside (t : Tree) : NodeId → NodeId → Prop := Relation.ReflTransGen t.Up

/-- `x` lies below `y`. -/
def Below (t : Tree) : NodeId → NodeId → Prop := Relation.TransGen t.Up

/-- The trees that can be built: nodes are created, given attributes and attached, and ranks are
asked for.  A node is attached at most once, the document never, and none below itself. -/
inductive Built : Tree → Prop where
  | empty : Built .empty
  | createElement {t : Tree} (h : Built t) (tag : String) : Built (t.createElement tag).2
  | createText {t : Tree} (h : Built t) (value : String) : Built (t.createText value).2
  | createComment {t : Tree} (h : Built t) (value : String) : Built (t.createComment value).2
  | createDoctype {t : Tree} (h : Built t) (name publicId systemId : String) :
      Built (t.createDoctype name publicId systemId).2
  | createInstruction {t : Tree} (h : Built t) (target data : String) :
      Built (t.createInstruction target data).2
  | setAttribute {t : Tree} (h : Built t) (element : NodeId) (name value : String) :
      Built (t.setAttribute element name value)
  | appendChild {t : Tree} (h : Built t) {parent child : NodeId}
      (hdetached : t.parent? child = none) (hroot : child ≠ root)
      (hacyclic : ¬ t.Below parent child) : Built (t.appendChild parent child)
  | rankNodes {t : Tree} (h : Built t) : Built t.rankNodes

/-- The trees that can be built when the document may be attached as well. -/
inductive Assembled : Tree → Prop where
  | empty : Assembled .empty
  | createElement {t : Tree} (h : Assembled t) (tag : String) : Assembled (t.createElement tag).2
  | createText {t : Tree} (h : Assembled t) (value : String) : Assembled (t.createText value).2
  | createComment {t : Tree} (h : Assembled t) (value : String) :
      Assembled (t.createComment value).2
  | createDoctype {t : Tree} (h : Assembled t) (name publicId systemId : String) :
      Assembled (t.createDoctype name publicId systemId).2
  | createInstruction {t : Tree} (h : Assembled t) (target data : String) :
      Assembled (t.createInstruction target data).2
  | setAttribute {t : Tree} (h : Assembled t) (element : NodeId) (name value : String) :
      Assembled (t.setAttribute element name value)
  | appendChild {t : Tree} (h : Assembled t) {parent child : NodeId}
      (hdetached : t.parent? child = none) (hacyclic : ¬ t.Below parent child) :
      Assembled (t.appendChild parent child)
  | rankNodes {t : Tree} (h : Assembled t) : Assembled t.rankNodes

/-- Where a link of a node leads to. -/
def link (t : Tree) (f : Node → Option NodeId) (id : NodeId) : Option NodeId := (t.get? id).bind f

/-- The links of all nodes agree with the lists of children `kids`. -/
structure Linked (t : Tree) (kids : NodeId → List NodeId) : Prop where
  lt_size {p c : NodeId} (h : c ∈ kids p) : p < t.size ∧ c < t.size
  nodup (p : NodeId) : (kids p).Nodup
  parent {c p : NodeId} : t.link Node.parent c = some p ↔ c ∈ kids p
  first (p : NodeId) : t.link Node.firstChild p = (kids p).head?
  last (p : NodeId) : t.link Node.lastChild p = (kids p).getLast?
  next {p c : NodeId} {before after : List NodeId} (h : kids p = before ++ c :: after) :
    t.link Node.nextSibling c = after.head?
  previous {p c : NodeId} {before after : List NodeId} (h : kids p = before ++ c :: after) :
    t.link Node.previousSibling c = before.getLast?
  alone {c : NodeId} (h : t.link Node.parent c = none) :
    t.link Node.nextSibling c = none ∧ t.link Node.previousSibling c = none
  /-- Going up ends: children lie deeper than their parents. -/
  depth : ∃ depth : NodeId → Nat, ∀ p c, c ∈ kids p → depth p < depth c

/-! ## Places in the arena -/

theorem get?_eq_none_iff {t : Tree} {id : NodeId} : t.get? id = none ↔ t.size ≤ id := by
  simp [get?, size]

theorem exists_get?_of_lt {t : Tree} {id : NodeId} (h : id < t.size) : ∃ n, t.get? id = some n :=
  Option.ne_none_iff_exists'.1 (mt get?_eq_none_iff.1 (Nat.not_le.2 h))

theorem lt_size_of_get? {t : Tree} {id : NodeId} {n : Node} (h : t.get? id = some n) :
    id < t.size :=
  (Array.getElem?_eq_some_iff.1 h).1

theorem lt_size_of_content {t : Tree} {id : NodeId} {content : Content}
    (h : (t.get? id).map Node.content = some content) : id < t.size := by
  obtain ⟨n, hn, -⟩ := Option.map_eq_some_iff.1 h
  exact lt_size_of_get? hn

theorem link_of_get? {t : Tree} {f : Node → Option NodeId} {id : NodeId} {n : Node}
    (h : t.get? id = some n) : t.link f id = f n := by
  simp [link, h]

theorem parent?_eq_link (t : Tree) (id : NodeId) : t.parent? id = t.link Node.parent id := rfl

namespace Linked

variable {t t' : Tree} {kids : NodeId → List NodeId}

theorem up_iff (h : t.Linked kids) {c p : NodeId} : t.Up c p ↔ c ∈ kids p := h.parent

theorem parent_unique (h : t.Linked kids) {c p q : NodeId} (hp : c ∈ kids p) (hq : c ∈ kids q) :
    p = q := by
  have hup := h.parent.2 hp
  rw [h.parent.2 hq] at hup
  exact (Option.some.inj hup).symm

/-- A tree with the same links, and perhaps further nodes without any, has the same children. -/
theorem of_links_eq (h : t.Linked kids) (hsize : t.size ≤ t'.size)
    (hlinks : ∀ f : Node → Option NodeId, (∀ content, f { content } = none) →
      (∀ (n : Node) content, f { n with content } = f n) → ∀ id, t'.link f id = t.link f id) :
    t'.Linked kids := by
  have hparent := hlinks Node.parent (fun _ => rfl) (fun _ _ => rfl)
  have hfirst := hlinks Node.firstChild (fun _ => rfl) (fun _ _ => rfl)
  have hlast := hlinks Node.lastChild (fun _ => rfl) (fun _ _ => rfl)
  have hnext := hlinks Node.nextSibling (fun _ => rfl) (fun _ _ => rfl)
  have hprevious := hlinks Node.previousSibling (fun _ => rfl) (fun _ _ => rfl)
  constructor
  · intro p c hc
    exact ⟨Nat.lt_of_lt_of_le (h.lt_size hc).1 hsize, Nat.lt_of_lt_of_le (h.lt_size hc).2 hsize⟩
  · exact h.nodup
  · intro c p
    rw [hparent, h.parent]
  · intro p
    rw [hfirst, h.first]
  · intro p
    rw [hlast, h.last]
  · intro p c before after hkids
    rw [hnext, h.next hkids]
  · intro p c before after hkids
    rw [hprevious, h.previous hkids]
  · intro c hc
    rw [hparent] at hc
    rw [hnext, hprevious]
    exact h.alone hc
  · exact h.depth

end Linked

/-! ## Operations that leave the shape as it is -/

variable {t : Tree} {kids : NodeId → List NodeId}

theorem linked_empty : empty.Linked fun _ => [] := by
  have hlink (f : Node → Option NodeId) (hf : f { content := .document } = none) (id : NodeId) :
      empty.link f id = none := by
    cases hget : empty.get? id with
    | none => simp [link, hget]
    | some n =>
      have hid : id = 0 := Nat.lt_one_iff.1 (lt_size_of_get? hget)
      subst hid
      cases hget
      simpa [link, get?, empty] using hf
  constructor
  case depth => exact ⟨id, by simp⟩
  all_goals simp [hlink]

theorem get?_push (content : Content) (id : NodeId) :
    (t.push content).2.get? id = if id = t.size then some { content } else t.get? id :=
  Array.getElem?_push

theorem Linked.push (h : t.Linked kids) (content : Content) : (t.push content).2.Linked kids := by
  refine h.of_links_eq (by rw [size_push]; exact Nat.le_succ _) fun f hf _ id => ?_
  simp only [link, get?_push]
  split
  · rename_i hid
    rw [get?_eq_none_iff.2 (Nat.le_of_eq hid.symm)]
    simp [hf]
  · rfl

theorem Linked.intern (h : t.Linked kids) (name : String) : (t.intern name).2.Linked kids :=
  h.of_links_eq (Nat.le_refl _) fun _ _ _ _ => rfl

theorem Linked.rankNodes (h : t.Linked kids) : t.rankNodes.Linked kids :=
  h.of_links_eq (Nat.le_refl _) fun _ _ _ _ => rfl

theorem get?_setAttribute (element : NodeId) (name value : String) (id : NodeId) :
    (t.setAttribute element name value).get? id =
      if element = id then (t.get? id).map fun n => n.setAttribute (t.intern name).1 value
      else t.get? id :=
  Array.getElem?_modify

theorem size_setAttribute (element : NodeId) (name value : String) :
    (t.setAttribute element name value).size = t.size :=
  Array.size_modify

theorem setAttribute_eq (n : Node) (name : NameId) (value : String) :
    n.setAttribute name value = { n with content := (n.setAttribute name value).content } := by
  unfold Node.setAttribute
  split <;> rfl

theorem Linked.setAttribute (h : t.Linked kids) (element : NodeId) (name value : String) :
    (t.setAttribute element name value).Linked kids := by
  refine h.of_links_eq (Nat.le_of_eq (size_setAttribute ..).symm) fun f _ hf id => ?_
  simp only [link, get?_setAttribute]
  split
  · cases t.get? id with
    | none => rfl
    | some n =>
      simp only [Option.map_some, Option.bind_some]
      rw [setAttribute_eq, hf]
  · rfl

/-! ## Attaching a node -/

/-- What attaching `child` under `parent`, whose last child was `last`, makes of node `id`. -/
def attached (parent child : NodeId) (last : Option NodeId) (id : NodeId) (n : Node) : Node :=
  let n := if child = id then
    { n with parent := some parent, previousSibling := last, nextSibling := none } else n
  let n := match last with
    | some last => if last = id then { n with nextSibling := some child } else n
    | none => if parent = id then { n with firstChild := some child } else n
  if parent = id then { n with lastChild := some child } else n

section

variable (parent child id : NodeId) (last : Option NodeId) (n : Node)

theorem parent_attached : (attached parent child last id n).parent =
    if child = id then some parent else n.parent := by
  cases last <;> simp only [attached] <;> split_ifs <;> rfl

theorem firstChild_attached : (attached parent child last id n).firstChild =
    if parent = id ∧ last = none then some child else n.firstChild := by
  cases last <;> simp only [attached] <;> split_ifs <;> simp_all

theorem lastChild_attached : (attached parent child last id n).lastChild =
    if parent = id then some child else n.lastChild := by
  cases last <;> simp only [attached] <;> split_ifs <;> rfl

theorem nextSibling_attached : (attached parent child last id n).nextSibling =
    if last = some id then some child else if child = id then none else n.nextSibling := by
  cases last <;> simp only [attached] <;> split_ifs <;> simp_all

theorem previousSibling_attached : (attached parent child last id n).previousSibling =
    if child = id then last else n.previousSibling := by
  cases last <;> simp only [attached] <;> split_ifs <;> rfl

theorem content_attached : (attached parent child last id n).content = n.content := by
  cases last <;> simp only [attached] <;> split_ifs <;> rfl

end

theorem get?_appendChild {parent child : NodeId} (hne : parent ≠ child) (hp : parent < t.size)
    (hc : child < t.size) (id : NodeId) :
    (t.appendChild parent child).get? id =
      (t.get? id).map (attached parent child (t.link Node.lastChild parent) id) := by
  obtain ⟨p, hp⟩ := exists_get?_of_lt hp
  obtain ⟨c, hc⟩ := exists_get?_of_lt hc
  rw [link_of_get? hp]
  simp only [appendChild, hne, ↓reduceIte, hp, hc]
  unfold attached
  cases p.lastChild with
  | none =>
    simp only [get?, Array.getElem?_modify]
    cases t.nodes[id]? <;> split_ifs <;> rfl
  | some last =>
    simp only [get?, Array.getElem?_modify]
    cases t.nodes[id]? <;> split_ifs <;> rfl

theorem appendChild_eq_self {parent child : NodeId}
    (h : parent = child ∨ t.size ≤ parent ∨ t.size ≤ child) : t.appendChild parent child = t := by
  unfold appendChild
  split
  · rfl
  · rcases h with h | h | h
    · contradiction
    · rw [get?_eq_none_iff.2 h]
    · rw [get?_eq_none_iff.2 h]
      cases t.get? parent <;> rfl

theorem map_content_appendChild (parent child x : NodeId) :
    ((t.appendChild parent child).get? x).map Node.content = (t.get? x).map Node.content := by
  by_cases hself : parent = child ∨ t.size ≤ parent ∨ t.size ≤ child
  · rw [appendChild_eq_self hself]
  · simp only [not_or, Nat.not_le] at hself
    rw [get?_appendChild hself.1 hself.2.1 hself.2.2, Option.map_map]
    exact Option.map_congr fun n _ => content_attached ..

theorem link_eq_none_of_size_le {f : Node → Option NodeId} {id : NodeId} (h : t.size ≤ id) :
    t.link f id = none := by
  simp [link, get?_eq_none_iff.2 h]

/-- A kind of link after attaching a node, from what becomes of it in each node. -/
theorem link_appendChild {parent child : NodeId} (hne : parent ≠ child) (hp : parent < t.size)
    (hc : child < t.size) {f : Node → Option NodeId} {g : NodeId → Option NodeId → Option NodeId}
    (hf : ∀ id n, f (attached parent child (t.link Node.lastChild parent) id n) = g id (f n))
    (hg : ∀ id, t.size ≤ id → g id none = none) (id : NodeId) :
    (t.appendChild parent child).link f id = g id (t.link f id) := by
  rcases Nat.lt_or_ge id t.size with hid | hid
  · obtain ⟨n, hn⟩ := exists_get?_of_lt hid
    have hget := get?_appendChild hne hp hc id
    rw [hn, Option.map_some] at hget
    rw [link_of_get? hget, link_of_get? hn, hf]
  · rw [link_eq_none_of_size_le hid, hg id hid,
      link_eq_none_of_size_le (by rw [size_appendChild]; exact hid)]

namespace Linked

/-- The children after `child` is attached under `parent`. -/
def addKid (kids : NodeId → List NodeId) (parent child : NodeId) : NodeId → List NodeId :=
  fun p => if p = parent then kids parent ++ [child] else kids p

theorem mem_addKid {kids : NodeId → List NodeId} {parent child p c : NodeId} :
    c ∈ addKid kids parent child p ↔ c ∈ kids p ∨ p = parent ∧ c = child := by
  unfold addKid
  split <;> simp_all

/-- Depths for the children after `child` is attached: what is inside `child` moves down. -/
theorem exists_depth_addKid (h : t.Linked kids) {parent child : NodeId}
    (hdetached : t.parent? child = none) (hne : parent ≠ child)
    (hacyclic : ¬ t.Below parent child) :
    ∃ depth : NodeId → Nat, ∀ p c, c ∈ addKid kids parent child p → depth p < depth c := by
  classical
  obtain ⟨depth, hdepth⟩ := h.depth
  refine ⟨fun x => if t.Inside x child then depth x + depth parent + 1 else depth x, ?_⟩
  have houtside : ¬ t.Inside parent child := by
    intro hinside
    rcases Relation.reflTransGen_iff_eq_or_transGen.1 hinside with heq | hbelow
    · exact hne heq.symm
    · exact hacyclic hbelow
  intro p c hc
  rcases mem_addKid.1 hc with hmem | ⟨rfl, rfl⟩
  · have hlt := hdepth p c hmem
    have hup : t.Up c p := h.up_iff.2 hmem
    by_cases hp : t.Inside p child
    · have hc : t.Inside c child := hp.head hup
      simp only [hp, hc, ↓reduceIte]
      omega
    · -- a node inside `child` whose parent is not there is `child`, which has no parent
      have hc : ¬ t.Inside c child := by
        intro hinside
        rcases Relation.ReflTransGen.cases_head hinside with rfl | ⟨q, hq, hinside⟩
        · rw [Up, hdetached] at hup
          cases hup
        · rw [Up] at hq hup
          rw [hup] at hq
          exact hp (Option.some.inj hq ▸ hinside)
      simp only [hp, hc, ↓reduceIte]
      exact hlt
  · have hinside : t.Inside c c := .refl
    simp only [houtside, hinside, ↓reduceIte]
    omega

theorem append_singleton_eq_append_cons {α : Type} {l before after : List α} {x c : α}
    (h : l ++ [x] = before ++ c :: after) :
    (c = x ∧ before = l ∧ after = []) ∨
      ∃ after', l = before ++ c :: after' ∧ after = after' ++ [x] := by
  rcases List.eq_nil_or_concat after with rfl | ⟨after', y, rfl⟩
  · obtain ⟨hl, hx⟩ := List.append_inj' h rfl
    exact .inl ⟨(List.cons.inj hx).1.symm, hl.symm, rfl⟩
  · rw [List.concat_eq_append, ← List.cons_append, ← List.append_assoc] at h
    obtain ⟨hl, hx⟩ := List.append_inj' h rfl
    exact .inr ⟨after', hl, by rw [List.concat_eq_append, (List.cons.inj hx).1]⟩

section Append

variable {parent child : NodeId}

theorem child_not_mem_kids (h : t.Linked kids) (hdetached : t.parent? child = none) (p : NodeId) :
    child ∉ kids p := by
  intro hmem
  rw [parent?_eq_link, h.parent.2 hmem] at hdetached
  cases hdetached

theorem lastChild_mem (h : t.Linked kids) {last : NodeId}
    (hlast : t.link Node.lastChild parent = some last) : last ∈ kids parent := by
  rw [h.last] at hlast
  exact List.mem_of_getLast? hlast

theorem parent_appendChild (hne : parent ≠ child) (hp : parent < t.size) (hc : child < t.size)
    (id : NodeId) : (t.appendChild parent child).link Node.parent id =
      if child = id then some parent else t.link Node.parent id :=
  link_appendChild hne hp hc (g := fun id o => if child = id then some parent else o)
    (fun _ _ => parent_attached ..)
    (fun _ hid => if_neg fun heq => absurd (heq ▸ hc) (Nat.not_lt.2 hid)) id

theorem firstChild_appendChild (hne : parent ≠ child) (hp : parent < t.size)
    (hc : child < t.size) (id : NodeId) : (t.appendChild parent child).link Node.firstChild id =
      if parent = id ∧ t.link Node.lastChild parent = none then some child
      else t.link Node.firstChild id :=
  link_appendChild hne hp hc
    (g := fun id o =>
      if parent = id ∧ t.link Node.lastChild parent = none then some child else o)
    (fun _ _ => firstChild_attached ..)
    (fun _ hid => if_neg fun heq => absurd (heq.1 ▸ hp) (Nat.not_lt.2 hid)) id

theorem lastChild_appendChild (hne : parent ≠ child) (hp : parent < t.size) (hc : child < t.size)
    (id : NodeId) : (t.appendChild parent child).link Node.lastChild id =
      if parent = id then some child else t.link Node.lastChild id :=
  link_appendChild hne hp hc (g := fun id o => if parent = id then some child else o)
    (fun _ _ => lastChild_attached ..)
    (fun _ hid => if_neg fun heq => absurd (heq ▸ hp) (Nat.not_lt.2 hid)) id

theorem nextSibling_appendChild (h : t.Linked kids) (hne : parent ≠ child) (hp : parent < t.size)
    (hc : child < t.size) (id : NodeId) :
    (t.appendChild parent child).link Node.nextSibling id =
      if t.link Node.lastChild parent = some id then some child
      else if child = id then none else t.link Node.nextSibling id :=
  link_appendChild hne hp hc
    (g := fun id o => if t.link Node.lastChild parent = some id then some child
      else if child = id then none else o)
    (fun _ _ => nextSibling_attached ..)
    (fun id hid => by
      have hlast : t.link Node.lastChild parent ≠ some id := fun heq =>
        absurd (h.lt_size (h.lastChild_mem heq)).2 (Nat.not_lt.2 hid)
      simp [hlast]) id

theorem previousSibling_appendChild (hne : parent ≠ child) (hp : parent < t.size)
    (hc : child < t.size) (id : NodeId) :
    (t.appendChild parent child).link Node.previousSibling id =
      if child = id then t.link Node.lastChild parent else t.link Node.previousSibling id :=
  link_appendChild hne hp hc
    (g := fun id o => if child = id then t.link Node.lastChild parent else o)
    (fun _ _ => previousSibling_attached ..)
    (fun _ hid => if_neg fun heq => absurd (heq ▸ hc) (Nat.not_lt.2 hid)) id

theorem next_addKid (h : t.Linked kids) (hp : parent < t.size) (hc : child < t.size)
    (hdetached : t.parent? child = none) (hne : parent ≠ child) {p c : NodeId}
    {before after : List NodeId} (hkids : addKid kids parent child p = before ++ c :: after) :
    (t.appendChild parent child).link Node.nextSibling c = after.head? := by
  have hnew := h.child_not_mem_kids hdetached
  rw [h.nextSibling_appendChild hne hp hc]
  unfold addKid at hkids
  split at hkids
  · rcases append_singleton_eq_append_cons hkids with ⟨rfl, rfl, rfl⟩ | ⟨after, hold, rfl⟩
    · have hlast : t.link Node.lastChild parent ≠ some c := fun heq =>
        hnew parent (h.lastChild_mem heq)
      simp [hlast]
    · have hmem : c ∈ kids parent := by simp [hold]
      have hchild : child ≠ c := fun heq => hnew parent (heq ▸ hmem)
      cases after with
      | nil => simp [h.last, hold]
      | cons z after =>
        -- further children stand behind `c`, so that it is not the last one
        have hlast : t.link Node.lastChild parent ≠ some c := by
          have hnodup := h.nodup parent
          rw [hold] at hnodup
          rw [h.last, hold]
          intro heq
          have hmem : c ∈ z :: after := List.mem_of_getLast? (by simpa using heq)
          simp_all [List.nodup_append]
        rw [if_neg hlast, if_neg hchild, h.next hold]
        rfl
  · rename_i hpne
    have hmem : c ∈ kids p := by simp [hkids]
    have hchild : child ≠ c := fun heq => hnew p (heq ▸ hmem)
    have hlast : t.link Node.lastChild parent ≠ some c := fun heq =>
      hpne (h.parent_unique hmem (h.lastChild_mem heq))
    rw [if_neg hlast, if_neg hchild, h.next hkids]

theorem previous_addKid (h : t.Linked kids) (hp : parent < t.size) (hc : child < t.size)
    (hdetached : t.parent? child = none) (hne : parent ≠ child) {p c : NodeId}
    {before after : List NodeId} (hkids : addKid kids parent child p = before ++ c :: after) :
    (t.appendChild parent child).link Node.previousSibling c = before.getLast? := by
  have hnew := h.child_not_mem_kids hdetached
  rw [previousSibling_appendChild hne hp hc]
  unfold addKid at hkids
  split at hkids
  · rcases append_singleton_eq_append_cons hkids with ⟨rfl, rfl, rfl⟩ | ⟨after, hold, rfl⟩
    · rw [if_pos rfl, h.last]
    · have hmem : c ∈ kids parent := by simp [hold]
      have hchild : child ≠ c := fun heq => hnew parent (heq ▸ hmem)
      rw [if_neg hchild, h.previous hold]
  · have hmem : c ∈ kids p := by simp [hkids]
    have hchild : child ≠ c := fun heq => hnew p (heq ▸ hmem)
    rw [if_neg hchild, h.previous hkids]

/-- Attaching a detached node puts it behind the other children of its parent. -/
theorem appendChild (h : t.Linked kids) (hp : parent < t.size) (hc : child < t.size)
    (hdetached : t.parent? child = none) (hne : parent ≠ child)
    (hacyclic : ¬ t.Below parent child) :
    (t.appendChild parent child).Linked (addKid kids parent child) := by
  have hnew := h.child_not_mem_kids hdetached
  constructor
  · intro p c hmem
    rw [size_appendChild]
    rcases mem_addKid.1 hmem with hmem | ⟨rfl, rfl⟩
    · exact h.lt_size hmem
    · exact ⟨hp, hc⟩
  · intro p
    unfold addKid
    split
    · exact List.nodup_append'.2 ⟨h.nodup _, by simp, by simpa using hnew parent⟩
    · exact h.nodup p
  · intro c p
    rw [mem_addKid, parent_appendChild hne hp hc]
    split
    · rename_i heq
      subst heq
      simp [hnew p, eq_comm]
    · rename_i hcne
      rw [h.parent]
      simp [Ne.symm hcne]
  · intro p
    rw [firstChild_appendChild hne hp hc, h.first]
    unfold addKid
    by_cases hparent : p = parent
    · subst hparent
      rw [h.last]
      cases kids p <;> simp
    · simp [hparent, Ne.symm hparent]
  · intro p
    rw [lastChild_appendChild hne hp hc, h.last]
    unfold addKid
    by_cases hparent : p = parent
    · subst hparent
      simp
    · simp [hparent, Ne.symm hparent]
  · exact h.next_addKid hp hc hdetached hne
  · exact h.previous_addKid hp hc hdetached hne
  · intro c hparent
    rw [parent_appendChild hne hp hc] at hparent
    split at hparent
    · cases hparent
    · rename_i hcne
      have hlast : t.link Node.lastChild parent ≠ some c := fun heq => by
        rw [h.parent.2 (h.lastChild_mem heq)] at hparent
        cases hparent
      rw [h.nextSibling_appendChild hne hp hc, previousSibling_appendChild hne hp hc,
        if_neg hlast, if_neg hcne, if_neg hcne]
      exact h.alone hparent
  · exact h.exists_depth_addKid hdetached hne hacyclic

end Append

end Linked

theorem Built.assembled {t : Tree} (h : t.Built) : t.Assembled := by
  induction h with
  | empty => exact .empty
  | createElement _ tag ih => exact ih.createElement tag
  | createText _ value ih => exact ih.createText value
  | createComment _ value ih => exact ih.createComment value
  | createDoctype _ name publicId systemId ih => exact ih.createDoctype name publicId systemId
  | createInstruction _ target data ih => exact ih.createInstruction target data
  | setAttribute _ element name value ih => exact ih.setAttribute element name value
  | appendChild _ hdetached _ hacyclic ih => exact ih.appendChild hdetached hacyclic
  | rankNodes _ ih => exact ih.rankNodes

/-- What holds of the empty tree and is kept by every change holds of all trees that can be built.
-/
theorem Assembled.of_changes {P : Tree → Prop} (hempty : P .empty)
    (hintern : ∀ t name, P t → P (t.intern name).2)
    (hpush : ∀ t content, Node.attributes { content } = [] → P t → P (t.push content).2)
    (hset : ∀ t element name value, P t → P (t.setAttribute element name value))
    (happend : ∀ t parent child, P t → t.parent? child = none → parent ≠ child →
      parent < t.size → child < t.size → ¬ t.Below parent child → P (t.appendChild parent child))
    (hrank : ∀ t, P t → P t.rankNodes) {t : Tree} (h : t.Assembled) : P t := by
  induction h with
  | empty => exact hempty
  | createElement _ tag ih => exact hpush _ _ rfl (hintern _ tag ih)
  | createText _ value ih => exact hpush _ _ rfl ih
  | createComment _ value ih => exact hpush _ _ rfl ih
  | createDoctype _ name _ _ ih => exact hpush _ _ rfl (hintern _ name ih)
  | createInstruction _ target _ ih => exact hpush _ _ rfl (hintern _ target ih)
  | setAttribute _ element name value ih => exact hset _ element name value ih
  | @appendChild t _ parent child hdetached hacyclic ih =>
    by_cases hself : parent = child ∨ t.size ≤ parent ∨ t.size ≤ child
    · rwa [appendChild_eq_self hself]
    · simp only [not_or, Nat.not_le] at hself
      exact happend t parent child ih hdetached hself.1 hself.2.1 hself.2.2 hacyclic
  | rankNodes _ ih => exact hrank _ ih

theorem Assembled.exists_linked {t : Tree} (h : t.Assembled) : ∃ kids, t.Linked kids := by
  refine h.of_changes (P := fun t => ∃ kids, t.Linked kids) ⟨_, linked_empty⟩ ?_ ?_ ?_ ?_ ?_
  · exact fun t name ⟨kids, hkids⟩ => ⟨kids, hkids.intern name⟩
  · exact fun t content _ ⟨kids, hkids⟩ => ⟨kids, hkids.push content⟩
  · exact fun t element name value ⟨kids, hkids⟩ => ⟨kids, hkids.setAttribute element name value⟩
  · exact fun t parent child ⟨kids, hkids⟩ hdetached hne hp hc hacyclic =>
      ⟨_, hkids.appendChild hp hc hdetached hne hacyclic⟩
  · exact fun t ⟨kids, hkids⟩ => ⟨kids, hkids.rankNodes⟩

theorem Built.exists_linked {t : Tree} (h : t.Built) : ∃ kids, t.Linked kids :=
  h.assembled.exists_linked

end Tree

end MarkupQuery
