import MarkupQuery.Proofs.Tree.Position

/-!
# Trees and their history

What is done to a tree, one operation after another, says which nodes were attached under which.
This record is an ordered forest, and after every operation the links of the tree tell the same
forest: an operation that attaches a node puts it at the end of one list of children, and the others
leave the forest as it is.
-/

namespace MarkupQuery

namespace Tree

/-- What can be done to a tree. -/
inductive Operation where
  | createElement (tag : String)
  | createText (value : String)
  | createComment (value : String)
  | createDoctype (name publicId systemId : String)
  | createInstruction (target data : String)
  | setAttribute (element : NodeId) (name value : String)
  | appendChild (parent child : NodeId)
  | askRank (id : NodeId)
  deriving DecidableEq, Repr

/-- The tree after an operation. -/
def perform (t : Tree) : Operation → Tree
  | .createElement tag => (t.createElement tag).2
  | .createText value => (t.createText value).2
  | .createComment value => (t.createComment value).2
  | .createDoctype name publicId systemId => (t.createDoctype name publicId systemId).2
  | .createInstruction target data => (t.createInstruction target data).2
  | .setAttribute element name value => t.setAttribute element name value
  | .appendChild parent child => t.appendChild parent child
  | .askRank id => (t.askRank id).2

/-- The tree after operations, one after another. -/
def performAll (t : Tree) (operations : List Operation) : Tree := operations.foldl perform t

/-- The number of nodes that an operation makes. -/
def Operation.created : Operation → Nat
  | createElement _ | createText _ | createComment _ | createDoctype .. | createInstruction .. => 1
  | setAttribute .. | appendChild .. | askRank _ => 0

/-- The parent and the child that an operation brings together in a tree of `size` nodes.  It does
nothing when the two are one node or when either is none of the tree's. -/
def Operation.attachment? (size : Nat) : Operation → Option (NodeId × NodeId)
  | appendChild parent child =>
    if parent ≠ child ∧ parent < size ∧ child < size then some (parent, child) else none
  | _ => none

/-- The parents and children that operations bring together, in order. -/
def attachments : (size : Nat) → List Operation → List (NodeId × NodeId)
  | _, [] => []
  | size, operation :: rest =>
    (operation.attachment? size).toList ++ attachments (size + operation.created) rest

/-- The children among parents and children that belong to one parent. -/
def childrenIn (record : List (NodeId × NodeId)) (parent : NodeId) : List NodeId :=
  (record.filter (·.1 = parent)).map Prod.snd

/-- The lists of children `kids` with those of a record behind them. -/
def grown (kids : NodeId → List NodeId) (record : List (NodeId × NodeId)) : NodeId → List NodeId :=
  fun p => kids p ++ childrenIn record p

/-- The nodes that operations on an empty tree attach under a node, in order. -/
def attachedUnder (operations : List Operation) : NodeId → List NodeId :=
  childrenIn (attachments 1 operations)

/-- A node may be attached that has no parent, is not the document, and is not above its new
parent. -/
def Permits (t : Tree) (operation : Operation) : Prop :=
  ∀ parent child, operation.attachment? t.size = some (parent, child) →
    t.parent? child = none ∧ child ≠ root ∧ ¬ t.Below parent child

/-- Every one of the operations is permitted when its turn comes. -/
def PermitsAll : Tree → List Operation → Prop
  | _, [] => True
  | t, operation :: rest => t.Permits operation ∧ (t.perform operation).PermitsAll rest

/-- The links of a tree tell the forest with the lists of children `kids`, and attaching a node to
itself, or where either number has no node, leaves the tree as it is. -/
structure TellsForest (t : Tree) (kids : NodeId → List NodeId) : Prop where
  children (p : NodeId) : t.children p = kids p
  nodup (p : NodeId) : (kids p).Nodup
  parent (c p : NodeId) : t.parent? c = some p ↔ c ∈ kids p
  siblings {p c : NodeId} {before after : List NodeId} (h : kids p = before ++ c :: after) :
    t.link Node.previousSibling c = before.getLast? ∧ t.link Node.nextSibling c = after.head?
  ends (p : NodeId) :
    t.link Node.firstChild p = (kids p).head? ∧ t.link Node.lastChild p = (kids p).getLast?
  top (x : NodeId) : ∃ top, t.Inside x top ∧ t.parent? top = none
  unchanged {parent child : NodeId}
    (h : parent = child ∨ t.size ≤ parent ∨ t.size ≤ child) : t.appendChild parent child = t

variable {t : Tree} {kids : NodeId → List NodeId} {operation : Operation}
  {operations : List Operation}

/-! ## Records -/

theorem grown_nil (kids : NodeId → List NodeId) : grown kids [] = kids :=
  funext fun p => List.append_nil (kids p)

theorem grown_append (kids : NodeId → List NodeId) (record record' : List (NodeId × NodeId)) :
    grown kids (record ++ record') = grown (grown kids record) record' := by
  funext p
  simp [grown, childrenIn]

theorem addKid_eq_grown (kids : NodeId → List NodeId) (parent child : NodeId) :
    Linked.addKid kids parent child = grown kids [(parent, child)] := by
  funext p
  by_cases h : p = parent
  · simp [Linked.addKid, grown, childrenIn, h]
  · simp [Linked.addKid, grown, childrenIn, h, Ne.symm h]

theorem attachment?_appendChild_eq_some {size : Nat} {parent child : NodeId}
    (h : parent ≠ child ∧ parent < size ∧ child < size) :
    (Operation.appendChild parent child).attachment? size = some (parent, child) :=
  if_pos h

theorem attachment?_appendChild_eq_none {size : Nat} {parent child : NodeId}
    (h : ¬ (parent ≠ child ∧ parent < size ∧ child < size)) :
    (Operation.appendChild parent child).attachment? size = none :=
  if_neg h

theorem appendChild_eq_self_of_not {parent child : NodeId}
    (h : ¬ (parent ≠ child ∧ parent < t.size ∧ child < t.size)) :
    t.appendChild parent child = t := by
  simp only [not_and_or, not_not, Nat.not_lt] at h
  exact appendChild_eq_self h

/-! ## One operation -/

theorem size_perform (t : Tree) (operation : Operation) :
    (t.perform operation).size = t.size + operation.created := by
  cases operation with
  | createElement | createText | createComment | createDoctype | createInstruction =>
    exact size_push _ _
  | setAttribute element name value => exact size_setAttribute element name value
  | appendChild parent child => exact size_appendChild t parent child
  | askRank => rfl

/-- An operation puts the node that it attaches behind the other children of its parent. -/
theorem Linked.perform (h : t.Linked kids) (hpermits : t.Permits operation) :
    (t.perform operation).Linked (grown kids (operation.attachment? t.size).toList) := by
  have hsame {t' : Tree} (h' : t'.Linked kids) : t'.Linked (grown kids []) :=
    (grown_nil kids).symm ▸ h'
  cases operation with
  | createElement tag => exact hsame ((h.intern tag).push _)
  | createText | createComment => exact hsame (h.push _)
  | createDoctype name => exact hsame ((h.intern name).push _)
  | createInstruction target => exact hsame ((h.intern target).push _)
  | setAttribute element name value => exact hsame (h.setAttribute element name value)
  | askRank => exact hsame h.rankNodes
  | appendChild parent child =>
    by_cases htakes : parent ≠ child ∧ parent < t.size ∧ child < t.size
    · have hattachment := attachment?_appendChild_eq_some htakes
      obtain ⟨hdetached, -, hacyclic⟩ := hpermits parent child hattachment
      rw [hattachment, Option.toList_some, ← addKid_eq_grown]
      exact h.appendChild htakes.2.1 htakes.2.2 hdetached htakes.1 hacyclic
    · rw [attachment?_appendChild_eq_none htakes, Tree.perform, appendChild_eq_self_of_not htakes]
      exact hsame h

theorem Built.perform (h : t.Built) (hpermits : t.Permits operation) :
    (t.perform operation).Built := by
  cases operation with
  | createElement tag => exact h.createElement tag
  | createText value => exact h.createText value
  | createComment value => exact h.createComment value
  | createDoctype name publicId systemId => exact h.createDoctype name publicId systemId
  | createInstruction target data => exact h.createInstruction target data
  | setAttribute element name value => exact h.setAttribute element name value
  | askRank => exact h.rankNodes
  | appendChild parent child =>
    by_cases htakes : parent ≠ child ∧ parent < t.size ∧ child < t.size
    · obtain ⟨hdetached, hroot, hacyclic⟩ :=
        hpermits parent child (attachment?_appendChild_eq_some htakes)
      exact h.appendChild hdetached hroot hacyclic
    · rw [Tree.perform, appendChild_eq_self_of_not htakes]
      exact h

/-! ## All operations -/

theorem Linked.performAll (h : t.Linked kids) (hpermits : t.PermitsAll operations) :
    (t.performAll operations).Linked (grown kids (attachments t.size operations)) := by
  induction operations generalizing t kids with
  | nil =>
    rw [attachments, grown_nil]
    exact h
  | cons operation rest ih =>
    obtain ⟨hfirst, hrest⟩ := hpermits
    have hlinked := ih (h.perform hfirst) hrest
    rwa [size_perform, ← grown_append] at hlinked

theorem Built.performAll (h : t.Built) (hpermits : t.PermitsAll operations) :
    (t.performAll operations).Built := by
  induction operations generalizing t with
  | nil => exact h
  | cons operation rest ih => exact ih (h.perform hpermits.1) hpermits.2

theorem Linked.tellsForest (h : t.Linked kids) : t.TellsForest kids where
  children := h.children_eq
  nodup := h.nodup
  parent _ _ := h.parent
  siblings hkids := ⟨h.previous hkids, h.next hkids⟩
  ends p := ⟨h.first p, h.last p⟩
  top x := by
    obtain ⟨top, hnone, hinside⟩ := h.exists_top x
    exact ⟨top, hinside, hnone⟩
  unchanged := appendChild_eq_self

/-- After any operations, and so after each of them, the links of the tree tell which nodes were
attached under which, in the order in which they were attached. -/
theorem tellsForest_performAll (h : Tree.empty.PermitsAll operations) :
    (Tree.empty.performAll operations).TellsForest (attachedUnder operations) := by
  have hlinked := linked_empty.performAll h
  have hrecord : grown (fun _ => []) (attachments Tree.empty.size operations) =
      attachedUnder operations := rfl
  rw [hrecord] at hlinked
  exact hlinked.tellsForest

theorem permits_of_attachment?_eq_none (h : operation.attachment? t.size = none) :
    t.Permits operation := by
  intro parent child heq
  rw [h] at heq
  cases heq

/-- One detached node may be attached under another. -/
theorem permits_of_detached {parent child : NodeId} (hparent : t.parent? parent = none)
    (hchild : t.parent? child = none) (hroot : child ≠ root) :
    t.Permits (.appendChild parent child) := by
  intro parent' child' heq
  have hpair : (parent, child) = (parent', child') :=
    Option.some.inj (Option.ite_none_right_eq_some.1 heq).2
  obtain ⟨rfl, rfl⟩ := Prod.mk.inj hpair
  refine ⟨hchild, hroot, fun hbelow => ?_⟩
  obtain ⟨p, hup, -⟩ := Relation.TransGen.head'_iff.1 hbelow
  rw [Up, hparent] at hup
  cases hup

/-- A text is put into an element, a rank is asked for, and the element is put into the document.
In the end two operations are tried that do nothing. -/
def builtApart : List Operation :=
  [.createText "a", .createElement "p", .appendChild 2 1, .askRank 1, .appendChild root 2,
    .appendChild 2 2, .appendChild 2 7]

theorem permitsAll_builtApart : Tree.empty.PermitsAll builtApart := by
  refine ⟨permits_of_attachment?_eq_none rfl, permits_of_attachment?_eq_none rfl,
    permits_of_detached ?_ ?_ (by decide), permits_of_attachment?_eq_none rfl,
    permits_of_detached ?_ ?_ (by decide), permits_of_attachment?_eq_none ?_,
    permits_of_attachment?_eq_none ?_, trivial⟩
  all_goals decide +kernel

theorem tellsForest_performAll_builtApart :
    Tree.empty.PermitsAll builtApart ∧
      (Tree.empty.performAll builtApart).TellsForest (attachedUnder builtApart) :=
  ⟨permitsAll_builtApart, tellsForest_performAll permitsAll_builtApart⟩

end Tree

end MarkupQuery
