import MarkupQuery.Document.Basic
import MarkupQuery.Proofs.Tree.Growth

/-!
# Trees of markup are built

The stack of nodes still to be entered does what a recursion over the nodes does: a node is made and
attached, what is below it is entered under it, and then come the nodes after it.  `Enters` is this
recursion, and the loop with the stack follows it.  Entering takes nothing but the operations of
trees, and a node is attached when it has just been made.
-/

namespace MarkupQuery

namespace Html

open MarkupQuery.Tree

/-- `Enters keepBlank t parent nodes t'`: the tree `t` becomes `t'` when `nodes` are entered one
after another as the last children of `parent`. -/
inductive Enters (keepBlank : Bool) : Tree → NodeId → List Node → Tree → Prop where
  | nil {t : Tree} {parent : NodeId} : Enters keepBlank t parent [] t
  | skip {t t' : Tree} {parent : NodeId} {node : Node} {rest : List Node}
      (hnode : createNode keepBlank t node = none) (hrest : Enters keepBlank t parent rest t') :
      Enters keepBlank t parent (node :: rest) t'
  | enter {t made below t' : Tree} {parent id : NodeId} {node : Node} {rest : List Node}
      (hnode : createNode keepBlank t node = some (id, made))
      (hbelow : Enters keepBlank (made.appendChild parent id) id node.children below)
      (hrest : Enters keepBlank below parent rest t') :
      Enters keepBlank t parent (node :: rest) t'

variable {keepBlank : Bool} {t t' : Tree} {parent : NodeId} {nodes : List Node}

theorem count_eq (node : Node) : node.count = countAll node.children + 1 := by
  cases node <;> rfl

theorem children_eq_nil_of_createNode {node : Node} (h : createNode keepBlank t node = none) :
    node.children = [] := by
  cases node with
  | element => cases h
  | doctype | text | comment | instruction => rfl

/-! ## The loop -/

/-- The loop enters the nodes on top of its stack and then goes on with the others, with a step for
every node that it had. -/
theorem Enters.enterAll_eq (h : Enters keepBlank t parent nodes t') (bound : Nat)
    (stack : List (NodeId × Node)) :
    enterAll keepBlank (countAll nodes + bound) (nodes.map (parent, ·) ++ stack) t =
      enterAll keepBlank bound stack t' := by
  induction h generalizing bound stack with
  | nil => rw [countAll, Nat.zero_add, List.map_nil, List.nil_append]
  | @skip t t' parent node rest hnode _ ih =>
    have hcount : countAll (node :: rest) + bound = countAll rest + bound + 1 := by
      rw [countAll, count_eq, children_eq_nil_of_createNode hnode, countAll]
      omega
    rw [hcount, List.map_cons, List.cons_append, enterAll, hnode]
    exact ih bound stack
  | @enter t made below t' parent id node rest hnode _ _ ihbelow ihrest =>
    have hcount : countAll (node :: rest) + bound =
        countAll node.children + (countAll rest + bound) + 1 := by
      rw [countAll, count_eq]
      omega
    rw [hcount, List.map_cons, List.cons_append, enterAll, hnode]
    calc enterAll keepBlank (countAll node.children + (countAll rest + bound))
          (node.children.map (id, ·) ++ (rest.map (parent, ·) ++ stack))
          (made.appendChild parent id)
        = enterAll keepBlank (countAll rest + bound) (rest.map (parent, ·) ++ stack) below :=
          ihbelow _ _
      _ = enterAll keepBlank bound stack t' := ihrest bound stack

/-- Whatever the nodes are, they can be entered. -/
theorem exists_enters (keepBlank : Bool) (t : Tree) (parent : NodeId) (nodes : List Node) :
    ∃ t', Enters keepBlank t parent nodes t' := by
  -- the recursion goes into the children of the first node and on to the nodes after it
  induction hcount : countAll nodes using Nat.strongRecOn generalizing t parent nodes with
  | _ count ih =>
    cases nodes with
    | nil => exact ⟨t, .nil⟩
    | cons node rest =>
      rw [countAll, count_eq] at hcount
      cases hnode : createNode keepBlank t node with
      | none =>
        obtain ⟨t', hrest⟩ := ih (countAll rest) (by omega) t parent rest rfl
        exact ⟨t', .skip hnode hrest⟩
      | some made =>
        obtain ⟨below, hbelow⟩ := ih (countAll node.children) (by omega)
          (made.2.appendChild parent made.1) made.1 node.children rfl
        obtain ⟨t', hrest⟩ := ih (countAll rest) (by omega) below parent rest rfl
        exact ⟨t', .enter hnode hbelow hrest⟩

/-- The tree of a document is its nodes entered under the document node. -/
theorem enters_treeOfNodes (keepBlank : Bool) (nodes : List Node) :
    Enters keepBlank .empty root nodes (treeOfNodes keepBlank nodes) := by
  obtain ⟨t', ht'⟩ := exists_enters keepBlank .empty root nodes
  have hloop := ht'.enterAll_eq 0 []
  rw [Nat.add_zero, List.append_nil] at hloop
  have htree : treeOfNodes keepBlank nodes = t' := hloop.trans rfl
  exact htree ▸ ht'

/-! ## Made nodes -/

/-- A node that is made has the next number and is still alone. -/
structure Made (t made : Tree) : Prop where
  built : made.Built
  size_eq : made.size = t.size + 1
  fresh : made.Fresh t.size
  keeps : t.Keeps made
  linked {kids : NodeId → List NodeId} (h : t.Linked kids) : made.Linked kids

theorem made_push {kids : NodeId → List NodeId} (h : t.Linked kids) (hpos : 0 < t.size)
    (content : Content) (hbuilt : (t.push content).2.Built) : Made t (t.push content).2 where
  built := hbuilt
  size_eq := size_push t content
  fresh := h.fresh_push hpos content
  keeps := .push t content
  linked hkids := hkids.push content

theorem Made.of_intern {made : Tree} {name : String} (h : Made (t.intern name).2 made) :
    Made t made where
  built := h.built
  size_eq := h.size_eq
  fresh := h.fresh
  keeps := (Keeps.intern t name).trans h.keeps
  linked hkids := h.linked (hkids.intern name)

theorem Made.setAttributes {made : Tree} (h : Made t made) (attributes : List (String × String)) :
    Made t (made.setAttributes t.size attributes) where
  built := h.built.setAttributes _ _
  size_eq := (size_setAttributes _ _).trans h.size_eq
  fresh := h.fresh.setAttributes _ _
  keeps := h.keeps.setAttributes (Nat.le_refl _) _
  linked hkids := (h.linked hkids).setAttributes _ _

theorem made_of_createNode (ht : t.Built) {node : Node} {id : NodeId} {made : Tree}
    (h : createNode keepBlank t node = some (id, made)) : id = t.size ∧ Made t made := by
  obtain ⟨kids, hkids⟩ := ht.exists_linked
  have hpos := ht.size_pos
  cases node with
  | doctype name publicId systemId =>
    cases h
    exact ⟨rfl, (made_push (hkids.intern name) hpos _ (ht.createDoctype ..)).of_intern⟩
  | element tag attributes children =>
    cases h
    exact ⟨rfl, (made_push (hkids.intern tag) hpos _ (ht.createElement tag)).of_intern.setAttributes
      attributes⟩
  | text value =>
    obtain ⟨-, hsome⟩ := Option.ite_none_left_eq_some.1 h
    cases hsome
    exact ⟨rfl, made_push hkids hpos _ (ht.createText value)⟩
  | comment value =>
    cases h
    exact ⟨rfl, made_push hkids hpos _ (ht.createComment value)⟩
  | instruction target data =>
    cases h
    exact ⟨rfl, (made_push (hkids.intern target) hpos _ (ht.createInstruction ..)).of_intern⟩

theorem Enters.built (h : Enters keepBlank t parent nodes t') (ht : t.Built) : t'.Built := by
  induction h with
  | nil => exact ht
  | skip _ _ ih => exact ih ht
  | enter hnode _ _ ihbelow ihrest =>
    obtain ⟨rfl, hmade⟩ := made_of_createNode ht hnode
    exact ihrest (ihbelow (hmade.built.attach hmade.fresh _))

theorem built_treeOfNodes (keepBlank : Bool) (nodes : List Node) :
    (treeOfNodes keepBlank nodes).Built :=
  (enters_treeOfNodes keepBlank nodes).built .empty

/-- A tree of two paragraphs: one with an attribute, a text, and an element with a text in it, the
other with a comment and a text. -/
def paragraphs : Tree :=
  (treeOfNodes true
    [.element "p" [("class", "x")] [.text "a", .element "b" [] [.text "c"]],
      .element "p" [] [.comment "d", .text "e"]]).rankNodes

theorem built_paragraphs : paragraphs.Built := (built_treeOfNodes ..).rankNodes

end Html

theorem Document.built_ofNodes (number : Nat) (nodes : List Html.Node) (config : Config) :
    (ofNodes number nodes config).tree.Built :=
  (Html.built_treeOfNodes config.keepBlankText nodes).rankNodes

end MarkupQuery
