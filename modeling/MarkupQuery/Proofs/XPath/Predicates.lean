import MarkupQuery.Proofs.Decimal.Integers
import MarkupQuery.Proofs.XPath.Merging

/-!
# Predicates in a row

A predicate that is no number keeps the nodes it is true of.  One that besides does not ask for the
place of its node judges each node for itself, so that it may stand behind another predicate or be
joined to it by `and`.
-/

namespace MarkupQuery.XPath

variable {t : Tree}

/-! ## Places -/

/-- The expression does not ask for the place of the context node, by `position` or `last`.  Below
the predicates of its steps and of its primary expressions it may, where the place is another one.
-/
inductive Expr.Placeless : Expr → Prop where
  | number (value : Float) : Placeless (.number value)
  | literal (text : String) : Placeless (.literal text)
  | binary (op : BinaryOp) {left right : Expr} (hleft : Placeless left) (hright : Placeless right) :
      Placeless (.binary op left right)
  | negate {operand : Expr} (h : Placeless operand) : Placeless (.negate operand)
  | call {function : Function} {arguments : List Expr} (hposition : function ≠ .position)
      (hlast : function ≠ .last) (harguments : ∀ a ∈ arguments, Placeless a) :
      Placeless (.call function arguments)
  | path (absolute : Bool) (steps : List Step) : Placeless (.path absolute steps)
  | filter {primary : Expr} (predicates : List Expr) (steps : List Step)
      (hprimary : Placeless primary) : Placeless (.filter primary predicates steps)
  | union {left right : Expr} (hleft : Placeless left) (hright : Placeless right) :
      Placeless (.union left right)

/-- In no context is the value of the expression a number. -/
def Expr.NeverNumber (t : Tree) (e : Expr) : Prop := ∀ context x, e.eval t context ≠ .ok (.number x)

theorem Expr.neverNumber_of_kind {e : Expr} (h : e.kind ≠ .number) : e.NeverNumber t :=
  fun _ _ heval => h (Expr.kind_of_eval heval).symm

theorem callNamed_of_ne_place {function : Function} (hposition : function ≠ .position)
    (hlast : function ≠ .last) {c d : Context} (hnode : c.node = d.node) (arguments : List Value) :
    callNamed t c function.name arguments = callNamed t d function.name arguments := by
  obtain ⟨node, position, size⟩ := c
  obtain rfl : node = d.node := hnode
  cases function with
  | position => exact absurd rfl hposition
  | last => exact absurd rfl hlast
  | _ => rfl

theorem evalAll_congr {c d : Context} {arguments : List Expr}
    (h : ∀ a ∈ arguments, a.eval t c = a.eval t d) :
    Expr.evalAll t arguments c = Expr.evalAll t arguments d := by
  induction arguments with
  | nil => rw [Expr.evalAll, Expr.evalAll]
  | cons a arguments ih =>
    rw [Expr.evalAll, Expr.evalAll, h a List.mem_cons_self,
      ih fun b hb => h b (List.mem_cons_of_mem a hb)]

/-- The value of an expression that does not ask for the place of the context node is the same at
any place. -/
theorem Expr.Placeless.eval_eq {e : Expr} (he : e.Placeless) {c d : Context}
    (hnode : c.node = d.node) : e.eval t c = e.eval t d := by
  induction he with
  | number | literal => rw [Expr.eval, Expr.eval]
  | binary op _ _ ihleft ihright =>
    cases op <;> rw [Expr.eval, Expr.eval, ihleft, ihright]
  | negate _ ih => rw [Expr.eval, Expr.eval, ih]
  | call hposition hlast _ ih =>
    rw [Expr.eval, Expr.eval, evalAll_congr ih]
    exact congrArg _ (funext fun values => callNamed_of_ne_place hposition hlast hnode values)
  | path absolute steps => rw [Expr.eval, Expr.eval, hnode]
  | filter _ _ _ ih => rw [Expr.eval, Expr.eval, ih]
  | union _ _ ihleft ihright => rw [Expr.eval, Expr.eval, ihleft, ihright]

/-! ## Judgements -/

/-- Whether a predicate keeps a node at its place among a number of nodes. -/
def Expr.keeps (t : Tree) (p : Expr) (size : Nat) (entry : NodeRef × Nat) : Except Error Bool := do
  return (← p.eval t ⟨entry.1, entry.2, size⟩).keepsPosition entry.2

/-- Whether a predicate is true of a node by itself. -/
def Expr.accepts (t : Tree) (p : Expr) (node : NodeRef) : Except Error Bool := do
  return (← p.eval t (.alone node)).toBoolean

variable {p q : Expr}

theorem keep_cons_eq (p : Expr) (rest : List Expr) (nodes : List NodeRef) :
    Expr.keep t (p :: rest) nodes =
      sift (p.keeps t nodes.length) (nodes.zipIdx 1) >>= fun kept =>
        Expr.keep t rest (kept.map Prod.fst) := by
  rw [Expr.keep]
  rfl

theorem Expr.NeverNumber.keeps_eq (hp : p.NeverNumber t) (size : Nat) (entry : NodeRef × Nat) :
    p.keeps t size entry = do
      return (← p.eval t ⟨entry.1, entry.2, size⟩).toBoolean := by
  rw [Expr.keeps]
  cases heval : p.eval t ⟨entry.1, entry.2, size⟩ with
  | error fault => rfl
  | ok value =>
    have hnumber : ∀ x, value ≠ .number x := fun x hx => hp _ x (hx ▸ heval)
    exact congrArg Except.ok (keepsPosition_eq hnumber entry.2)

theorem Expr.Placeless.keeps_eq (hplace : q.Placeless) (hq : q.NeverNumber t) (size : Nat)
    (entry : NodeRef × Nat) : q.keeps t size entry = q.accepts t entry.1 := by
  have heval : q.eval t ⟨entry.1, entry.2, size⟩ = q.eval t (.alone entry.1) := hplace.eval_eq rfl
  rw [hq.keeps_eq, heval]
  rfl

theorem keeps_failsByType (p : Expr) (size : Nat) (entry : NodeRef × Nat) :
    FailsByType (p.keeps t size entry) :=
  (p.eval_failsByType _).bind fun _ => .ok _

theorem accepts_failsByType (p : Expr) (node : NodeRef) : FailsByType (p.accepts t node) :=
  (p.eval_failsByType _).bind fun _ => .ok _

/-! ## Sifting -/

theorem sift_map {ε α β : Type} (holds : β → Except ε Bool) (f : α → β) (l : List α) :
    sift holds (l.map f) = (sift (holds ∘ f) l).map (List.map f) := by
  induction l with
  | nil => rfl
  | cons a l ih =>
    rw [List.map_cons, sift, sift, ih]
    show _ = Except.map _ (holds (f a) >>= _)
    cases holds (f a) with
    | error fault => rfl
    | ok keep =>
      cases sift (holds ∘ f) l with
      | error fault => rfl
      | ok kept => cases keep <;> rfl

/-- Two passes come to one that judges by both: what fails in either fails by type, so that it does
not matter which failure comes first. -/
theorem sift_sift {α : Type} {first second : α → Except Error Bool}
    (hfirst : ∀ a, FailsByType (first a)) (hsecond : ∀ a, FailsByType (second a)) (l : List α) :
    sift first l >>= sift second =
      sift (fun a => first a >>= fun keep => if keep then second a else .ok false) l := by
  induction l with
  | nil => rfl
  | cons a l ih =>
    rw [sift, sift, ← ih]
    rcases hfirst a with ⟨keep, hkeep⟩ | hkeep
    · rw [hkeep, bind_ok, bind_ok]
      rcases FailsByType.sift hfirst l with ⟨kept, hkept⟩ | hkept
      · rw [hkept, bind_ok, bind_ok]
        cases keep with
        | true => rfl
        | false =>
          show sift second kept = _
          cases sift second kept <;> rfl
      · -- the first pass fails behind the node, and the second has not begun
        rw [hkept]
        cases keep with
        | true => rcases hsecond a with ⟨_, h⟩ | h <;> simp only [if_true, h] <;> rfl
        | false => rfl
    · rw [hkeep]
      rfl

/-- Without the place of a node a predicate goes through the nodes as such. -/
theorem keep_cons_of_placeless (hq : q.NeverNumber t) (hplace : q.Placeless) (rest : List Expr)
    (nodes : List NodeRef) :
    Expr.keep t (q :: rest) nodes = sift (q.accepts t) nodes >>= Expr.keep t rest := by
  have hkeeps : q.keeps t nodes.length = q.accepts t ∘ Prod.fst :=
    funext fun entry => hplace.keeps_eq hq nodes.length entry
  have hnodes := sift_map (q.accepts t) Prod.fst (nodes.zipIdx 1)
  rw [List.zipIdx_map_fst] at hnodes
  rw [keep_cons_eq, hkeeps, hnodes]
  cases sift (q.accepts t ∘ Prod.fst) (nodes.zipIdx 1) <;> rfl

/-! ## Conjunctions -/

theorem keeps_and (hp : p.NeverNumber t) (hplace : q.Placeless) (size : Nat)
    (entry : NodeRef × Nat) :
    (Expr.binary .and p q).keeps t size entry =
      p.keeps t size entry >>= fun keep => if keep then q.accepts t entry.1 else .ok false := by
  have heval : q.eval t ⟨entry.1, entry.2, size⟩ = q.eval t (.alone entry.1) := hplace.eval_eq rfl
  rw [hp.keeps_eq, Expr.keeps, Expr.eval, heval, Expr.accepts]
  cases p.eval t ⟨entry.1, entry.2, size⟩ with
  | error fault => rfl
  | ok value =>
    simp only [bind_ok]
    cases value.toBoolean <;> cases q.eval t (.alone entry.1) <;> rfl

/-- A predicate behind another one keeps as much as the two joined by `and` in its place. -/
theorem keep_and (hp : p.NeverNumber t) (hq : q.NeverNumber t) (hplace : q.Placeless)
    (before after : List Expr) (nodes : List NodeRef) :
    Expr.keep t (before ++ p :: q :: after) nodes =
      Expr.keep t (before ++ .binary .and p q :: after) nodes := by
  induction before generalizing nodes with
  | cons r before ih => simp only [List.cons_append, keep_cons_eq, ih]
  | nil =>
    have hand : (Expr.binary .and p q).keeps t nodes.length = fun entry =>
        p.keeps t nodes.length entry >>= fun keep =>
          if keep then (q.accepts t ∘ Prod.fst) entry else .ok false :=
      funext fun entry => keeps_and hp hplace nodes.length entry
    have hpasses :
        sift (p.keeps t nodes.length) (nodes.zipIdx 1) >>= sift (q.accepts t ∘ Prod.fst) =
          sift ((Expr.binary .and p q).keeps t nodes.length) (nodes.zipIdx 1) := by
      rw [hand]
      exact sift_sift (keeps_failsByType p _) (fun _ => accepts_failsByType q _) _
    rw [List.nil_append, List.nil_append, keep_cons_eq, keep_cons_eq, ← hpasses, bind_assoc]
    refine congrArg _ (funext fun kept => ?_)
    rw [keep_cons_of_placeless hq hplace, sift_map]
    cases sift (q.accepts t ∘ Prod.fst) kept <;> rfl

/-- Two computations find the same nodes, or both fail for want of nodes. -/
inductive SameNodes : Except Error Value → Except Error Value → Prop where
  | found (nodes : List NodeRef) : SameNodes (.ok (.nodeSet nodes)) (.ok (.nodeSet nodes))
  | failed : SameNodes (.error .notANodeSet) (.error .notANodeSet)

/-- Expressions for nodes that are evaluated alike have the same nodes. -/
theorem sameNodes_of_eval_eq {x y : Expr} (hkind : x.kind = .nodes) {context : Context}
    (h : x.eval t context = y.eval t context) :
    SameNodes (x.eval t context) (y.eval t context) := by
  rw [← h]
  rcases x.eval_failsByType context with ⟨value, hvalue⟩ | hfails
  · obtain ⟨nodes, rfl⟩ : ∃ nodes, value = .nodeSet nodes := by
      have hnodes := (Expr.kind_of_eval hvalue).trans hkind
      rcases value with nodes | b | x | s
      · exact ⟨nodes, rfl⟩
      all_goals cases hnodes
    rw [hvalue]
    exact .found nodes
  · rw [hfails]
    exact .failed

/-- One row of steps may stand for the other in every path, wherever it starts and whatever the
context is. -/
structure SameSteps (t : Tree) (steps others : List Step) : Prop where
  path (absolute : Bool) (front behind : List Step) (context : Context) : SameNodes
    ((Expr.path absolute (front ++ steps ++ behind)).eval t context)
    ((Expr.path absolute (front ++ others ++ behind)).eval t context)
  filter (primary : Expr) (predicates : List Expr) (front behind : List Step) (context : Context) :
    SameNodes
      ((Expr.filter primary predicates (front ++ steps ++ behind)).eval t context)
      ((Expr.filter primary predicates (front ++ others ++ behind)).eval t context)

theorem sameSteps_of_walk_eq {steps others : List Step}
    (h : ∀ nodes, Step.walk t steps nodes = Step.walk t others nodes) :
    SameSteps t steps others where
  path absolute front behind context := by
    refine sameNodes_of_eval_eq rfl ?_
    rw [Expr.eval, Expr.eval]
    simp only [walk_append, funext h]
  filter primary predicates front behind context := by
    refine sameNodes_of_eval_eq rfl ?_
    rw [Expr.eval, Expr.eval]
    simp only [walk_append, funext h]

/-- Two predicates in a row, of which neither is ever a number and the second does not ask for the
place of its node, are the conjunction of the two: behind a step of any path, and behind a primary
expression. -/
theorem predicates_conjoin (hp : p.NeverNumber t) (hq : q.NeverNumber t) (hplace : q.Placeless)
    (before after : List Expr) :
    (∀ axis test, SameSteps t [.mk axis test (before ++ p :: q :: after)]
      [.mk axis test (before ++ .binary .and p q :: after)]) ∧
    ∀ primary steps context, SameNodes
      ((Expr.filter primary (before ++ p :: q :: after) steps).eval t context)
      ((Expr.filter primary (before ++ .binary .and p q :: after) steps).eval t context) := by
  have hkeep := keep_and hp hq hplace before after
  refine ⟨fun axis test => sameSteps_of_walk_eq fun nodes => ?_, fun primary steps context => ?_⟩
  · simp only [Step.walk, Step.select, hkeep]
  · refine sameNodes_of_eval_eq rfl ?_
    rw [Expr.eval, Expr.eval]
    simp only [hkeep]

/-! ## The last of several nodes -/

/-- The predicate of the last of the nodes that are left. -/
def isLast : Expr := .binary (.relation .equal) (.call .position []) (.call .last [])

/-- The predicate of texts. -/
def isText : Expr := .path false [.mk .self .text []]

theorem eval_isLast (context : Context) :
    isLast.eval t context = .ok (.boolean
      (Float.ofNat context.position == Float.ofNat context.size)) := by
  simp [isLast, Expr.eval, Expr.evalAll, Function.name, callNamed, Value.compare, Value.number,
    Atom.compare, Atom.equals, Atom.toNumber]
  rfl

theorem keep_isLast (predicates : List Expr) {nodes : List NodeRef}
    (hlength : nodes.length < 2 ^ 53) :
    Expr.keep t (isLast :: predicates) nodes = Expr.keep t predicates nodes.getLast?.toList := by
  have hfirst := keep_cons nodes (p := fun entry => entry.2 == nodes.length) predicates
    (x := isLast) (t := t) fun entry hentry => by
      refine ⟨_, eval_isLast _, ?_⟩
      have hplace := List.snd_lt_of_mem_zipIdx hentry
      change (Float.ofNat entry.2 == Float.ofNat nodes.length) = _
      rw [Bool.eq_iff_iff, Decimal.ofNat_beq_ofNat_iff (by omega) hlength, beq_iff_eq]
  rw [hfirst]
  rcases nodes with _ | ⟨n, nodes⟩
  · rfl
  · rw [List.getLast?_eq_getElem?, List.length_cons, Nat.add_sub_cancel,
      ← map_fst_filter_zipIdx _ 1, Nat.add_comm 1]

theorem eval_isText (context : Context) : isText.eval t context =
    .ok (.nodeSet ([context.node].filter (NodeTest.text.admits t .self))) := by
  have hselect : (Step.mk .self .text []).select t context.node =
      .ok ([context.node].filter (NodeTest.text.admits t .self)) := by
    rw [Step.select, Expr.keep, Axis.nodes]
  have hsame : inDocumentOrder t ([context.node].filter (NodeTest.text.admits t .self)) =
      [context.node].filter (NodeTest.text.admits t .self) := by
    cases h : NodeTest.text.admits t .self context.node with
    | true => rw [List.filter_cons_of_pos h, List.filter_nil, inDocumentOrder_singleton]
    | false =>
      rw [List.filter_cons_of_neg (by simp [h]), List.filter_nil, inDocumentOrder_nil]
  rw [isText, eval_relative, walk_singleton, hselect, bind_ok, hsame, Step.walk, bind_ok]

theorem keep_isText (predicates : List Expr) (nodes : List NodeRef) :
    Expr.keep t (isText :: predicates) nodes =
      Expr.keep t predicates (nodes.filter (NodeTest.text.admits t .self)) := by
  refine keep_cons_filter nodes predicates fun n _ position => ⟨_, eval_isText _, ?_⟩
  cases h : NodeTest.text.admits t .self n <;> simp [Value.keepsPosition, Value.toBoolean, h]

/-- The last node in each paragraph, if it is a text: the first predicate asks for the place of the
node, which may be another one for the second. -/
theorem predicates_conjoin_last :
    SameNodes
      ((Expr.path false [.mk .child .anyName [], .mk .child .node [isLast, isText]]).eval
        Html.paragraphs (.alone (.tree Tree.root)))
      ((Expr.path false [.mk .child .anyName [],
        .mk .child .node [.binary .and isLast isText]]).eval
        Html.paragraphs (.alone (.tree Tree.root))) ∧
    (Expr.path false [.mk .child .anyName [], .mk .child .node [isLast, isText]]).eval
      Html.paragraphs (.alone (.tree Tree.root)) = .ok (.nodeSet [.tree 7]) := by
  have ht := Html.built_paragraphs.assembled
  have hlast : isLast.NeverNumber Html.paragraphs := Expr.neverNumber_of_kind (by decide)
  have htext : isText.NeverNumber Html.paragraphs := Expr.neverNumber_of_kind (by decide)
  have hsame := (predicates_conjoin hlast htext (.path false _) [] []).1 .child .node
  refine ⟨hsame.path false [.mk .child .anyName []] [] (.alone (.tree Tree.root)), ?_⟩
  have hselect : ∀ n ∈ [NodeRef.tree 1, .tree 5],
      (Step.mk .child .node [isLast, isText]).select Html.paragraphs n = .ok
        ((((Axis.child.nodes Html.paragraphs n).filter
          (NodeTest.node.admits Html.paragraphs .child)).getLast?.toList).filter
            (NodeTest.text.admits Html.paragraphs .self)) := fun n hn => by
    have hlength : ∀ n ∈ [NodeRef.tree 1, .tree 5], ((Axis.child.nodes Html.paragraphs n).filter
        (NodeTest.node.admits Html.paragraphs .child)).length < 8 := by
      decide +kernel
    rw [Step.select, keep_isLast _ (Nat.lt_trans (hlength n hn) (by norm_num)), keep_isText,
      Expr.keep]
  have hwalk := calc
    Step.walk Html.paragraphs [.mk .child .anyName [], .mk .child .node [isLast, isText]]
        [.tree Tree.root]
      = Step.walk Html.paragraphs [.mk .child .node [isLast, isText]] [.tree 1, .tree 5] :=
        walk_plain ht (by decide +kernel) (by decide +kernel)
    _ = Step.walk Html.paragraphs [] [.tree 7] :=
        walk_of_select ht hselect (by decide +kernel) (by decide +kernel)
  exact eval_path_of_walk hwalk

end MarkupQuery.XPath
