import Mathlib.Logic.Relation
import MarkupQuery.Proofs.Outcome
import MarkupQuery.Proofs.XPath.NodeSets
import MarkupQuery.XPath.Query

/-!
# What expressions mean

The meaning of an expression is told apart from its evaluation: an expression finds the nodes that
stand in a relation to the context node, or holds of the context nodes with a property.  The meaning
of a whole expression comes from those of its parts.  None of these expressions looks at the
position of the context node.
-/

namespace MarkupQuery.XPath

variable {t : Tree}

/-! ## Meanings -/

/-- From every node the expression finds those that stand in the relation to it, in order. -/
def Finds (t : Tree) (e : Expr) (R : NodeRef → NodeRef → Prop) : Prop :=
  ∀ context : Context, context.node.Valid t → ∃ nodes, e.eval t context = .ok (.nodeSet nodes) ∧
    InOrder t nodes ∧ ∀ y, y ∈ nodes ↔ R context.node y

/-- The expression is true of the nodes with the property, and it is no number. -/
def Holds (t : Tree) (e : Expr) (P : NodeRef → Prop) : Prop :=
  ∀ context : Context, context.node.Valid t → ∃ value, e.eval t context = .ok value ∧
    (∀ x, value ≠ .number x) ∧ (value.toBoolean = true ↔ P context.node)

/-- The predicates keep the nodes with the property. -/
def Keeps (t : Tree) (predicates : List Expr) (P : NodeRef → Prop) : Prop :=
  ∀ nodes, (∀ x ∈ nodes, x.Valid t) → ∃ kept, Expr.keep t predicates nodes = .ok kept ∧
    ∀ y, y ∈ kept ↔ y ∈ nodes ∧ P y

/-- The step leads from every node to those that stand in the relation to it. -/
def Leads (t : Tree) (s : Step) (R : NodeRef → NodeRef → Prop) : Prop :=
  ∀ x, x.Valid t → ∃ nodes, s.select t x = .ok nodes ∧ (∀ y ∈ nodes, y.Valid t) ∧
    ∀ y, y ∈ nodes ↔ R x y

/-- The steps lead from nodes to those that stand in the relation to one of them. -/
def Walks (t : Tree) (steps : List Step) (R : NodeRef → NodeRef → Prop) : Prop :=
  ∀ nodes, (∀ x ∈ nodes, x.Valid t) → ∃ found, Step.walk t steps nodes = .ok found ∧
    InOrder t found ∧ ∀ y, y ∈ found ↔ ∃ x ∈ nodes, R x y

/-! ## Conditions -/

-- `simp` evaluates expressions of which the parts have known values
attribute [local simp] Expr.eval Expr.evalAll callNamed Function.name bind_ok

theorem Finds.congr {e : Expr} {R S : NodeRef → NodeRef → Prop} (h : Finds t e R)
    (hiff : ∀ x y, R x y ↔ S x y) : Finds t e S := by
  intro context hcontext
  obtain ⟨nodes, heval, horder, hmem⟩ := h context hcontext
  exact ⟨nodes, heval, horder, fun y => (hmem y).trans (hiff _ y)⟩

theorem holds_of_boolean {e : Expr} {P : NodeRef → Prop}
    (h : ∀ context : Context, context.node.Valid t → ∃ b, e.eval t context = .ok (.boolean b) ∧
      (b = true ↔ P context.node)) : Holds t e P := by
  intro context hcontext
  obtain ⟨b, heval, hiff⟩ := h context hcontext
  exact ⟨.boolean b, heval, nofun, hiff⟩

theorem Finds.holds {e : Expr} {R : NodeRef → NodeRef → Prop} (h : Finds t e R) :
    Holds t e fun x => ∃ y, R x y := by
  intro context hcontext
  obtain ⟨nodes, heval, -, hmem⟩ := h context hcontext
  refine ⟨.nodeSet nodes, heval, nofun, ?_⟩
  simp only [Value.toBoolean, Bool.not_eq_true', List.isEmpty_eq_false_iff_exists_mem, hmem]

variable {x y : Expr} {P Q : NodeRef → Prop}

theorem Holds.or (hx : Holds t x P) (hy : Holds t y Q) :
    Holds t (.binary .or x y) fun n => P n ∨ Q n := by
  refine holds_of_boolean fun context hcontext => ?_
  obtain ⟨v, hv, -, hP⟩ := hx context hcontext
  obtain ⟨w, hw, -, hQ⟩ := hy context hcontext
  cases htrue : v.toBoolean with
  | true => exact ⟨true, by simp [hv, htrue, pure_eq_ok], by simp [← hP, htrue]⟩
  | false => exact ⟨w.toBoolean, by simp [hv, hw, htrue], by simp [← hP, htrue, hQ]⟩

theorem Holds.not (hx : Holds t x P) : Holds t (.call .not [x]) fun n => ¬ P n := by
  refine holds_of_boolean fun context hcontext => ?_
  obtain ⟨v, hv, -, hP⟩ := hx context hcontext
  refine ⟨!v.toBoolean, ?_, by simp [← hP]⟩
  simp [hv]

theorem holds_alwaysFalse : Holds t (.call .alwaysFalse []) fun _ => False := by
  refine holds_of_boolean fun context _ => ⟨false, ?_, by simp⟩
  simp

/-! ## Texts -/

/-- A constant text. -/
def Means (t : Tree) (e : Expr) (s : String) : Prop :=
  ∀ context, e.eval t context = .ok (.string s)

theorem means_literal (s : String) : Means t (.literal s) s := by
  intro context
  simp [Value.string]

theorem Finds.equal {e : Expr} {R : NodeRef → NodeRef → Prop} {s : String} (h : Finds t e R)
    (hx : Means t x s) :
    Holds t (.binary (.relation .equal) e x) fun n => ∃ m, R n m ∧ m.stringValue t = s := by
  refine holds_of_boolean fun context hcontext => ?_
  obtain ⟨nodes, heval, -, hmem⟩ := h context hcontext
  refine ⟨nodes.any fun n => n.stringValue t == s, ?_, ?_⟩
  · simp [heval, hx context, Value.compare, Value.string, Atom.compare, Atom.equals]
  · simp [hmem]

theorem Means.nameOf_equal {s : String} (hx : Means t x s) :
    Holds t (.binary (.relation .equal) (.call .nameOf []) x) fun n => n.name t = s := by
  refine holds_of_boolean fun context _ => ⟨context.node.name t == s, ?_, by simp⟩
  simp [hx context, Value.compare, Value.string, Atom.compare, Atom.equals]

/-! ## Predicates -/

theorem sift_eq_ok {ε α : Type} {holds : α → Except ε Bool} {p : α → Bool} {l : List α}
    (h : ∀ a ∈ l, holds a = .ok (p a)) : sift holds l = .ok (l.filter p) := by
  induction l with
  | nil => rfl
  | cons a l ih =>
    rw [sift, h a (by simp), bind_ok, ih fun b hb => h b (by simp [hb]), bind_ok, List.filter_cons]
    rfl

theorem keepsPosition_eq {value : Value} (h : ∀ x, value ≠ .number x) (position : Nat) :
    value.keepsPosition position = value.toBoolean := by
  rcases value with nodes | b | x | s
  · rfl
  · rfl
  · exact absurd rfl (h x)
  · rfl

theorem keeps_nil : Keeps t [] fun _ => True := by
  intro nodes _
  exact ⟨nodes, by rw [Expr.keep], by simp⟩

/-- A predicate that keeps some nodes by themselves and by their places, in front of further
predicates. -/
theorem keep_cons (nodes : List NodeRef) {p : NodeRef × Nat → Bool} (predicates : List Expr)
    (h : ∀ entry ∈ nodes.zipIdx 1, ∃ value,
      x.eval t ⟨entry.1, entry.2, nodes.length⟩ = .ok value ∧
        value.keepsPosition entry.2 = p entry) :
    Expr.keep t (x :: predicates) nodes =
      Expr.keep t predicates (((nodes.zipIdx 1).filter p).map Prod.fst) := by
  rw [Expr.keep, sift_eq_ok (p := p) fun entry hentry => ?_, bind_ok]
  obtain ⟨value, heval, hkeeps⟩ := h entry hentry
  rw [heval, bind_ok, hkeeps]
  rfl

/-- A predicate that keeps some nodes wherever they stand. -/
theorem keep_cons_filter (nodes : List NodeRef) {p : NodeRef → Bool} (predicates : List Expr)
    (h : ∀ n ∈ nodes, ∀ position, ∃ value, x.eval t ⟨n, position, nodes.length⟩ = .ok value ∧
      value.keepsPosition position = p n) :
    Expr.keep t (x :: predicates) nodes = Expr.keep t predicates (nodes.filter p) := by
  have hfirst := keep_cons nodes (p := fun entry => p entry.1) predicates fun entry hentry =>
    h entry.1 (List.fst_mem_of_mem_zipIdx hentry) entry.2
  have hkept : ((nodes.zipIdx 1).filter fun entry => p entry.1).map Prod.fst = nodes.filter p := by
    have hfilter := List.filter_map (f := Prod.fst) (p := p) (l := nodes.zipIdx 1)
    rw [List.zipIdx_map_fst] at hfilter
    rw [hfilter]
    rfl
  rw [hfirst, hkept]

/-- Of numbered members the one with a given number. -/
theorem map_fst_filter_zipIdx {α : Type} (l : List α) (i k : Nat) :
    ((l.zipIdx i).filter fun entry => entry.2 == i + k).map Prod.fst = l[k]?.toList := by
  induction l generalizing i k with
  | nil => rfl
  | cons a l ih =>
    cases k with
    | zero =>
      have hnone : (l.zipIdx (i + 1)).filter (fun entry => entry.2 == i) = [] := by
        refine List.filter_eq_nil_iff.2 fun entry hentry heq => ?_
        have hle := List.le_snd_of_mem_zipIdx hentry
        have heq := beq_iff_eq.1 heq
        omega
      simp [hnone]
    | succ k =>
      have hrest := ih (i + 1) k
      rw [show i + 1 + k = i + (k + 1) by omega] at hrest
      have hne : (i == i + (k + 1)) = false := by simp
      rw [List.zipIdx_cons, List.filter_cons_of_neg (by simp), hrest, List.getElem?_cons_succ]

theorem Keeps.cons {predicates : List Expr} (hx : Holds t x P) (h : Keeps t predicates Q) :
    Keeps t (x :: predicates) fun n => P n ∧ Q n := by
  classical
  intro nodes hnodes
  have hfirst := keep_cons_filter nodes (p := fun n => decide (P n)) predicates
    fun n hn position => by
      obtain ⟨value, heval, hnumber, htrue⟩ := hx ⟨n, position, nodes.length⟩ (hnodes n hn)
      refine ⟨value, heval, ?_⟩
      rw [keepsPosition_eq hnumber, Bool.eq_iff_iff, htrue, decide_eq_true_iff]
  obtain ⟨kept, hkeep, hmem⟩ := h (nodes.filter fun n => decide (P n)) fun n hn =>
    hnodes n (List.mem_filter.1 hn).1
  refine ⟨kept, by rw [hfirst, hkeep], fun n => ?_⟩
  rw [hmem, List.mem_filter, decide_eq_true_iff, and_assoc]

/-! ## Steps -/

theorem valid_of_admits {axis : Axis} {test : NodeTest} {n : NodeRef}
    (h : test.admits t axis n = true) : n.Valid t := by
  rcases n with id | ⟨owner, index⟩
  · cases hget : t.get? id with
    | none => simp [NodeTest.admits, hget] at h
    | some node => exact Tree.lt_size_of_get? hget
  · cases hget : (t.attributeList owner)[index]? with
    | none => simp [NodeTest.admits, hget] at h
    | some a => exact (List.getElem?_eq_some_iff.1 hget).1

theorem Keeps.leads {predicates : List Expr} (h : Keeps t predicates P) (axis : Axis)
    (test : NodeTest) : Leads t (.mk axis test predicates) fun n m =>
      m ∈ axis.nodes t n ∧ test.admits t axis m = true ∧ P m := by
  intro n _
  have hvalid : ∀ m ∈ (axis.nodes t n).filter (test.admits t axis), m.Valid t := fun m hm =>
    valid_of_admits (List.mem_filter.1 hm).2
  obtain ⟨kept, hkeep, hmem⟩ := h _ hvalid
  refine ⟨kept, by rw [Step.select, hkeep], fun m hm => hvalid m ((hmem m).1 hm).1, fun m => ?_⟩
  rw [hmem, List.mem_filter, and_assoc]

variable {s : Step} {steps : List Step} {R S : NodeRef → NodeRef → Prop}

/-- A step arrives at what it selects from each node, when these are in document order together. -/
theorem walk_of_select (ht : t.Assembled) {part : NodeRef → List NodeRef}
    {nodes found : List NodeRef} (hselect : ∀ n ∈ nodes, s.select t n = .ok (part n))
    (hfound : nodes.flatMap part = found) (horder : InOrder t found) :
    Step.walk t (s :: steps) nodes = Step.walk t steps found := by
  rw [Step.walk, mapM_eq_ok hselect, bind_ok, ← List.flatMap_def, hfound,
    horder.inDocumentOrder_eq ht fun _ => Iff.rfl]

/-- A step without predicates arrives at the nodes on its axis that pass its test. -/
theorem walk_plain (ht : t.Assembled) {axis : Axis} {test : NodeTest} {nodes found : List NodeRef}
    (hfound : nodes.flatMap (fun n => (axis.nodes t n).filter (test.admits t axis)) = found)
    (horder : InOrder t found) :
    Step.walk t (.mk axis test [] :: steps) nodes = Step.walk t steps found :=
  walk_of_select ht (fun n _ => by rw [Step.select, Expr.keep]) hfound horder

/-- A path finds the nodes at which its steps end. -/
theorem eval_path_of_walk {absolute : Bool} {context : Context} {found : List NodeRef}
    (hwalk : Step.walk t steps [if absolute then .tree Tree.root else context.node] =
      Step.walk t [] found) :
    (Expr.path absolute steps).eval t context = .ok (.nodeSet found) := by
  rw [Expr.eval, hwalk, Step.walk, bind_ok]
  rfl

theorem Leads.congr (h : Leads t s R) (hiff : ∀ n m, n.Valid t → (R n m ↔ S n m)) :
    Leads t s S := by
  intro n hn
  obtain ⟨nodes, hselect, hvalid, hmem⟩ := h n hn
  exact ⟨nodes, hselect, hvalid, fun m => (hmem m).trans (hiff n m hn)⟩

theorem Leads.reaches (ht : t.Assembled) (h : Leads t s R) {nodes : List NodeRef}
    (hnodes : ∀ n ∈ nodes, n.Valid t) :
    ∃ reached, nodes.mapM (fun n => s.select t n) = .ok reached ∧
      InOrder t (inDocumentOrder t reached.flatten) ∧
      ∀ m, m ∈ inDocumentOrder t reached.flatten ↔ ∃ n ∈ nodes, R n m := by
  classical
  have hchoice : ∀ n : NodeRef, ∃ found : List NodeRef, n.Valid t →
      s.select t n = .ok found ∧ (∀ m ∈ found, m.Valid t) ∧ ∀ m, m ∈ found ↔ R n m := by
    intro n
    by_cases hn : n.Valid t
    · obtain ⟨found, hfound⟩ := h n hn
      exact ⟨found, fun _ => hfound⟩
    · exact ⟨[], fun hvalid => absurd hvalid hn⟩
  choose found hfound using hchoice
  have hmap : nodes.mapM (fun n => s.select t n) = .ok (nodes.map found) :=
    mapM_eq_ok fun n hn => (hfound n (hnodes n hn)).1
  have hmem (m : NodeRef) : m ∈ (nodes.map found).flatten ↔ ∃ n ∈ nodes, m ∈ found n := by
    simp
  refine ⟨nodes.map found, hmap, inOrder_inDocumentOrder ht fun m hm => ?_, fun m => ?_⟩
  · obtain ⟨n, hn, hm⟩ := (hmem m).1 hm
    exact (hfound n (hnodes n hn)).2.1 m hm
  · rw [mem_inDocumentOrder, hmem]
    exact exists_congr fun n => and_congr_right fun hn => (hfound n (hnodes n hn)).2.2 m

theorem Leads.walks (ht : t.Assembled) (h : Leads t s R) : Walks t [s] R := by
  intro nodes hnodes
  obtain ⟨reached, hmap, horder, hmem⟩ := h.reaches ht hnodes
  exact ⟨_, by rw [Step.walk, hmap, bind_ok, Step.walk], horder, hmem⟩

/-- Further steps go on from the nodes that the first one leads to. -/
theorem Walks.cons (ht : t.Assembled) (h : Leads t s R) (hrest : Walks t steps S) :
    Walks t (s :: steps) (Relation.Comp R S) := by
  intro nodes hnodes
  obtain ⟨reached, hmap, horder, hmem⟩ := h.reaches ht hnodes
  obtain ⟨found, hwalk, hfound, hmem'⟩ := hrest _ horder.valid
  refine ⟨found, by rw [Step.walk, hmap, bind_ok, hwalk], hfound, fun m => ?_⟩
  rw [hmem']
  constructor
  · rintro ⟨k, hk, hS⟩
    obtain ⟨n, hn, hR⟩ := (hmem k).1 hk
    exact ⟨n, hn, k, hR, hS⟩
  · rintro ⟨n, hn, k, hR, hS⟩
    exact ⟨k, (hmem k).2 ⟨n, hn, hR⟩, hS⟩

theorem Walks.congr (h : Walks t steps R) (hiff : ∀ n m, n.Valid t → (R n m ↔ S n m)) :
    Walks t steps S := by
  intro nodes hnodes
  obtain ⟨found, hwalk, horder, hmem⟩ := h nodes hnodes
  refine ⟨found, hwalk, horder, fun m => (hmem m).trans ?_⟩
  exact exists_congr fun n => and_congr_right fun hn => hiff n m (hnodes n hn)

theorem Walks.relative (h : Walks t steps R) : Finds t (.path false steps) R := by
  intro context hcontext
  obtain ⟨found, hwalk, horder, hmem⟩ := h [context.node] (by simpa using hcontext)
  refine ⟨found, ?_, horder, fun m => by simp [hmem]⟩
  simp [hwalk]

theorem Walks.absolute (ht : t.Assembled) (h : Walks t steps R) :
    Finds t (.path true steps) fun _ m => R (.tree Tree.root) m := by
  intro context _
  have hroot : (NodeRef.tree Tree.root).Valid t := ht.size_pos
  obtain ⟨found, hwalk, horder, hmem⟩ := h [.tree Tree.root] (by simpa using hroot)
  refine ⟨found, ?_, horder, fun m => by simp [hmem]⟩
  simp [hwalk]

theorem Finds.union (ht : t.Assembled) (hx : Finds t x R) (hy : Finds t y S) :
    Finds t (.union x y) fun n m => R n m ∨ S n m := by
  intro context hcontext
  obtain ⟨l, hl, hlorder, hlmem⟩ := hx context hcontext
  obtain ⟨r, hr, hrorder, hrmem⟩ := hy context hcontext
  have hvalid : ∀ m ∈ l ++ r, m.Valid t := fun m hm =>
    (List.mem_append.1 hm).elim (hlorder.valid m) (hrorder.valid m)
  refine ⟨_, ?_, inOrder_inDocumentOrder ht hvalid, fun m => ?_⟩
  · simp [hl, hr, Value.nodes]
  · rw [mem_inDocumentOrder, List.mem_append, hlmem, hrmem]

/-! ## Words -/

/-- The condition that a path finds a node, and that its text with the blanks evened out and a
space at both ends holds a text. -/
theorem Finds.containsWords {e : Expr} {s : String} (h : Finds t e R)
    (hunique : ∀ n m k, n.Valid t → R n m → R n k → m = k) (hx : Means t x s) :
    Holds t (.binary .and e (.call .contains
      [.call .concat [.literal " ", .call .normalizeSpace [e], .literal " "], x])) fun n =>
        ∃ m, R n m ∧
          s.toList <:+: (" " ++ Text.normalizeSpace (m.stringValue t) ++ " ").toList := by
  refine holds_of_boolean fun context hcontext => ?_
  obtain ⟨nodes, heval, -, hmem⟩ := h context hcontext
  cases nodes with
  | nil =>
    refine ⟨false, by simp [heval, Value.toBoolean, pure_eq_ok], ?_⟩
    simp [← hmem]
  | cons m rest =>
    have hm : R context.node m := (hmem m).1 (by simp)
    refine ⟨occursIn s.toList (" " ++ Text.normalizeSpace (m.stringValue t) ++ " ").toList, ?_, ?_⟩
    · simp [heval, hx context, Value.toBoolean, Value.toText, Value.string, Value.boolean,
        Atom.toText, Atom.toBoolean]
    · rw [occursIn_iff]
      constructor
      · exact fun hwithin => ⟨m, hm, hwithin⟩
      · rintro ⟨k, hk, hwithin⟩
        rwa [hunique _ m k hcontext hm hk]

end MarkupQuery.XPath
