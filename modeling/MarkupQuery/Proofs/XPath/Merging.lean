import MarkupQuery.Proofs.XPath.Composing
import MarkupQuery.Proofs.XPath.Failures
import MarkupQuery.Proofs.XPath.Ordering

/-!
# Paths from many nodes

A path goes from all nodes at once, and puts the nodes in order after each step.  It finds the same
as when it goes from one node after the other and what it found is merged in the end.
-/

namespace MarkupQuery.XPath

variable {t : Tree} {steps : List Step} {nodes : List NodeRef}

/-! ## Steps from many nodes -/

theorem walk_singleton (s : Step) (steps : List Step) (n : NodeRef) :
    Step.walk t (s :: steps) [n] =
      s.select t n >>= fun reached => Step.walk t steps (inDocumentOrder t reached) := by
  rw [Step.walk, List.mapM_cons, List.mapM_nil]
  cases s.select t n with
  | error fault => rfl
  | ok reached =>
    change Step.walk t steps (inDocumentOrder t [reached].flatten) = _
    rw [List.flatten_singleton]
    rfl

/-- Steps have a result from many nodes when they have one from each. -/
theorem walk_eq_ok_iff : (∃ found, Step.walk t steps nodes = .ok found) ↔
    ∀ n ∈ nodes, ∃ found, Step.walk t steps [n] = .ok found := by
  induction steps generalizing nodes with
  | nil => simp [Step.walk]
  | cons s steps ih =>
    -- the steps behind the first go on from sorted nodes, of which only the members matter
    have hsorted (l : List NodeRef) :
        (∃ found, Step.walk t steps (inDocumentOrder t l) = .ok found) ↔
        ∀ n ∈ l, ∃ found, Step.walk t steps [n] = .ok found := by
      rw [ih]
      simp only [mem_inDocumentOrder]
    simp only [walk_singleton, bind_eq_ok]
    constructor
    · rintro ⟨found, hfound⟩ n hn
      rw [Step.walk] at hfound
      obtain ⟨reached, hreached, hfound⟩ := bind_eq_ok.1 hfound
      obtain ⟨part, hpart, hselect⟩ := exists_mem_of_mapM_eq_ok hreached hn
      have hall := (hsorted _).1 ⟨found, hfound⟩
      obtain ⟨found', hfound'⟩ := (hsorted part).2 fun m hm =>
        hall m (List.mem_flatten.2 ⟨part, hpart, hm⟩)
      exact ⟨found', part, hselect, hfound'⟩
    · intro h
      obtain ⟨reached, hreached⟩ := exists_mapM_eq_ok_iff.2 fun n hn => by
        obtain ⟨-, part, hselect, -⟩ := h n hn
        exact ⟨part, hselect⟩
      obtain ⟨found, hfound⟩ := (hsorted reached.flatten).2 fun m hm => by
        obtain ⟨part, hpart, hm⟩ := List.mem_flatten.1 hm
        obtain ⟨n, hn, hselect⟩ := exists_of_mapM_eq_ok hreached hpart
        obtain ⟨found, part', hselect', hfound⟩ := h n hn
        obtain rfl : part = part' := by simpa [hselect] using hselect'
        exact (hsorted part).1 ⟨found, hfound⟩ m hm
      exact ⟨found, by rw [Step.walk, hreached, bind_ok, hfound]⟩

/-- Steps find from many nodes what they find from one of them. -/
theorem mem_walk {found : List NodeRef} (h : Step.walk t steps nodes = .ok found) {x : NodeRef} :
    x ∈ found ↔ ∃ n ∈ nodes, ∃ part, Step.walk t steps [n] = .ok part ∧ x ∈ part := by
  induction steps generalizing nodes found with
  | nil =>
    rw [Step.walk] at h
    cases h
    simp [Step.walk]
  | cons s steps ih =>
    simp only [walk_singleton, bind_eq_ok]
    have hparts := walk_eq_ok_iff.1 ⟨found, h⟩
    rw [Step.walk] at h
    obtain ⟨reached, hreached, h⟩ := bind_eq_ok.1 h
    rw [ih h]
    simp only [mem_inDocumentOrder, List.mem_flatten]
    constructor
    · rintro ⟨m, ⟨part, hpart, hm⟩, last, hlast, hx⟩
      obtain ⟨n, hn, hselect⟩ := exists_of_mapM_eq_ok hreached hpart
      obtain ⟨found', hfound'⟩ := hparts n hn
      rw [walk_singleton, hselect, bind_ok] at hfound'
      refine ⟨n, hn, found', ⟨part, hselect, hfound'⟩, ?_⟩
      exact (ih hfound').2 ⟨m, mem_inDocumentOrder.2 hm, last, hlast, hx⟩
    · rintro ⟨n, hn, found', ⟨part, hselect, hfound'⟩, hx⟩
      obtain ⟨m, hm, last, hlast, hx⟩ := (ih hfound').1 hx
      obtain ⟨part', hpart', hselect'⟩ := exists_mem_of_mapM_eq_ok hreached hn
      obtain rfl : part = part' := by simpa [hselect] using hselect'
      exact ⟨m, ⟨part, hpart', mem_inDocumentOrder.1 hm⟩, last, hlast, hx⟩

theorem walk_append (before after : List Step) (nodes : List NodeRef) :
    Step.walk t (before ++ after) nodes = Step.walk t before nodes >>= Step.walk t after := by
  induction before generalizing nodes with
  | nil => simp only [List.nil_append, Step.walk, bind_ok]
  | cons s before ih =>
    rw [List.cons_append, Step.walk, Step.walk]
    cases nodes.mapM fun node => s.select t node with
    | error fault => rfl
    | ok reached => exact ih _

/-! ## Paths that go on -/

/-- The path `whole` goes on with further steps from the nodes of `front`: from the nodes that a
location path or a filter expression arrives at, or from those of a primary expression. -/
inductive GoesOn : Expr → List Step → Expr → Prop where
  | primary (e : Expr) (after : List Step) : GoesOn e after (.filter e [] after)
  | path (absolute : Bool) (before after : List Step) :
      GoesOn (.path absolute before) after (.path absolute (before ++ after))
  | filter (e : Expr) (predicates : List Expr) (before after : List Step) :
      GoesOn (.filter e predicates before) after (.filter e predicates (before ++ after))

/-- The value `whole` merges the values of parts, one for each of the nodes.  Each part is a
node-set or fails for want of one.  The whole fails so when a part does, and otherwise it is all
that stands in a part, in document order and each node once. -/
structure Merges (t : Tree) (nodes : List NodeRef) (part : NodeRef → Except Error Value)
    (whole : Except Error Value) : Prop where
  parts : ∀ n ∈ nodes, (∃ found, part n = .ok (.nodeSet found)) ∨ part n = .error .notANodeSet
  error_iff : whole = .error .notANodeSet ↔ ∃ n ∈ nodes, part n = .error .notANodeSet
  merged : whole = .error .notANodeSet ∨ ∃ found, whole = .ok (.nodeSet found) ∧ InOrder t found ∧
    ∀ x, x ∈ found ↔ ∃ n ∈ nodes, ∃ inPart, part n = .ok (.nodeSet inPart) ∧ x ∈ inPart

/-- The path `whole` is the steps `after` from each node of `front`, merged, and it fails where
`front` does. -/
structure GoesOnByNode (t : Tree) (front : Expr) (after : List Step) (whole : Expr)
    (context : Context) : Prop where
  merges : ∀ nodes, front.eval t context = .ok (.nodeSet nodes) → ∀ position size,
    Merges t nodes (fun n => (Expr.path false after).eval t ⟨n, position, size⟩)
      (whole.eval t context)
  error : front.eval t context = .error .notANodeSet → whole.eval t context = .error .notANodeSet

variable {front whole : Expr} {after : List Step} {context : Context}

theorem GoesOn.eval_eq (h : GoesOn front after whole) : whole.eval t context = do
    let nodes ← (← front.eval t context).nodes
    return .nodeSet (← Step.walk t after nodes) := by
  cases h with
  | primary =>
    rw [Expr.eval]
    rfl
  | path absolute before =>
    rw [Expr.eval, Expr.eval, walk_append]
    cases Step.walk t before _ <;> rfl
  | filter e predicates before =>
    rw [Expr.eval, Expr.eval]
    simp only [walk_append, bind_assoc]
    rfl

/-! ## Merged parts -/

theorem FailsByType.eq_error_iff {α : Type} {x : Except Error α} (h : FailsByType x) :
    x = .error .notANodeSet ↔ ¬ ∃ a, x = .ok a := by
  rcases h with ⟨a, rfl⟩ | rfl <;> simp

theorem eval_relative (n : NodeRef) (position size : Nat) :
    (Expr.path false steps).eval t ⟨n, position, size⟩ =
      Step.walk t steps [n] >>= fun found => .ok (.nodeSet found) := by
  rw [Expr.eval]
  rfl

theorem bind_nodeSet_eq_ok {x : Except Error (List NodeRef)} {value : Value} :
    (x >>= fun found => .ok (.nodeSet found)) = .ok value ↔
      ∃ found, x = .ok found ∧ value = .nodeSet found := by
  rw [bind_eq_ok]
  simp only [Except.ok.injEq, eq_comm]

theorem bind_nodeSet_eq_error {x : Except Error (List NodeRef)} {fault : Error} :
    (x >>= fun found => .ok (Value.nodeSet found)) = .error fault ↔ x = .error fault := by
  cases x <;> simp [bind, Except.bind]

theorem GoesOn.merges (h : GoesOn front after whole) (ht : t.Assembled) (hwhole : whole.Proper)
    (hfront : front.eval t context = .ok (.nodeSet nodes)) (position size : Nat) :
    Merges t nodes (fun n => (Expr.path false after).eval t ⟨n, position, size⟩)
      (whole.eval t context) := by
  have hfails := Step.walk_failsByType (t := t) after
  have heval : whole.eval t context =
      Step.walk t after nodes >>= fun found => .ok (.nodeSet found) := by
    rw [h.eval_eq, hfront]
    rfl
  simp only [eval_relative]
  refine ⟨fun n _ => ?_, ?_, ?_⟩
  · rcases hfails [n] with ⟨found, hfound⟩ | hfound
    · exact .inl ⟨found, by rw [hfound, bind_ok]⟩
    · exact .inr (bind_nodeSet_eq_error.2 hfound)
  · simp only [heval, bind_nodeSet_eq_error]
    rw [(hfails nodes).eq_error_iff, walk_eq_ok_iff, not_forall]
    simp only [(hfails [_]).eq_error_iff, not_forall, exists_prop]
  · rcases hfails nodes with ⟨found, hfound⟩ | hfound
    · have hvalue : whole.eval t context = .ok (.nodeSet found) := by
        rw [heval, hfound, bind_ok]
      refine .inr ⟨found, hvalue, hwhole.eval_inOrder ht hvalue, fun x => ?_⟩
      simp [mem_walk hfound, bind_nodeSet_eq_ok]
    · exact .inl (by rw [heval, hfound]; rfl)

theorem GoesOn.byNode (h : GoesOn front after whole) (ht : t.Assembled) (hwhole : whole.Proper)
    (context : Context) : GoesOnByNode t front after whole context where
  merges _ hfront := h.merges ht hwhole hfront
  error hfront := by
    rw [h.eval_eq, hfront]
    rfl

/-- A relative path behind an expression in parentheses is evaluated from each of its nodes, and
what the evaluations find is merged.  So are the last steps of any path from the nodes that the
steps before them arrive at. -/
theorem paths_distribute (ht : t.Assembled) :
    (∀ e p front steps, parse e = .ok front → ReadsSteps p steps →
      parse p = .ok (.path false steps) ∧
      ∃ whole, parse ("(" ++ e ++ ")/" ++ p) = .ok whole ∧
        ∀ context, GoesOnByNode t front steps whole context) ∧
    ∀ source front after whole, parse source = .ok whole → GoesOn front after whole →
      ∀ context, GoesOnByNode t front after whole context := by
  constructor
  · intro e p front steps hfront hsteps
    have hwhole := hsteps.parse_behind hfront
    exact ⟨hsteps.parse, _, hwhole, (GoesOn.primary front steps).byNode ht (proper_of_parse hwhole)⟩
  · intro source front after whole hwhole h
    exact h.byNode ht (proper_of_parse hwhole)

theorem spells_textStep : Phrase.steps.Spells "text()".toList [.mk .child .text []] :=
  (Phrase.Spells.childStep spellsTest_text spellsPredicates_nil).lastStep

theorem spells_paragraphs : Phrase.steps.Spells "*".toList [.mk .child .anyName []] :=
  (Phrase.Spells.childStep spellsTest_anyName spellsPredicates_nil).lastStep

theorem eval_paragraphs : (Expr.path false [.mk .child .anyName []]).eval Html.paragraphs
    (.alone (.tree Tree.root)) = .ok (.nodeSet [.tree 1, .tree 5]) := by
  have ht := Html.built_paragraphs.assembled
  have hwalk : Step.walk Html.paragraphs [.mk .child .anyName []] [.tree Tree.root] =
      Step.walk Html.paragraphs [] [.tree 1, .tree 5] :=
    walk_plain ht (by decide +kernel) (by decide +kernel)
  exact eval_path_of_walk hwalk

/-- The texts in two paragraphs that are named in parentheses, and the texts below the document. -/
theorem paths_distribute_texts : ∃ inside,
    parse "(*)/text()" = .ok inside ∧
    GoesOnByNode Html.paragraphs (.path false [.mk .child .anyName []]) [.mk .child .text []] inside
      (.alone (.tree Tree.root)) ∧
    (Expr.path false [.mk .child .anyName []]).eval Html.paragraphs (.alone (.tree Tree.root)) =
      .ok (.nodeSet [.tree 1, .tree 5]) ∧
    parse ".//text()" = .ok textsBelow ∧
    GoesOnByNode Html.paragraphs (.path false [.mk .self .node []])
      [.anywhere, .mk .child .text []] textsBelow (.alone (.tree Tree.root)) ∧
    textsBelow.eval Html.paragraphs (.alone (.tree Tree.root)) =
      .ok (.nodeSet [.tree 2, .tree 4, .tree 7]) := by
  have ht := Html.built_paragraphs.assembled
  have hparagraphs : parse "*" = .ok (.path false [.mk .child .anyName []]) :=
    parse_of_spells spells_paragraphs.relative.expr_of_path
  have hbelow : parse ".//text()" = .ok textsBelow :=
    parse_of_spells spells_textsBelow.expr_of_path
  obtain ⟨-, inside, hinside, hbyNode⟩ := (paths_distribute ht).1 "*" "text()" _ _ hparagraphs
    (readsSteps_of_spells spells_textStep)
  refine ⟨inside, hinside, hbyNode _, eval_paragraphs, hbelow, ?_, eval_textsBelow⟩
  exact (paths_distribute ht).2 _ _ _ _ hbelow
    (.path false [.mk .self .node []] [.anywhere, .mk .child .text []]) _

end MarkupQuery.XPath
