import MarkupQuery.Proofs.XPath.Operands
import MarkupQuery.Proofs.XPath.Ordering

/-!
# Comparisons from both sides

A comparison says the same when its operands change places and its relation is turned round with
them.  This needs of numbers only that equality looks the same from both sides; a number that is
none is equal to nothing and neither below nor above anything.
-/

namespace MarkupQuery.XPath

/-! ## Numbers -/

open Float.Model in
theorem compare_eq_swap (x y : UnpackedFloat) :
    x.compare y = (y.compare x).map Ordering.swap := by
  have hsize (m n : Nat) (e f : Int) : (compare e f).then (compare m n) =
      ((compare f e).then (compare n m)).swap := by
    rw [Ordering.swap_then, Int.compare_swap, Nat.compare_swap]
  cases x with
  | notANumber => cases y <;> rfl
  | infinity s =>
    cases y with
    | notANumber => cases s <;> rfl
    | infinity s' => cases s <;> cases s' <;> rfl
    | zero s' => cases s <;> rfl
    | finite s' m' e' _ => cases s <;> cases s' <;> rfl
  | zero s =>
    cases y with
    | notANumber => rfl
    | infinity s' => cases s' <;> rfl
    | zero s' => rfl
    | finite s' m' e' _ => cases s' <;> rfl
  | finite s m e _ =>
    cases y with
    | notANumber => cases s <;> rfl
    | infinity s' => cases s <;> cases s' <;> rfl
    | zero s' => cases s <;> rfl
    | finite s' m' e' _ =>
      cases s with
      | negative =>
        cases s' with
        | negative => exact congrArg (fun o => some o.swap) (hsize m m' e e')
        | positive => rfl
      | positive =>
        cases s' with
        | negative => rfl
        | positive => exact congrArg some (hsize m m' e e')

theorem number_beq_comm (a b : Float) : (a == b) = (b == a) := by
  change (a.toModel.unpack.compare b.toModel.unpack == some .eq) =
    (b.toModel.unpack.compare a.toModel.unpack == some .eq)
  rw [compare_eq_swap]
  rcases b.toModel.unpack.compare a.toModel.unpack with _ | _ | _ | _ <;> rfl

/-! ## Values -/

/-- The relation from the other side. -/
def Relation.mirror : Relation → Relation
  | equal => equal
  | notEqual => notEqual
  | less => greater
  | lessEqual => greaterEqual
  | greater => less
  | greaterEqual => lessEqual

theorem Atom.equals_comm (a b : Atom) : a.equals b = b.equals a := by
  cases a <;> cases b <;> simp only [Atom.equals, number_beq_comm, Bool.beq_comm]

theorem Atom.compare_mirror (relation : Relation) (a b : Atom) :
    Atom.compare relation a b = Atom.compare relation.mirror b a := by
  cases relation with
  | equal => exact a.equals_comm b
  | notEqual => exact congrArg (!·) (a.equals_comm b)
  | less | lessEqual | greater | greaterEqual => rfl

variable {t : Tree}

theorem Value.compare_mirror (relation : Relation) (l r : Value) :
    l.compare t relation r = r.compare t relation.mirror l := by
  have hatom := Atom.compare_mirror relation
  cases l with
  | nodeSet ls =>
    cases r with
    | nodeSet rs =>
      rw [Bool.eq_iff_iff]
      simp only [Value.compare, hatom, List.any_eq_true]
      constructor
      · rintro ⟨a, ha, b, hb, h⟩
        exact ⟨b, hb, a, ha, h⟩
      · rintro ⟨b, hb, a, ha, h⟩
        exact ⟨a, ha, b, hb, h⟩
    | atom b => cases b <;> simp only [Value.compare, hatom]
  | atom a =>
    cases r with
    | nodeSet rs => cases a <;> simp only [Value.compare, hatom]
    | atom b => cases a <;> cases b <;> exact hatom _ _

/-- Two texts are in a relation: as strings for equality, and by the numbers that they stand for
otherwise. -/
def Relation.OfTexts : Relation → String → String → Prop
  | equal, s, s' => s = s'
  | notEqual, s, s' => s ≠ s'
  | less, s, s' => numberOfText s < numberOfText s'
  | lessEqual, s, s' => numberOfText s ≤ numberOfText s'
  | greater, s, s' => numberOfText s > numberOfText s'
  | greaterEqual, s, s' => numberOfText s ≥ numberOfText s'

theorem Atom.compare_string {relation : Relation} {s s' : String} :
    Atom.compare relation (.string s) (.string s') = true ↔ relation.OfTexts s s' := by
  cases relation with
  | equal | notEqual => simp [Atom.compare, Atom.equals, Relation.OfTexts]
  | less | lessEqual | greater | greaterEqual => exact decide_eq_true_iff

theorem Value.compare_nodeSets {relation : Relation} {l r : List NodeRef} :
    Value.compare t relation (.nodeSet l) (.nodeSet r) = true ↔
      ∃ n ∈ l, ∃ m ∈ r, relation.OfTexts (n.stringValue t) (m.stringValue t) := by
  simp only [Value.compare, List.any_eq_true, Atom.compare_string]

/-! ## Expressions -/

theorem eval_comparison_mirror (relation : Relation) (x y : Expr) (context : Context) :
    (Expr.binary (.relation relation) x y).eval t context =
      (Expr.binary (.relation relation.mirror) y x).eval t context := by
  -- the operands are evaluated in the other order, and they can fail in one way only
  refine (Expr.eval_failsByType _ context).ext (Expr.eval_failsByType _ context) fun value => ?_
  simp only [Expr.eval, bind_eq_ok, pure_eq_ok, Value.compare_mirror relation]
  constructor
  · rintro ⟨l, hl, r, hr, h⟩
    exact ⟨r, hr, l, hl, h⟩
  · rintro ⟨r, hr, l, hl, h⟩
    exact ⟨l, hl, r, hr, h⟩

/-- A comparison of two expressions in parentheses has the same result when the operands change
places and the relation is turned round.  Two node-sets are in a relation when the texts of a node
of the one and a node of the other are. -/
theorem comparisons_mirror {left right : String} {x y : Expr} (hx : parse left = .ok x)
    (hy : parse right = .ok y) (relation : Relation) :
    parse (operation left (BinaryOp.relation relation).text right) =
      .ok (.binary (.relation relation) x y) ∧
    ∀ t context,
      valueIn t (operation left (BinaryOp.relation relation).text right) context =
        valueIn t (operation right (BinaryOp.relation relation.mirror).text left) context ∧
      ∀ l r, valueIn t left context = .ok (.nodeSet l) →
        valueIn t right context = .ok (.nodeSet r) →
        ∃ holds, valueIn t (operation left (BinaryOp.relation relation).text right) context =
            .ok (.boolean holds) ∧
          (holds = true ↔
            ∃ n ∈ l, ∃ m ∈ r, relation.OfTexts (n.stringValue t) (m.stringValue t)) := by
  have hparse := parse_comparison relation hx hy
  refine ⟨hparse, fun t context => ⟨?_, fun l r hl hr => ?_⟩⟩
  · rw [valueIn_of_parse hparse, valueIn_of_parse (parse_comparison relation.mirror hy hx)]
    exact eval_comparison_mirror relation x y context
  · rw [valueIn_of_parse hx] at hl
    rw [valueIn_of_parse hy] at hr
    refine ⟨_, ?_, Value.compare_nodeSets⟩
    rw [valueIn_of_parse hparse, Expr.eval, hl, hr]
    rfl

/-- Three texts and a string, compared from both sides, and the texts and an attribute: none is
equal to it. -/
theorem comparisons_mirror_texts :
    valueIn Html.paragraphs (operation ".//text()" "<=" "'a'") (.alone (.tree Tree.root)) =
      valueIn Html.paragraphs (operation "'a'" ">=" ".//text()") (.alone (.tree Tree.root)) ∧
    valueIn Html.paragraphs (operation ".//text()" "=" ".//@*") (.alone (.tree Tree.root)) =
      .ok (.boolean false) ∧
    valueIn Html.paragraphs (operation ".//@*" "!=" ".//text()") (.alone (.tree Tree.root)) =
      .ok (.boolean true) := by
  have hliteral : parse "'a'" = .ok (.literal "a") :=
    parse_of_spells (Phrase.Spells.literal (.inr rfl) (by decide : '\'' ∉ ['a'])).expr_of_primary
  have htexts : parse ".//text()" = .ok textsBelow :=
    parse_of_spells spells_textsBelow.expr_of_path
  have hattributes : parse ".//@*" = .ok attributesBelow :=
    parse_of_spells spells_attributesBelow.expr_of_path
  have hleft := (valueIn_of_parse htexts _ _).trans eval_textsBelow
  have hright := (valueIn_of_parse hattributes _ _).trans eval_attributesBelow
  obtain ⟨-, hmirror⟩ := comparisons_mirror htexts hliteral .lessEqual
  obtain ⟨-, hequal⟩ := comparisons_mirror htexts hattributes .equal
  obtain ⟨-, hnotEqual⟩ := comparisons_mirror hattributes htexts .notEqual
  obtain ⟨holds, heval, hiff⟩ := (hequal Html.paragraphs _).2 _ _ hleft hright
  obtain ⟨holds', heval', hiff'⟩ := (hnotEqual Html.paragraphs _).2 _ _ hright hleft
  have hholds : holds = false := by
    rw [Bool.eq_false_iff, ne_eq, hiff]
    simp only [Relation.OfTexts]
    decide +kernel
  have hholds' : holds' = true := by
    rw [hiff']
    simp only [Relation.OfTexts]
    decide +kernel
  exact ⟨(hmirror Html.paragraphs _).1, hholds ▸ heval, hholds' ▸ heval'⟩

end MarkupQuery.XPath
