import Mathlib.Logic.Relation
import MarkupQuery.Proofs.XPath.ParserComplete
import MarkupQuery.XPath.Query

/-!
# Parts of expressions

What reading a text grants of an expression it grants of every expression that stands in it: calls
have as many arguments as their functions take, and a path from the context node has steps.
-/

namespace MarkupQuery.XPath

namespace Expr

/-- The expressions that stand in an expression: operands, arguments, primary expressions and
predicates. -/
def parts : Expr → List Expr
  | number _ | literal _ => []
  | binary _ left right | union left right => [left, right]
  | negate operand => [operand]
  | call _ arguments => arguments
  | path _ steps => steps.flatMap Step.predicates
  | filter primary predicates steps => primary :: predicates ++ steps.flatMap Step.predicates

/-- The first expression is the second, or stands in it at some depth. -/
def Within : Expr → Expr → Prop := Relation.ReflTransGen fun part whole => part ∈ whole.parts

/-- Calls have arguments as their functions take them, and every path has a start and an end. -/
inductive Proper : Expr → Prop where
  | number (value : Float) : Proper (number value)
  | literal (text : String) : Proper (literal text)
  | binary (op : BinaryOp) {left right : Expr} (hleft : Proper left) (hright : Proper right) :
      Proper (binary op left right)
  | negate {operand : Expr} (h : Proper operand) : Proper (negate operand)
  | call {function : Function} {arguments : List Expr}
      (harity : function.arity.admits arguments.length = true)
      (harguments : ∀ a ∈ arguments, Proper a) : Proper (call function arguments)
  | path {absolute : Bool} {steps : List Step} (hstart : absolute = true ∨ steps ≠ [])
      (hsteps : ∀ s ∈ steps, ∀ p ∈ s.predicates, Proper p) : Proper (path absolute steps)
  | filter {primary : Expr} {predicates : List Expr} {steps : List Step} (hprimary : Proper primary)
      (hpredicates : ∀ p ∈ predicates, Proper p)
      (hsteps : ∀ s ∈ steps, ∀ p ∈ s.predicates, Proper p) :
      Proper (filter primary predicates steps)
  | union {left right : Expr} (hleft : Proper left) (hright : Proper right) :
      Proper (union left right)

theorem Proper.of_mem_parts {part whole : Expr} (h : whole.Proper) (hpart : part ∈ whole.parts) :
    part.Proper := by
  cases h with
  | number | literal => cases hpart
  | binary _ hleft hright | union hleft hright =>
    rcases List.mem_pair.1 hpart with rfl | rfl
    · exact hleft
    · exact hright
  | negate h => exact List.mem_singleton.1 hpart ▸ h
  | call _ harguments => exact harguments part hpart
  | path _ hsteps =>
    obtain ⟨s, hs, hp⟩ := List.mem_flatMap.1 hpart
    exact hsteps s hs part hp
  | filter hprimary hpredicates hsteps =>
    rcases List.mem_append.1 hpart with hpart | hpart
    · rcases List.mem_cons.1 hpart with rfl | hpart
      · exact hprimary
      · exact hpredicates part hpart
    · obtain ⟨s, hs, hp⟩ := List.mem_flatMap.1 hpart
      exact hsteps s hs part hp

theorem Proper.of_within {part whole : Expr} (h : whole.Proper) (hpart : part.Within whole) :
    part.Proper := by
  induction hpart using Relation.ReflTransGen.head_induction_on with
  | refl => exact h
  | head hmem _ ih => exact ih.of_mem_parts hmem

end Expr

/-! ## Phrases -/

/-- What the result of a phrase is made of is proper. -/
def Phrase.Proper : (p : Phrase) → p.Result → Prop
  | expr, e | level _, e | operand _, e | unary, e | union, e | path, e | filter, e | primary, e
  | call _, e => Expr.Proper e
  | arguments, es | predicates, es => ∀ e ∈ es, Expr.Proper e
  | steps, ss => ss ≠ [] ∧ ∀ s ∈ ss, ∀ e ∈ s.predicates, e.Proper
  | step, s => ∀ e ∈ s.predicates, e.Proper

/-- The step that a double slash stands for has no predicates. -/
theorem proper_anywhere_cons {steps : List Step} (h : ∀ s ∈ steps, ∀ e ∈ s.predicates, e.Proper) :
    ∀ s ∈ Step.anywhere :: steps, ∀ e ∈ s.predicates, e.Proper := by
  rw [List.forall_mem_cons]
  exact ⟨fun e he => absurd he List.not_mem_nil, h⟩

theorem Derives.proper {p : Phrase} {tokens : List Token} {r : p.Result} (h : Derives p tokens r) :
    p.Proper r := by
  induction h with
  | expr _ ih | single _ ih | tighter _ _ ih | tightest _ ih | positive _ ih | member _ ih
  | filter _ ih | bare _ ih | group _ ih | function _ ih => exact ih
  | binary _ _ _ ihleft ihright => exact .binary _ ihleft ihright
  | negate _ ih => exact .negate ih
  | union _ _ ihleft ihright => exact .union ihleft ihright
  | root => exact .path (.inl rfl) nofun
  | absolute _ ih => exact .path (.inl rfl) ih.2
  | anywhere _ ih => exact .path (.inl rfl) (proper_anywhere_cons ih.2)
  | relative _ ih => exact .path (.inr ih.1) ih.2
  | filtered _ _ _ ihprimary ihpredicates => exact .filter ihprimary ihpredicates nofun
  | filterPath _ _ _ ihprimary ihpredicates ihsteps =>
    exact .filter ihprimary ihpredicates ihsteps.2
  | filterAnywhere _ _ _ ihprimary ihpredicates ihsteps =>
    exact .filter ihprimary ihpredicates (proper_anywhere_cons ihsteps.2)
  | literal text => exact .literal text
  | number value => exact .number value
  | noArguments _ harity => exact .call harity nofun
  | call _ _ harity ih => exact .call harity ih
  | lastArgument _ ih => exact List.forall_mem_singleton.2 ih
  | argument _ _ ihfirst ihothers | predicate _ _ ihfirst ihothers =>
    exact List.forall_mem_cons.2 ⟨ihfirst, ihothers⟩
  | noPredicates => exact nofun
  | lastStep _ ih => exact ⟨List.cons_ne_nil _ _, List.forall_mem_singleton.2 ih⟩
  | slash _ _ ihfirst ihothers =>
    exact ⟨List.cons_ne_nil _ _, List.forall_mem_cons.2 ⟨ihfirst, ihothers.2⟩⟩
  | doubleSlash _ _ ihfirst ihothers =>
    exact ⟨List.cons_ne_nil _ _,
      List.forall_mem_cons.2 ⟨ihfirst, proper_anywhere_cons ihothers.2⟩⟩
  | self | parent => exact nofun
  | step _ _ _ ih => exact ih

theorem exists_scan_of_parse {source : String} {e : Expr} (h : parse source = .ok e) :
    ∃ lexemes, scan source = .ok lexemes ∧ Derives .expr (lexemes.map Lexeme.token) e := by
  cases hscan : scan source with
  | error fault =>
    rw [parse, hscan] at h
    cases h
  | ok lexemes => exact ⟨lexemes, rfl, parseTokens_eq_ok_iff.1 ((parse_eq_ok_of_scan hscan).1 h)⟩

theorem proper_of_parse {source : String} {e : Expr} (h : parse source = .ok e) : e.Proper := by
  obtain ⟨lexemes, -, hderives⟩ := exists_scan_of_parse h
  exact hderives.proper

/-- All that stands in the expression of a query is proper. -/
theorem Query.proper_of_compile {source : String} {query : Query}
    (h : Query.compile source = .ok query) {part : Expr} (hpart : part.Within query.expr) :
    part.Proper := by
  obtain ⟨e, hparse, heq⟩ := bind_eq_ok.1 h
  obtain rfl := pure_eq_ok.1 heq
  exact (proper_of_parse hparse).of_within hpart

end MarkupQuery.XPath
