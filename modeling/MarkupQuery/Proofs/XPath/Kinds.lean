import MarkupQuery.Proofs.Outcome
import MarkupQuery.XPath.Eval

/-!
# Kinds of values

The value of an expression, in whatever context it has one, is of a kind that the expression shows.
-/

namespace MarkupQuery.XPath

variable {t : Tree}

inductive Kind where
  | nodes
  | truth
  | number
  | text
  deriving DecidableEq, Repr

def Value.kind : Value → Kind
  | .nodeSet _ => .nodes
  | .boolean _ => .truth
  | .number _ => .number
  | .string _ => .text

def Function.kind : Function → Kind
  | last | position | count | stringLength | number => .number
  | nameOf | localName | string | concat | normalizeSpace => .text
  | contains | startsWith | boolean | not | alwaysTrue | alwaysFalse => .truth

def Expr.kind : Expr → Kind
  | number _ | negate _ | binary (.arithmetic _) _ _ => .number
  | literal _ => .text
  | binary _ _ _ => .truth
  | call function _ => function.kind
  | path _ _ | filter _ _ _ | union _ _ => .nodes

theorem kind_of_callNamed {function : Function} {context : Context} {arguments : List Value}
    {value : Value} (h : callNamed t context function.name arguments = .ok value) :
    value.kind = function.kind := by
  cases function
  case count | nameOf | localName =>
    simp only [Function.name, callNamed] at h
    split at h
    · cases h <;> rfl
    · obtain ⟨found, -, heq⟩ := bind_eq_ok.1 h
      cases heq
      rfl
  case number =>
    simp only [Function.name, callNamed] at h
    split at h <;> cases h <;> rfl
  all_goals
    cases h
    rfl

theorem Expr.kind_of_eval {e : Expr} {context : Context} {value : Value}
    (h : e.eval t context = .ok value) : value.kind = e.kind := by
  cases e with
  | number | literal =>
    rw [Expr.eval] at h
    cases h
    rfl
  | binary op left right =>
    cases op with
    | or | and =>
      rw [Expr.eval] at h
      obtain ⟨first, -, h⟩ := bind_eq_ok.1 h
      split at h
      all_goals first
        | cases h
          rfl
        | obtain ⟨second, -, heq⟩ := bind_eq_ok.1 h
          cases heq
          rfl
    | relation relation | arithmetic op =>
      rw [Expr.eval] at h
      obtain ⟨l, -, h⟩ := bind_eq_ok.1 h
      obtain ⟨r, -, heq⟩ := bind_eq_ok.1 h
      cases heq
      rfl
  | negate operand =>
    rw [Expr.eval] at h
    obtain ⟨first, -, heq⟩ := bind_eq_ok.1 h
    cases heq
    rfl
  | call function arguments =>
    rw [Expr.eval] at h
    obtain ⟨values, -, hcall⟩ := bind_eq_ok.1 h
    exact kind_of_callNamed hcall
  | path absolute steps =>
    rw [Expr.eval] at h
    obtain ⟨found, -, heq⟩ := bind_eq_ok.1 h
    cases heq
    rfl
  | filter primary predicates steps =>
    rw [Expr.eval] at h
    obtain ⟨first, -, h⟩ := bind_eq_ok.1 h
    obtain ⟨found, -, h⟩ := bind_eq_ok.1 h
    obtain ⟨kept, -, h⟩ := bind_eq_ok.1 h
    obtain ⟨walked, -, heq⟩ := bind_eq_ok.1 h
    cases heq
    rfl
  | union left right =>
    rw [Expr.eval] at h
    obtain ⟨l, -, h⟩ := bind_eq_ok.1 h
    obtain ⟨lnodes, -, h⟩ := bind_eq_ok.1 h
    obtain ⟨r, -, h⟩ := bind_eq_ok.1 h
    obtain ⟨rnodes, -, heq⟩ := bind_eq_ok.1 h
    cases heq
    rfl

end MarkupQuery.XPath
