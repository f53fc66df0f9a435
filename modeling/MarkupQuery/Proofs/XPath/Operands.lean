import MarkupQuery.Proofs.XPath.Composing
import MarkupQuery.Proofs.XPath.Failures

/-!
# Operands in parentheses

Two texts that are read as expressions, each put in parentheses, with an operator between them are
read as the operator applied to these two expressions.
-/

namespace MarkupQuery.XPath

/-- Two texts in parentheses, and an operator between them. -/
def operation (left operator right : String) : String :=
  "(" ++ left ++ ") " ++ operator ++ " (" ++ right ++ ")"

/-- Reads a text and evaluates it in a context. -/
def valueIn (t : Tree) (source : String) (context : Context) : Except Error Value := do
  (← parse source).eval t context

variable {left operator right : String} {x y e : Expr} {token : Token}

theorem valueIn_of_parse {source : String} (h : parse source = .ok e) (t : Tree)
    (context : Context) : valueIn t source context = e.eval t context := by
  rw [valueIn, h, bind_ok]

/-- A text that is one token behind an operand, whatever follows the blank behind it. -/
def SpellsOperator (operator : String) (token : Token) : Prop :=
  ∀ {rest : List Char} {tokens : List Token}, Scans false rest tokens →
    Scans true (operator.toList ++ ' ' :: rest) (token :: tokens)

theorem SpellsOperator.scans_operation {ls rs : List Lexeme} (h : SpellsOperator operator token)
    (hleft : scan left = .ok ls) (hright : scan right = .ok rs) :
    Scans false (operation left operator right).toList
      ((.leftParen :: ls.map Lexeme.token ++ [.rightParen]) ++ token ::
        (.leftParen :: rs.map Lexeme.token ++ [.rightParen])) := by
  have hend : ∀ afterOperand, Scans afterOperand [')'] [.rightParen] := fun _ =>
    Scans.symbol [')'] rfl rfl .nil
  have hsecond : Scans false ('(' :: (right.toList ++ [')']))
      (.leftParen :: (rs.map Lexeme.token ++ [.rightParen])) :=
    Scans.symbol ['('] rfl rfl (cuts_rightParen.scans_append hright hend)
  have hmiddle : ∀ afterOperand, Scans afterOperand
      (')' :: ' ' :: (operator.toList ++ ' ' :: '(' :: (right.toList ++ [')'])))
      (.rightParen :: token :: .leftParen :: (rs.map Lexeme.token ++ [.rightParen])) := fun _ =>
    Scans.symbol [')'] rfl rfl (h hsecond).space
  have hwhole : Scans false
      ('(' :: (left.toList ++ ')' :: ' ' :: (operator.toList ++ ' ' :: '(' ::
        (right.toList ++ [')']))))
      (.leftParen :: (ls.map Lexeme.token ++ .rightParen :: token :: .leftParen ::
        (rs.map Lexeme.token ++ [.rightParen]))) :=
    Scans.symbol ['('] rfl rfl (cuts_rightParen.scans_append hleft hmiddle)
  simpa [operation, String.toList_append] using hwhole

theorem SpellsOperator.parse_operation (h : SpellsOperator operator token)
    (hx : parse left = .ok x) (hy : parse right = .ok y)
    (hderives : ∀ ts us, Derives .primary ts x → Derives .primary us y →
      Derives .expr (ts ++ token :: us) e) :
    parse (operation left operator right) = .ok e := by
  obtain ⟨ls, hls, hleft⟩ := exists_scan_of_parse hx
  obtain ⟨rs, hrs, hright⟩ := exists_scan_of_parse hy
  exact parse_of_scans (h.scans_operation hls hrs) (hderives _ _ (.group hleft) (.group hright))

theorem Derives.union_of_primary {ts : List Token} (h : Derives .primary ts x) :
    Derives .union ts x :=
  .member (.filter (.bare h))

/-- All that stands at a level is an expression. -/
theorem Derives.expr_of_level {level : Level} {ts : List Token} (h : Derives (.level level) ts e) :
    Derives .expr ts e := by
  have loosen {level tighter : Level} (hnext : Level.Next level tighter)
      (h : Derives (.level tighter) ts e) : Derives (.level level) ts e :=
    .single (.tighter hnext h)
  have hequality (h : Derives (.level .equality) ts e) : Derives .expr ts e :=
    .expr (loosen .or (loosen .and h))
  have hadditive (h : Derives (.level .additive) ts e) : Derives .expr ts e :=
    hequality (loosen .equality (loosen .relational h))
  cases level with
  | or => exact .expr h
  | and => exact .expr (loosen .or h)
  | equality => exact hequality h
  | relational => exact hequality (loosen .equality h)
  | additive => exact hadditive h
  | multiplicative => exact hadditive (loosen .additive h)

/-! ## Relations and unions -/

theorem Relation.exists_spellsOperator (relation : Relation) : ∃ level token,
    SpellsOperator (BinaryOp.relation relation).text token ∧
      Level.Operator level token (.relation relation) := by
  cases relation with
  | equal => exact ⟨_, _, fun h => Scans.symbol ['='] rfl rfl h.space, .equal⟩
  | notEqual => exact ⟨_, _, fun h => Scans.symbol ['!', '='] rfl rfl h.space, .notEqual⟩
  | less => exact ⟨_, _, fun h => Scans.symbol ['<'] rfl rfl h.space, .less⟩
  | lessEqual => exact ⟨_, _, fun h => Scans.symbol ['<', '='] rfl rfl h.space, .lessEqual⟩
  | greater => exact ⟨_, _, fun h => Scans.symbol ['>'] rfl rfl h.space, .greater⟩
  | greaterEqual => exact ⟨_, _, fun h => Scans.symbol ['>', '='] rfl rfl h.space, .greaterEqual⟩

theorem parse_comparison (relation : Relation) (hx : parse left = .ok x)
    (hy : parse right = .ok y) : parse (operation left (BinaryOp.relation relation).text right) =
      .ok (.binary (.relation relation) x y) := by
  obtain ⟨level, token, hspells, hoperator⟩ := relation.exists_spellsOperator
  refine hspells.parse_operation hx hy fun ts us hts hus => ?_
  have hleft := (hts.union_of_primary.level_of_union level).2
  have hright := (hus.union_of_primary.level_of_union level).1
  exact (Derives.binary hleft hoperator hright).expr_of_level

theorem parse_union (hx : parse left = .ok x) (hy : parse right = .ok y) :
    parse (operation left "|" right) = .ok (.union x y) := by
  have hspells : SpellsOperator "|" .pipe := fun h => Scans.symbol ['|'] rfl rfl h.space
  refine hspells.parse_operation hx hy fun ts us hts hus => ?_
  have hunion := Derives.union hts.union_of_primary (.filter (.bare hus))
  exact (hunion.level_of_union .or).2.expr_of_level

end MarkupQuery.XPath
