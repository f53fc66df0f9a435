import Mathlib.Data.List.Forall2
import MarkupQuery.Proofs.XPath.ParserNeeds

/-!
# Phrases with any number of arguments

The grammar of path expressions without the numbers of arguments: `Formed p ts` holds when the
tokens `ts` are a phrase of the kind `p`, where a call may have as many arguments as it likes.
Functions and axes are the known ones, and no phrase holds a variable.  Such a phrase is in the
grammar when the functions in it are exchanged for others that take the arguments which stand there.
-/

namespace MarkupQuery.XPath

/-- The tokens of a phrase, apart from the numbers of arguments. -/
inductive Formed : Phrase → List Token → Prop where
  | expr {ts} (h : Formed (.level .or) ts) : Formed .expr ts
  | single {level ts} (h : Formed (.operand level) ts) : Formed (.level level) ts
  | binary {level ts us token op} (hleft : Formed (.level level) ts)
      (hop : Level.Operator level token op) (hright : Formed (.operand level) us) :
      Formed (.level level) (ts ++ token :: us)
  | tighter {level tighter ts} (hnext : Level.Next level tighter) (h : Formed (.level tighter) ts) :
      Formed (.operand level) ts
  | tightest {ts} (h : Formed .unary ts) : Formed (.operand .multiplicative) ts
  | negate {ts} (h : Formed .unary ts) : Formed .unary (.minus :: ts)
  | positive {ts} (h : Formed .union ts) : Formed .unary ts
  | member {ts} (h : Formed .path ts) : Formed .union ts
  | union {ts us} (hleft : Formed .union ts) (hright : Formed .path us) :
      Formed .union (ts ++ .pipe :: us)
  | root : Formed .path [.slash]
  | absolute {ts} (h : Formed .steps ts) : Formed .path (.slash :: ts)
  | anywhere {ts} (h : Formed .steps ts) : Formed .path (.doubleSlash :: ts)
  | relative {ts} (h : Formed .steps ts) : Formed .path ts
  | filter {ts} (h : Formed .filter ts) : Formed .path ts
  | filtered {ts us} (hprimary : Formed .primary ts) (hpredicates : Formed .predicates us) :
      Formed .filter (ts ++ us)
  | filterPath {ts us vs} (hprimary : Formed .primary ts) (hpredicates : Formed .predicates us)
      (hsteps : Formed .steps vs) : Formed .filter (ts ++ us ++ .slash :: vs)
  | filterAnywhere {ts us vs} (hprimary : Formed .primary ts) (hpredicates : Formed .predicates us)
      (hsteps : Formed .steps vs) : Formed .filter (ts ++ us ++ .doubleSlash :: vs)
  | group {ts} (h : Formed .expr ts) : Formed .primary (.leftParen :: ts ++ [.rightParen])
  | literal (text : String) : Formed .primary [.literal text]
  | number (value : Float) : Formed .primary [.number value]
  | function {name ts} (h : Formed (.call name) ts) : Formed .primary (.function name :: ts)
  | noArguments (function : Function) : Formed (.call function.name) [.leftParen, .rightParen]
  | call {ts} (function : Function) (h : Formed .arguments ts) :
      Formed (.call function.name) (.leftParen :: ts)
  | lastArgument {ts} (h : Formed .expr ts) : Formed .arguments (ts ++ [.rightParen])
  | argument {ts us} (hfirst : Formed .expr ts) (hothers : Formed .arguments us) :
      Formed .arguments (ts ++ .comma :: us)
  | noPredicates : Formed .predicates []
  | predicate {ts us} (hfirst : Formed .expr ts) (hothers : Formed .predicates us) :
      Formed .predicates (.leftBracket :: ts ++ .rightBracket :: us)
  | lastStep {ts} (h : Formed .step ts) : Formed .steps ts
  | slash {ts us} (hfirst : Formed .step ts) (hothers : Formed .steps us) :
      Formed .steps (ts ++ .slash :: us)
  | doubleSlash {ts us} (hfirst : Formed .step ts) (hothers : Formed .steps us) :
      Formed .steps (ts ++ .doubleSlash :: us)
  | self : Formed .step [.dot]
  | parent : Formed .step [.dotDot]
  | step {as ts us axis test} (haxis : AxisTokens as axis) (htest : TestTokens ts test)
      (hpredicates : Formed .predicates us) : Formed .step (as ++ ts ++ us)

/-- The grammar has no other phrases than those with any number of arguments. -/
theorem Derives.formed {p : Phrase} {ts : List Token} {r : p.Result} (h : Derives p ts r) :
    Formed p ts := by
  induction h with
  | expr _ ih => exact .expr ih
  | single _ ih => exact .single ih
  | binary _ hop _ ihleft ihright => exact .binary ihleft hop ihright
  | tighter hnext _ ih => exact .tighter hnext ih
  | tightest _ ih => exact .tightest ih
  | negate _ ih => exact .negate ih
  | positive _ ih => exact .positive ih
  | member _ ih => exact .member ih
  | union _ _ ihleft ihright => exact .union ihleft ihright
  | root => exact .root
  | absolute _ ih => exact .absolute ih
  | anywhere _ ih => exact .anywhere ih
  | relative _ ih => exact .relative ih
  | filter _ ih => exact .filter ih
  | @bare ts _ _ ih => exact List.append_nil ts ▸ .filtered ih .noPredicates
  | filtered _ _ _ ihprimary ihpredicates => exact .filtered ihprimary ihpredicates
  | filterPath _ _ _ ihprimary ihpredicates ihsteps =>
    exact .filterPath ihprimary ihpredicates ihsteps
  | filterAnywhere _ _ _ ihprimary ihpredicates ihsteps =>
    exact .filterAnywhere ihprimary ihpredicates ihsteps
  | group _ ih => exact .group ih
  | literal text => exact .literal text
  | number value => exact .number value
  | function _ ih => exact .function ih
  | noArguments function _ => exact .noArguments function
  | call function _ _ ih => exact .call function ih
  | lastArgument _ ih => exact .lastArgument ih
  | argument _ _ ihfirst ihothers => exact .argument ihfirst ihothers
  | noPredicates => exact .noPredicates
  | predicate _ _ ihfirst ihothers => exact .predicate ihfirst ihothers
  | lastStep _ ih => exact .lastStep ih
  | slash _ _ ihfirst ihothers => exact .slash ihfirst ihothers
  | doubleSlash _ _ ihfirst ihothers => exact .doubleSlash ihfirst ihothers
  | self => exact .self
  | parent => exact .parent
  | step haxis htest _ ih => exact .step haxis htest ih

/-! ## Functions exchanged -/

/-- Two tokens are the same, or each is a call of a known function. -/
inductive Token.Like : Token → Token → Prop where
  | same (token : Token) : Like token token
  | function (f g : Function) : Like (.function f.name) (.function g.name)

/-- Two lists of tokens are the same apart from the functions that are called. -/
@[reducible] def Alike : List Token → List Token → Prop := List.Forall₂ Token.Like

theorem alike_refl (ts : List Token) : Alike ts ts :=
  List.forall₂_same.2 fun token _ => .same token

theorem alike_append {ts ts' us us' : List Token} (h : Alike ts ts') (h' : Alike us us') :
    Alike (ts ++ us) (ts' ++ us') :=
  List.rel_append h h'

/-- A phrase with the tokens before it that belong to it: a call is a primary expression with the
name of the function. -/
def Phrase.carrier : Phrase → Phrase
  | call _ => primary
  | p => p

/-- Some function takes any given number of arguments. -/
theorem Function.exists_admits (count : Nat) :
    ∃ function : Function, function.arity.admits count = true := by
  match count with
  | 0 => exact ⟨.last, rfl⟩
  | 1 => exact ⟨.count, rfl⟩
  | count + 2 => exact ⟨.concat, by simp [arity, Arity.admits]⟩

/-- With other functions a phrase with any number of arguments is in the grammar. -/
theorem Formed.exists_derives {p : Phrase} {ts : List Token} (h : Formed p ts) :
    ∃ us, Alike (p.announced ts) us ∧ ∃ r, Derives p.carrier us r := by
  induction h with
  | expr _ ih =>
    obtain ⟨us, hus, r, hr⟩ := ih
    exact ⟨us, hus, r, .expr hr⟩
  | single _ ih =>
    obtain ⟨us, hus, r, hr⟩ := ih
    exact ⟨us, hus, r, .single hr⟩
  | binary _ hop _ ihleft ihright =>
    obtain ⟨us, hus, left, hleft⟩ := ihleft
    obtain ⟨vs, hvs, right, hright⟩ := ihright
    exact ⟨_, alike_append hus (.cons (.same _) hvs), _, .binary hleft hop hright⟩
  | tighter hnext _ ih =>
    obtain ⟨us, hus, r, hr⟩ := ih
    exact ⟨us, hus, r, .tighter hnext hr⟩
  | tightest _ ih =>
    obtain ⟨us, hus, r, hr⟩ := ih
    exact ⟨us, hus, r, .tightest hr⟩
  | negate _ ih =>
    obtain ⟨us, hus, r, hr⟩ := ih
    exact ⟨_, .cons (.same _) hus, _, .negate hr⟩
  | positive _ ih =>
    obtain ⟨us, hus, r, hr⟩ := ih
    exact ⟨us, hus, r, .positive hr⟩
  | member _ ih =>
    obtain ⟨us, hus, r, hr⟩ := ih
    exact ⟨us, hus, r, .member hr⟩
  | union _ _ ihleft ihright =>
    obtain ⟨us, hus, left, hleft⟩ := ihleft
    obtain ⟨vs, hvs, right, hright⟩ := ihright
    exact ⟨_, alike_append hus (.cons (.same _) hvs), _, .union hleft hright⟩
  | root => exact ⟨_, alike_refl _, _, .root⟩
  | absolute _ ih =>
    obtain ⟨us, hus, r, hr⟩ := ih
    exact ⟨_, .cons (.same _) hus, _, .absolute hr⟩
  | anywhere _ ih =>
    obtain ⟨us, hus, r, hr⟩ := ih
    exact ⟨_, .cons (.same _) hus, _, .anywhere hr⟩
  | relative _ ih =>
    obtain ⟨us, hus, r, hr⟩ := ih
    exact ⟨us, hus, _, .relative hr⟩
  | filter _ ih =>
    obtain ⟨us, hus, r, hr⟩ := ih
    exact ⟨us, hus, r, .filter hr⟩
  | filtered _ _ ihprimary ihpredicates =>
    obtain ⟨us, hus, primary, hprimary⟩ := ihprimary
    obtain ⟨vs, hvs, predicates, hpredicates⟩ := ihpredicates
    refine ⟨_, alike_append hus hvs, ?_⟩
    by_cases hnone : predicates = []
    · -- without predicates nothing stands behind the primary expression
      subst hnone
      cases hpredicates
      rw [List.append_nil]
      exact ⟨_, .bare hprimary⟩
    · exact ⟨_, .filtered hprimary hpredicates hnone⟩
  | filterPath _ _ _ ihprimary ihpredicates ihsteps =>
    obtain ⟨us, hus, primary, hprimary⟩ := ihprimary
    obtain ⟨vs, hvs, predicates, hpredicates⟩ := ihpredicates
    obtain ⟨ws, hws, steps, hsteps⟩ := ihsteps
    exact ⟨_, alike_append (alike_append hus hvs) (.cons (.same _) hws), _,
      .filterPath hprimary hpredicates hsteps⟩
  | filterAnywhere _ _ _ ihprimary ihpredicates ihsteps =>
    obtain ⟨us, hus, primary, hprimary⟩ := ihprimary
    obtain ⟨vs, hvs, predicates, hpredicates⟩ := ihpredicates
    obtain ⟨ws, hws, steps, hsteps⟩ := ihsteps
    exact ⟨_, alike_append (alike_append hus hvs) (.cons (.same _) hws), _,
      .filterAnywhere hprimary hpredicates hsteps⟩
  | group _ ih =>
    obtain ⟨us, hus, r, hr⟩ := ih
    exact ⟨_, alike_append (.cons (.same _) hus) (alike_refl _), _, .group hr⟩
  | literal text => exact ⟨_, alike_refl _, _, .literal text⟩
  | number value => exact ⟨_, alike_refl _, _, .number value⟩
  | function _ ih => exact ih
  | noArguments function =>
    have hlast : Derives (.call Function.last.name) [.leftParen, .rightParen] _ :=
      .noArguments .last rfl
    exact ⟨_, .cons (.function function .last) (alike_refl _), _, .function hlast⟩
  | call function _ ih =>
    obtain ⟨us, hus, arguments, harguments⟩ := ih
    obtain ⟨taking, htaking⟩ := Function.exists_admits arguments.length
    exact ⟨_, .cons (.function function taking) (.cons (.same _) hus), _,
      .function (.call taking harguments htaking)⟩
  | lastArgument _ ih =>
    obtain ⟨us, hus, r, hr⟩ := ih
    exact ⟨_, alike_append hus (alike_refl _), _, .lastArgument hr⟩
  | argument _ _ ihfirst ihothers =>
    obtain ⟨us, hus, first, hfirst⟩ := ihfirst
    obtain ⟨vs, hvs, others, hothers⟩ := ihothers
    exact ⟨_, alike_append hus (.cons (.same _) hvs), _, .argument hfirst hothers⟩
  | noPredicates => exact ⟨_, alike_refl _, _, .noPredicates⟩
  | predicate _ _ ihfirst ihothers =>
    obtain ⟨us, hus, first, hfirst⟩ := ihfirst
    obtain ⟨vs, hvs, others, hothers⟩ := ihothers
    exact ⟨_, alike_append (.cons (.same _) hus) (.cons (.same _) hvs), _,
      .predicate hfirst hothers⟩
  | lastStep _ ih =>
    obtain ⟨us, hus, r, hr⟩ := ih
    exact ⟨us, hus, _, .lastStep hr⟩
  | slash _ _ ihfirst ihothers =>
    obtain ⟨us, hus, first, hfirst⟩ := ihfirst
    obtain ⟨vs, hvs, others, hothers⟩ := ihothers
    exact ⟨_, alike_append hus (.cons (.same _) hvs), _, .slash hfirst hothers⟩
  | doubleSlash _ _ ihfirst ihothers =>
    obtain ⟨us, hus, first, hfirst⟩ := ihfirst
    obtain ⟨vs, hvs, others, hothers⟩ := ihothers
    exact ⟨_, alike_append hus (.cons (.same _) hvs), _, .doubleSlash hfirst hothers⟩
  | self => exact ⟨_, alike_refl _, _, .self⟩
  | parent => exact ⟨_, alike_refl _, _, .parent⟩
  | step haxis htest _ ih =>
    obtain ⟨us, hus, predicates, hpredicates⟩ := ih
    exact ⟨_, alike_append (alike_refl _) hus, _, .step haxis htest hpredicates⟩

end MarkupQuery.XPath
