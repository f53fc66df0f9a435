import MarkupQuery.XPath.Parser

/-!
# The grammar of path expressions

Which lists of tokens are which expressions, said without the parser.  `Derives p ts r` holds when
the tokens `ts` form a phrase of the kind `p` that stands for `r`.  Binary operators and unions
group to the left, minus signs to the right, and the six levels of operators hold one another from
the loosest to the tightest.
-/

namespace MarkupQuery.XPath

/-- The operators of each level. -/
inductive Level.Operator : Level → Token → BinaryOp → Prop where
  | or : Operator .or .or .or
  | and : Operator .and .and .and
  | equal : Operator .equality .equal (.relation .equal)
  | notEqual : Operator .equality .notEqual (.relation .notEqual)
  | less : Operator .relational .less (.relation .less)
  | lessEqual : Operator .relational .lessEqual (.relation .lessEqual)
  | greater : Operator .relational .greater (.relation .greater)
  | greaterEqual : Operator .relational .greaterEqual (.relation .greaterEqual)
  | plus : Operator .additive .plus (.arithmetic .add)
  | minus : Operator .additive .minus (.arithmetic .subtract)
  | multiply : Operator .multiplicative .multiply (.arithmetic .multiply)
  | div : Operator .multiplicative .div (.arithmetic .div)
  | mod : Operator .multiplicative .mod (.arithmetic .mod)

/-- The level that binds next to a level and tighter. -/
inductive Level.Next : Level → Level → Prop where
  | or : Next .or .and
  | and : Next .and .equality
  | equality : Next .equality .relational
  | relational : Next .relational .additive
  | additive : Next .additive .multiplicative

/-- The axis in front of a node test: nothing for the child axis, the short form of the attribute
axis, or the name of one of the twelve axes. -/
inductive AxisTokens : List Token → Axis → Prop where
  | child : AxisTokens [] .child
  | short : AxisTokens [.atSign] .attribute
  | named (axis : Axis) : AxisTokens [.axis axis.name, .colonColon] axis

/-- A node test. -/
inductive TestTokens : List Token → NodeTest → Prop where
  | anyName : TestTokens [.wildcard] .anyName
  | name (name : String) : TestTokens [.name name] (.name name)
  | node : TestTokens [.nodeType .node, .leftParen, .rightParen] .node
  | text : TestTokens [.nodeType .text, .leftParen, .rightParen] .text
  | comment : TestTokens [.nodeType .comment, .leftParen, .rightParen] .comment
  | instruction :
      TestTokens [.nodeType .instruction, .leftParen, .rightParen] (.instruction none)
  | target (target : String) :
      TestTokens [.nodeType .instruction, .leftParen, .literal target, .rightParen]
        (.instruction (some target))

/-- The kinds of phrase. -/
inductive Phrase where
  | expr
  /-- Operands of a level with operators of the level between them. -/
  | level (level : Level)
  | operand (level : Level)
  | unary
  | union
  | path
  /-- A primary expression with the predicates and the relative path behind it. -/
  | filter
  | primary
  /-- The arguments of a call in their parentheses. -/
  | call (name : String)
  /-- One argument or more, and the parenthesis that closes them. -/
  | arguments
  | predicates
  /-- A relative path. -/
  | steps
  | step

/-- What a kind of phrase stands for. -/
@[reducible] def Phrase.Result : Phrase → Type
  | arguments | predicates => List Expr
  | steps => List Step
  | step => Step
  | _ => Expr

/-- The tokens of a phrase and what they stand for. -/
inductive Derives : (p : Phrase) → List Token → p.Result → Prop where
  | expr {ts e} (h : Derives (.level .or) ts e) : Derives .expr ts e
  | single {level ts e} (h : Derives (.operand level) ts e) : Derives (.level level) ts e
  | binary {level ts us token op left right} (hleft : Derives (.level level) ts left)
      (hop : Level.Operator level token op) (hright : Derives (.operand level) us right) :
      Derives (.level level) (ts ++ token :: us) (.binary op left right)
  | tighter {level tighter ts e} (hnext : Level.Next level tighter)
      (h : Derives (.level tighter) ts e) : Derives (.operand level) ts e
  | tightest {ts e} (h : Derives .unary ts e) : Derives (.operand .multiplicative) ts e
  | negate {ts e} (h : Derives .unary ts e) : Derives .unary (.minus :: ts) (.negate e)
  | positive {ts e} (h : Derives .union ts e) : Derives .unary ts e
  | member {ts e} (h : Derives .path ts e) : Derives .union ts e
  | union {ts us left right} (hleft : Derives .union ts left) (hright : Derives .path us right) :
      Derives .union (ts ++ .pipe :: us) (.union left right)
  | root : Derives .path [.slash] (.path true [])
  | absolute {ts steps} (h : Derives .steps ts steps) :
      Derives .path (.slash :: ts) (.path true steps)
  | anywhere {ts steps} (h : Derives .steps ts steps) :
      Derives .path (.doubleSlash :: ts) (.path true (.anywhere :: steps))
  | relative {ts steps} (h : Derives .steps ts steps) : Derives .path ts (.path false steps)
  | filter {ts e} (h : Derives .filter ts e) : Derives .path ts e
  | bare {ts e} (h : Derives .primary ts e) : Derives .filter ts e
  | filtered {ts us e predicates} (hprimary : Derives .primary ts e)
      (hpredicates : Derives .predicates us predicates) (hne : predicates ≠ []) :
      Derives .filter (ts ++ us) (.filter e predicates [])
  | filterPath {ts us vs e predicates steps} (hprimary : Derives .primary ts e)
      (hpredicates : Derives .predicates us predicates) (hsteps : Derives .steps vs steps) :
      Derives .filter (ts ++ us ++ .slash :: vs) (.filter e predicates steps)
  | filterAnywhere {ts us vs e predicates steps} (hprimary : Derives .primary ts e)
      (hpredicates : Derives .predicates us predicates) (hsteps : Derives .steps vs steps) :
      Derives .filter (ts ++ us ++ .doubleSlash :: vs) (.filter e predicates (.anywhere :: steps))
  | group {ts e} (h : Derives .expr ts e) :
      Derives .primary (.leftParen :: ts ++ [.rightParen]) e
  | literal (text : String) : Derives .primary [.literal text] (.literal text)
  | number (value : Float) : Derives .primary [.number value] (.number value)
  | function {name ts e} (h : Derives (.call name) ts e) :
      Derives .primary (.function name :: ts) e
  | noArguments (function : Function) (harity : function.arity.admits 0 = true) :
      Derives (.call function.name) [.leftParen, .rightParen] (.call function [])
  | call {ts arguments} (function : Function) (h : Derives .arguments ts arguments)
      (harity : function.arity.admits arguments.length = true) :
      Derives (.call function.name) (.leftParen :: ts) (.call function arguments)
  | lastArgument {ts e} (h : Derives .expr ts e) : Derives .arguments (ts ++ [.rightParen]) [e]
  | argument {ts us e arguments} (hfirst : Derives .expr ts e)
      (hothers : Derives .arguments us arguments) :
      Derives .arguments (ts ++ .comma :: us) (e :: arguments)
  | noPredicates : Derives .predicates [] []
  | predicate {ts us e predicates} (hfirst : Derives .expr ts e)
      (hothers : Derives .predicates us predicates) :
      Derives .predicates (.leftBracket :: ts ++ .rightBracket :: us) (e :: predicates)
  | lastStep {ts s} (h : Derives .step ts s) : Derives .steps ts [s]
  | slash {ts us s steps} (hfirst : Derives .step ts s) (hothers : Derives .steps us steps) :
      Derives .steps (ts ++ .slash :: us) (s :: steps)
  | doubleSlash {ts us s steps} (hfirst : Derives .step ts s)
      (hothers : Derives .steps us steps) :
      Derives .steps (ts ++ .doubleSlash :: us) (s :: .anywhere :: steps)
  | self : Derives .step [.dot] (.mk .self .node [])
  | parent : Derives .step [.dotDot] (.mk .parent .node [])
  | step {as ts us axis test predicates} (haxis : AxisTokens as axis) (htest : TestTokens ts test)
      (hpredicates : Derives .predicates us predicates) :
      Derives .step (as ++ ts ++ us) (.mk axis test predicates)

/-! ## Tables of the parser -/

theorem operator?_eq_some_iff {level : Level} {token : Token} {op : BinaryOp} :
    level.operator? token = some op ↔ Level.Operator level token op := by
  constructor
  · intro h
    cases level <;> cases token <;>
      simp only [Level.operator?, Option.some.injEq, reduceCtorEq] at h
    all_goals subst h; constructor
  · rintro ⟨⟩ <;> rfl

theorem Level.next?_eq_some_iff {level tighter : Level} :
    level.next? = some tighter ↔ Level.Next level tighter := by
  constructor
  · intro h
    cases level <;> cases h <;> constructor
  · intro h
    cases h <;> rfl

theorem Level.next?_eq_none_iff {level : Level} : level.next? = none ↔ level = .multiplicative := by
  cases level <;> simp [Level.next?]

theorem Axis.name_eq_of_ofName? {name : String} {axis : Axis} (h : Axis.ofName? name = some axis) :
    axis.name = name := by
  simpa using List.find?_some h

theorem Function.name_eq_of_ofName? {name : String} {function : Function}
    (h : Function.ofName? name = some function) : function.name = name := by
  simpa using List.find?_some h

end MarkupQuery.XPath
