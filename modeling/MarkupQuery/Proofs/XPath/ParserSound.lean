import MarkupQuery.Proofs.Outcome
import MarkupQuery.Proofs.XPath.Grammar

/-!
# What the parser reads is in the grammar

The functions of the parser are gathered into one, `Phrase.parse`, so that one statement covers
them all: the tokens between what a function is given and what it leaves are a phrase of its kind.
The two loops, over operators and over members of a union, extend the phrase that they are given.
-/

namespace MarkupQuery.XPath

/-- The function of the parser for a kind of phrase. -/
def Phrase.parse (fuel : Nat) : (p : Phrase) → List Token → Except Failure (p.Result × List Token)
  | expr => parseExpr fuel
  | level l => parseLevel fuel l
  | operand l => parseOperand fuel l
  | unary => parseUnary fuel
  | union => fun tokens => do
    let (left, rest) ← parsePath fuel tokens
    parseUnion fuel left rest
  | path => parsePath fuel
  | filter => parseFilter fuel
  | primary => parsePrimary fuel
  | call name => parseCall fuel name
  | arguments => parseArguments fuel
  | predicates => parsePredicates fuel
  | steps => parseSteps fuel
  | step => parseStep fuel

/-- What a reading of a phrase has to give: a phrase of the kind in front of what is left. -/
def Phrase.Sound (p : Phrase)
    (parse : List Token → Except Failure (p.Result × List Token)) : Prop :=
  ∀ tokens r rest, parse tokens = .ok (r, rest) → ∃ ts, tokens = ts ++ rest ∧ Derives p ts r

/-- What a loop has to give that goes on behind a phrase: a longer phrase of the same kind. -/
def Extends (p : Phrase) (left : p.Result)
    (parse : List Token → Except Failure (p.Result × List Token)) : Prop :=
  ∀ tokens r rest, parse tokens = .ok (r, rest) →
    ∃ us, tokens = us ++ rest ∧ ∀ ts, Derives p ts left → Derives p (ts ++ us) r

/-- All functions of the parser are sound at a bound on the recursion. -/
structure SoundAt (fuel : Nat) : Prop where
  phrase (p : Phrase) : p.Sound (p.parse fuel)
  operators (level : Level) (left : Expr) :
    Extends (.level level) left (parseOperators fuel level left)
  members (left : Expr) : Extends .union left (parseUnion fuel left)

/-! ## Node tests and axes -/

theorem testTokens_of_parseNodeType {type : NodeType} {tokens rest : List Token} {test : NodeTest}
    (h : parseNodeType type tokens = .ok (test, rest)) :
    ∃ ts, .nodeType type :: .leftParen :: tokens = ts ++ rest ∧ TestTokens ts test := by
  unfold parseNodeType at h
  split at h
  rename_i test' tokens' htest
  split at h
  · cases h
    split at htest <;> cases htest
    · exact ⟨_, rfl, .node⟩
    · exact ⟨_, rfl, .text⟩
    · exact ⟨_, rfl, .comment⟩
    · exact ⟨_, rfl, .target _⟩
    · exact ⟨_, rfl, .instruction⟩
  · cases h

theorem testTokens_of_parseNodeTest {tokens rest : List Token} {test : NodeTest}
    (h : parseNodeTest tokens = .ok (test, rest)) :
    ∃ ts, tokens = ts ++ rest ∧ TestTokens ts test := by
  unfold parseNodeTest at h
  split at h
  · cases h
    exact ⟨_, rfl, .anyName⟩
  · cases h
    exact ⟨_, rfl, .name _⟩
  · exact testTokens_of_parseNodeType h
  · cases h
  · cases h

theorem axisTokens_of_parseAxis {tokens rest : List Token} {axis : Axis}
    (h : parseAxis tokens = .ok (axis, rest)) :
    ∃ ts, tokens = ts ++ rest ∧ AxisTokens ts axis := by
  unfold parseAxis at h
  split at h
  · cases h
    exact ⟨_, rfl, .short⟩
  · split at h
    · split at h <;> cases h
    · rename_i haxis
      split at h
      · cases h
        obtain rfl := Axis.name_eq_of_ofName? haxis
        exact ⟨_, rfl, .named _⟩
      · cases h
  · cases h
    exact ⟨[], rfl, .child⟩

/-! ## One function after another

Each function is sound if those that it calls are, which have a smaller bound on the recursion. -/

namespace SoundAt

variable {fuel : Nat}

theorem expr (ih : SoundAt fuel) : Phrase.expr.Sound (parseExpr (fuel + 1)) := by
  intro tokens e rest h
  obtain ⟨ts, rfl, hts⟩ := ih.phrase (.level .or) _ _ _ h
  exact ⟨ts, rfl, .expr hts⟩

theorem level (ih : SoundAt fuel) (l : Level) :
    (Phrase.level l).Sound (parseLevel (fuel + 1) l) := by
  intro tokens e rest h
  simp only [parseLevel, bind_eq_ok, Prod.exists] at h
  obtain ⟨left, rest', hleft, hops⟩ := h
  obtain ⟨ts, rfl, hts⟩ := ih.phrase (.operand l) _ _ _ hleft
  obtain ⟨us, rfl, hus⟩ := ih.operators l left _ _ _ hops
  exact ⟨ts ++ us, by simp, hus ts (.single hts)⟩

theorem operand (ih : SoundAt fuel) (l : Level) :
    (Phrase.operand l).Sound (parseOperand (fuel + 1) l) := by
  intro tokens e rest h
  simp only [parseOperand] at h
  split at h
  · rename_i tighter hnext
    obtain ⟨ts, rfl, hts⟩ := ih.phrase (.level tighter) _ _ _ h
    exact ⟨ts, rfl, .tighter (Level.next?_eq_some_iff.1 hnext) hts⟩
  · rename_i hnext
    obtain ⟨ts, rfl, hts⟩ := ih.phrase .unary _ _ _ h
    rw [Level.next?_eq_none_iff.1 hnext]
    exact ⟨ts, rfl, .tightest hts⟩

theorem operators_succ (ih : SoundAt fuel) (l : Level) (left : Expr) :
    Extends (.level l) left (parseOperators (fuel + 1) l left) := by
  intro tokens e rest h
  simp only [parseOperators] at h
  split at h
  · cases h
    exact ⟨[], rfl, fun ts hts => by simpa using hts⟩
  · rename_i token tokens
    split at h
    · cases h
      exact ⟨[], rfl, fun ts hts => by simpa using hts⟩
    · rename_i op hop
      simp only [bind_eq_ok, Prod.exists] at h
      obtain ⟨right, rest', hright, hops⟩ := h
      obtain ⟨us, rfl, hus⟩ := ih.phrase (.operand l) _ _ _ hright
      obtain ⟨vs, rfl, hvs⟩ := ih.operators l _ _ _ _ hops
      refine ⟨token :: us ++ vs, by simp, fun ts hts => ?_⟩
      have hbinary := Derives.binary hts (operator?_eq_some_iff.1 hop) hus
      simpa using hvs _ hbinary

theorem unary (ih : SoundAt fuel) : Phrase.unary.Sound (parseUnary (fuel + 1)) := by
  intro tokens e rest h
  simp only [parseUnary] at h
  split at h
  · simp only [bind_eq_ok, pure_eq_ok, Prod.exists, Prod.mk.injEq] at h
    obtain ⟨operand, rest', hoperand, rfl, rfl⟩ := h
    obtain ⟨ts, rfl, hts⟩ := ih.phrase .unary _ _ _ hoperand
    exact ⟨.minus :: ts, rfl, .negate hts⟩
  · obtain ⟨ts, rfl, hts⟩ := ih.phrase .union _ _ _ h
    exact ⟨ts, rfl, .positive hts⟩

theorem members_succ (ih : SoundAt fuel) (left : Expr) :
    Extends .union left (parseUnion (fuel + 1) left) := by
  intro tokens e rest h
  simp only [parseUnion] at h
  split at h
  · simp only [bind_eq_ok, Prod.exists] at h
    obtain ⟨right, rest', hright, hmembers⟩ := h
    obtain ⟨us, rfl, hus⟩ := ih.phrase .path _ _ _ hright
    obtain ⟨vs, rfl, hvs⟩ := ih.members _ _ _ _ hmembers
    refine ⟨.pipe :: us ++ vs, by simp, fun ts hts => ?_⟩
    simpa using hvs _ (.union hts hus)
  · cases h
    exact ⟨[], rfl, fun ts hts => by simpa using hts⟩

theorem path (ih : SoundAt fuel) : Phrase.path.Sound (parsePath (fuel + 1)) := by
  intro tokens e rest h
  have filter (h : parseFilter fuel tokens = .ok (e, rest)) :
      ∃ ts, tokens = ts ++ rest ∧ Derives .path ts e := by
    obtain ⟨ts, rfl, hts⟩ := ih.phrase .filter _ _ _ h
    exact ⟨ts, rfl, .filter hts⟩
  simp only [parsePath] at h
  split at h
  · cases h
  · rename_i token tokens
    split at h
    iterate 5 exact filter h
    · split at h
      · simp only [bind_eq_ok, pure_eq_ok, Prod.exists, Prod.mk.injEq] at h
        obtain ⟨steps, rest', hsteps, rfl, rfl⟩ := h
        obtain ⟨ts, rfl, hts⟩ := ih.phrase .steps _ _ _ hsteps
        exact ⟨.slash :: ts, rfl, .absolute hts⟩
      · cases h
        exact ⟨[.slash], rfl, .root⟩
    · simp only [bind_eq_ok, pure_eq_ok, Prod.exists, Prod.mk.injEq] at h
      obtain ⟨steps, rest', hsteps, rfl, rfl⟩ := h
      obtain ⟨ts, rfl, hts⟩ := ih.phrase .steps _ _ _ hsteps
      exact ⟨.doubleSlash :: ts, rfl, .anywhere hts⟩
    · split at h
      · simp only [bind_eq_ok, pure_eq_ok, Prod.exists, Prod.mk.injEq] at h
        obtain ⟨steps, rest', hsteps, rfl, rfl⟩ := h
        obtain ⟨ts, hts', hts⟩ := ih.phrase .steps _ _ _ hsteps
        exact ⟨ts, hts', .relative hts⟩
      · cases h

theorem filter (ih : SoundAt fuel) : Phrase.filter.Sound (parseFilter (fuel + 1)) := by
  intro tokens e rest h
  simp only [parseFilter, bind_eq_ok, Prod.exists] at h
  obtain ⟨primary, rest₁, hprimary, predicates, rest₂, hpredicates, h⟩ := h
  obtain ⟨ts, rfl, hts⟩ := ih.phrase .primary _ _ _ hprimary
  obtain ⟨us, rfl, hus⟩ := ih.phrase .predicates _ _ _ hpredicates
  split at h
  · simp only [bind_eq_ok, pure_eq_ok, Prod.exists, Prod.mk.injEq] at h
    obtain ⟨steps, rest', hsteps, rfl, rfl⟩ := h
    obtain ⟨vs, rfl, hvs⟩ := ih.phrase .steps _ _ _ hsteps
    exact ⟨ts ++ us ++ .slash :: vs, by simp, .filterPath hts hus hvs⟩
  · simp only [bind_eq_ok, pure_eq_ok, Prod.exists, Prod.mk.injEq] at h
    obtain ⟨steps, rest', hsteps, rfl, rfl⟩ := h
    obtain ⟨vs, rfl, hvs⟩ := ih.phrase .steps _ _ _ hsteps
    exact ⟨ts ++ us ++ .doubleSlash :: vs, by simp, .filterAnywhere hts hus hvs⟩
  · simp only [pure_eq_ok, Prod.mk.injEq] at h
    obtain ⟨rfl, rfl⟩ := h
    cases predicates with
    | nil =>
      -- without predicates nothing was read behind the primary expression
      cases hus
      exact ⟨ts, by simp, .bare hts⟩
    | cons first others =>
      exact ⟨ts ++ us, by simp, .filtered hts hus (by simp)⟩

theorem primary (ih : SoundAt fuel) : Phrase.primary.Sound (parsePrimary (fuel + 1)) := by
  intro tokens e rest h
  simp only [parsePrimary] at h
  split at h
  · simp only [bind_eq_ok, Prod.exists] at h
    obtain ⟨inner, rest', hinner, h⟩ := h
    obtain ⟨ts, rfl, hts⟩ := ih.phrase .expr _ _ _ hinner
    split at h
    · simp only [pure_eq_ok, Prod.mk.injEq] at h
      obtain ⟨rfl, rfl⟩ := h
      exact ⟨.leftParen :: ts ++ [Token.rightParen], by simp, .group hts⟩
    · cases h
  · cases h
    exact ⟨_, rfl, .literal _⟩
  · cases h
    exact ⟨_, rfl, .number _⟩
  · rename_i name tokens
    obtain ⟨ts, rfl, hts⟩ := ih.phrase (.call name) _ _ _ h
    exact ⟨.function name :: ts, rfl, .function hts⟩
  all_goals cases h

theorem call (ih : SoundAt fuel) (name : String) :
    (Phrase.call name).Sound (parseCall (fuel + 1) name) := by
  intro tokens e rest h
  simp only [parseCall] at h
  split at h
  · cases h
  · rename_i function hfunction
    obtain rfl := Function.name_eq_of_ofName? hfunction
    split at h
    · rename_i tokens
      split at h
      · simp only [pure_bind] at h
        split at h
        · rename_i harity
          cases h
          exact ⟨_, rfl, .noArguments function harity⟩
        · cases h
      · simp only [bind_eq_ok, Prod.exists] at h
        obtain ⟨arguments, rest', harguments, h⟩ := h
        obtain ⟨ts, rfl, hts⟩ := ih.phrase .arguments _ _ _ harguments
        split at h
        · rename_i harity
          cases h
          exact ⟨.leftParen :: ts, rfl, .call function hts harity⟩
        · cases h
    · cases h

theorem arguments (ih : SoundAt fuel) : Phrase.arguments.Sound (parseArguments (fuel + 1)) := by
  intro tokens es rest h
  simp only [parseArguments, bind_eq_ok, Prod.exists] at h
  obtain ⟨first, rest', hfirst, h⟩ := h
  obtain ⟨ts, rfl, hts⟩ := ih.phrase .expr _ _ _ hfirst
  split at h
  · simp only [bind_eq_ok, pure_eq_ok, Prod.exists, Prod.mk.injEq] at h
    obtain ⟨others, rest', hothers, rfl, rfl⟩ := h
    obtain ⟨us, rfl, hus⟩ := ih.phrase .arguments _ _ _ hothers
    exact ⟨ts ++ .comma :: us, by simp, .argument hts hus⟩
  · simp only [pure_eq_ok, Prod.mk.injEq] at h
    obtain ⟨rfl, rfl⟩ := h
    exact ⟨ts ++ [Token.rightParen], by simp, .lastArgument hts⟩
  · cases h

theorem predicates (ih : SoundAt fuel) :
    Phrase.predicates.Sound (parsePredicates (fuel + 1)) := by
  intro tokens es rest h
  simp only [parsePredicates] at h
  split at h
  · simp only [bind_eq_ok, Prod.exists] at h
    obtain ⟨first, rest', hfirst, h⟩ := h
    obtain ⟨ts, rfl, hts⟩ := ih.phrase .expr _ _ _ hfirst
    split at h
    · simp only [bind_eq_ok, pure_eq_ok, Prod.exists, Prod.mk.injEq] at h
      obtain ⟨others, rest', hothers, rfl, rfl⟩ := h
      obtain ⟨us, rfl, hus⟩ := ih.phrase .predicates _ _ _ hothers
      exact ⟨.leftBracket :: ts ++ .rightBracket :: us, by simp, .predicate hts hus⟩
    · cases h
  · cases h
    exact ⟨[], rfl, .noPredicates⟩

theorem steps (ih : SoundAt fuel) : Phrase.steps.Sound (parseSteps (fuel + 1)) := by
  intro tokens steps rest h
  simp only [parseSteps, bind_eq_ok, Prod.exists] at h
  obtain ⟨first, rest', hfirst, h⟩ := h
  obtain ⟨ts, rfl, hts⟩ := ih.phrase .step _ _ _ hfirst
  split at h
  · simp only [bind_eq_ok, pure_eq_ok, Prod.exists, Prod.mk.injEq] at h
    obtain ⟨others, rest', hothers, rfl, rfl⟩ := h
    obtain ⟨us, rfl, hus⟩ := ih.phrase .steps _ _ _ hothers
    exact ⟨ts ++ .slash :: us, by simp, .slash hts hus⟩
  · simp only [bind_eq_ok, pure_eq_ok, Prod.exists, Prod.mk.injEq] at h
    obtain ⟨others, rest', hothers, rfl, rfl⟩ := h
    obtain ⟨us, rfl, hus⟩ := ih.phrase .steps _ _ _ hothers
    exact ⟨ts ++ .doubleSlash :: us, by simp, .doubleSlash hts hus⟩
  · simp only [pure_eq_ok, Prod.mk.injEq] at h
    obtain ⟨rfl, rfl⟩ := h
    exact ⟨ts, rfl, .lastStep hts⟩

theorem step (ih : SoundAt fuel) : Phrase.step.Sound (parseStep (fuel + 1)) := by
  intro tokens step rest h
  simp only [parseStep] at h
  split at h
  · cases h
    exact ⟨_, rfl, .self⟩
  · cases h
    exact ⟨_, rfl, .parent⟩
  · simp only [bind_eq_ok, pure_eq_ok, Prod.exists, Prod.mk.injEq] at h
    obtain ⟨axis, rest₁, haxis, test, rest₂, htest, predicates, rest₃, hpredicates, rfl, rfl⟩ := h
    obtain ⟨as, rfl, has⟩ := axisTokens_of_parseAxis haxis
    obtain ⟨ts, rfl, hts⟩ := testTokens_of_parseNodeTest htest
    obtain ⟨us, rfl, hus⟩ := ih.phrase .predicates _ _ _ hpredicates
    exact ⟨as ++ ts ++ us, by simp, .step has hts hus⟩

theorem union {fuel : Nat} (hpath : Phrase.path.Sound (parsePath fuel))
    (hmembers : ∀ left, Extends .union left (parseUnion fuel left)) :
    Phrase.union.Sound (Phrase.union.parse fuel) := by
  intro tokens e rest h
  simp only [Phrase.parse, bind_eq_ok, Prod.exists] at h
  obtain ⟨left, rest', hleft, h⟩ := h
  obtain ⟨ts, rfl, hts⟩ := hpath _ _ _ hleft
  obtain ⟨us, rfl, hus⟩ := hmembers left _ _ _ h
  exact ⟨ts ++ us, by simp, hus ts (.member hts)⟩

end SoundAt

theorem soundAt (fuel : Nat) : SoundAt fuel := by
  induction fuel with
  | zero =>
    refine ⟨fun p tokens r rest h => ?_, fun _ _ _ _ _ h => ?_, fun _ _ _ _ h => ?_⟩
    · cases p <;> cases h
    · cases h
    · cases h
  | succ fuel ih =>
    refine ⟨fun p => ?_, ih.operators_succ, ih.members_succ⟩
    cases p with
    | expr => exact ih.expr
    | level l => exact ih.level l
    | operand l => exact ih.operand l
    | unary => exact ih.unary
    | union => exact SoundAt.union ih.path ih.members_succ
    | path => exact ih.path
    | filter => exact ih.filter
    | primary => exact ih.primary
    | call name => exact ih.call name
    | arguments => exact ih.arguments
    | predicates => exact ih.predicates
    | steps => exact ih.steps
    | step => exact ih.step

theorem derives_of_parseTokens {tokens : List Token} {e : Expr} (h : parseTokens tokens = .ok e) :
    Derives .expr tokens e := by
  simp only [parseTokens, bind_eq_ok, Prod.exists] at h
  obtain ⟨e', rest, hexpr, h⟩ := h
  obtain ⟨ts, rfl, hts⟩ := (soundAt (24 * (tokens.length + 1))).phrase .expr _ _ _ hexpr
  split at h
  · simp only [pure_eq_ok] at h
    subst h
    simpa using hts
  · cases h

end MarkupQuery.XPath
