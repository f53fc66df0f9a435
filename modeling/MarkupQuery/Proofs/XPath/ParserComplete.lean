import MarkupQuery.Proofs.XPath.ParserSound

/-!
# The parser reads the whole grammar

A phrase is read up to its last token when the token behind it cannot go on with it.  Tokens that
can stand behind a phrase are numbered by how tightly they bind: closing tokens, the operators from
the loosest level to the tightest, the bar of a union, slashes, and the opening bracket of a
predicate.  Each kind of phrase has a number, and stops at every token with a smaller one.
-/

namespace MarkupQuery.XPath

/-! ## First tokens -/

/-- The tokens that a step starts with. -/
def Token.opensStep : Token → Bool
  | dot | dotDot | atSign | axis _ | name _ | wildcard | nodeType _ => true
  | _ => false

/-- The tokens that a primary expression starts with. -/
def Token.opensPrimary : Token → Bool
  | leftParen | literal _ | number _ | function _ => true
  | _ => false

/-- The tokens that a location path or a filter expression starts with. -/
def Token.opensPath : Token → Bool
  | slash | doubleSlash => true
  | token => token.opensStep || token.opensPrimary

/-- The tokens that an expression starts with. -/
def Token.opensExpr : Token → Bool
  | minus => true
  | token => token.opensPath

/-- Whether a phrase can start with these tokens.  Only a list of predicates can be empty. -/
def Phrase.Opens : Phrase → List Token → Prop
  | predicates, _ => True
  | step, ts | steps, ts => ∃ token us, ts = token :: us ∧ token.opensStep = true
  | primary, ts | filter, ts => ∃ token us, ts = token :: us ∧ token.opensPrimary = true
  | path, ts | union, ts => ∃ token us, ts = token :: us ∧ token.opensPath = true
  | call _, ts => ∃ us, ts = .leftParen :: us
  | _, ts => ∃ token us, ts = token :: us ∧ token.opensExpr = true

theorem Token.opensPath_of_opensStep {token : Token} (h : token.opensStep = true) :
    token.opensPath = true := by
  cases token <;> simp_all [opensPath]

theorem Token.opensPath_of_opensPrimary {token : Token} (h : token.opensPrimary = true) :
    token.opensPath = true := by
  cases token <;> simp_all [opensPath]

theorem Token.opensExpr_of_opensPath {token : Token} (h : token.opensPath = true) :
    token.opensExpr = true := by
  cases token <;> simp_all [opensExpr]

/-- A phrase starts with a token of its kind. -/
theorem Derives.opens {p : Phrase} {ts : List Token} {r : p.Result} (h : Derives p ts r) :
    p.Opens ts := by
  induction h with
  | expr _ ih => exact ih
  | single _ ih => exact ih
  | binary _ _ _ ih _ =>
    obtain ⟨token, us, rfl, htoken⟩ := ih
    exact ⟨token, _, rfl, htoken⟩
  | tighter _ _ ih => exact ih
  | tightest _ ih => exact ih
  | negate _ _ => exact ⟨.minus, _, rfl, rfl⟩
  | positive _ ih =>
    obtain ⟨token, us, rfl, htoken⟩ := ih
    exact ⟨token, us, rfl, Token.opensExpr_of_opensPath htoken⟩
  | member _ ih => exact ih
  | union _ _ ih _ =>
    obtain ⟨token, us, rfl, htoken⟩ := ih
    exact ⟨token, _, rfl, htoken⟩
  | root => exact ⟨.slash, _, rfl, rfl⟩
  | absolute _ _ => exact ⟨.slash, _, rfl, rfl⟩
  | anywhere _ _ => exact ⟨.doubleSlash, _, rfl, rfl⟩
  | relative _ ih =>
    obtain ⟨token, us, rfl, htoken⟩ := ih
    exact ⟨token, us, rfl, Token.opensPath_of_opensStep htoken⟩
  | filter _ ih =>
    obtain ⟨token, us, rfl, htoken⟩ := ih
    exact ⟨token, us, rfl, Token.opensPath_of_opensPrimary htoken⟩
  | bare _ ih => exact ih
  | filtered _ _ _ ih _ =>
    obtain ⟨token, us, rfl, htoken⟩ := ih
    exact ⟨token, _, rfl, htoken⟩
  | filterPath _ _ _ ih _ _ =>
    obtain ⟨token, us, rfl, htoken⟩ := ih
    exact ⟨token, _, rfl, htoken⟩
  | filterAnywhere _ _ _ ih _ _ =>
    obtain ⟨token, us, rfl, htoken⟩ := ih
    exact ⟨token, _, rfl, htoken⟩
  | group _ _ => exact ⟨.leftParen, _, rfl, rfl⟩
  | literal text => exact ⟨.literal text, _, rfl, rfl⟩
  | number value => exact ⟨.number value, _, rfl, rfl⟩
  | @function name _ _ _ _ => exact ⟨.function name, _, rfl, rfl⟩
  | noArguments _ _ => exact ⟨_, rfl⟩
  | call _ _ _ _ => exact ⟨_, rfl⟩
  | lastArgument _ ih =>
    obtain ⟨token, us, rfl, htoken⟩ := ih
    exact ⟨token, _, rfl, htoken⟩
  | argument _ _ ih _ =>
    obtain ⟨token, us, rfl, htoken⟩ := ih
    exact ⟨token, _, rfl, htoken⟩
  | noPredicates => trivial
  | predicate _ _ _ _ => trivial
  | lastStep _ ih => exact ih
  | slash _ _ ih _ =>
    obtain ⟨token, us, rfl, htoken⟩ := ih
    exact ⟨token, _, rfl, htoken⟩
  | doubleSlash _ _ ih _ =>
    obtain ⟨token, us, rfl, htoken⟩ := ih
    exact ⟨token, _, rfl, htoken⟩
  | self => exact ⟨.dot, _, rfl, rfl⟩
  | parent => exact ⟨.dotDot, _, rfl, rfl⟩
  | step haxis htest _ _ =>
    cases haxis
    · cases htest <;> exact ⟨_, _, rfl, rfl⟩
    · exact ⟨.atSign, _, rfl, rfl⟩
    · exact ⟨.axis _, _, rfl, rfl⟩

/-! ## Tokens behind a phrase -/

/-- The place of a level among the levels, from one for the loosest. -/
@[simp] def Level.tightness : Level → Nat
  | or => 1
  | and => 2
  | equality => 3
  | relational => 4
  | additive => 5
  | multiplicative => 6

/-- How tightly a token binds what stands before it.  The greatest number goes to tokens that
cannot stand behind a phrase. -/
@[simp] def Token.tightness : Token → Nat
  | rightParen | rightBracket | comma => 0
  | or => 1
  | and => 2
  | equal | notEqual => 3
  | less | lessEqual | greater | greaterEqual => 4
  | plus | minus => 5
  | multiply | div | mod => 6
  | pipe => 8
  | slash | doubleSlash => 9
  | leftBracket => 10
  | _ => 11

/-- The number from which on a token behind a phrase would go on with it.  Phrases that end with a
token of their own have the greatest. -/
@[simp] def Phrase.tightness : Phrase → Nat
  | expr => 1
  | level l => l.tightness
  | operand l => l.tightness + 1
  | unary | union => 8
  | path | filter | steps => 9
  | step | predicates => 10
  | primary | call _ | arguments => 12

/-- Whether the tokens behind a phrase are none or start with one that binds less than `n`. -/
def Stops (n : Nat) (rest : List Token) : Prop :=
  ∀ token ∈ rest.head?, token.tightness < n

theorem Stops.mono {m n : Nat} {rest : List Token} (h : Stops m rest) (hle : m ≤ n) :
    Stops n rest := fun token htoken => Nat.lt_of_lt_of_le (h token htoken) hle

theorem stops_nil (n : Nat) : Stops n [] := by
  intro token htoken
  cases htoken

theorem stops_cons {n : Nat} {token : Token} (h : token.tightness < n) (rest : List Token) :
    Stops n (token :: rest) := by
  intro token' htoken
  cases htoken
  exact h

/-- Every token binds less than a phrase that ends with a token of its own. -/
theorem stops_of_closed (rest : List Token) : Stops 12 rest := by
  intro token _
  cases token <;> simp

theorem Level.Operator.tightness_eq {level : Level} {token : Token} {op : BinaryOp}
    (h : Level.Operator level token op) : token.tightness = level.tightness := by
  cases h <;> rfl

theorem Level.Next.tightness_eq {level tighter : Level} (h : Level.Next level tighter) :
    tighter.tightness = level.tightness + 1 := by
  cases h <;> rfl

theorem Level.tightness_le (level : Level) : 1 ≤ level.tightness ∧ level.tightness ≤ 6 := by
  cases level <;> decide

/-! ## What is read of a phrase -/

/-- A bound on the recursion for a phrase, apart from what its tokens need. -/
@[simp] def Phrase.cost : Phrase → Nat
  | expr => 18
  | level l => 19 - 2 * l.tightness
  | operand l => 18 - 2 * l.tightness
  | unary => 5
  | union => 4
  | path => 3
  | filter | steps => 2
  | primary | call _ | arguments | predicates | step => 1

/-- The parser reads the tokens of a phrase and stops behind them. -/
def Phrase.Reads (p : Phrase) (ts : List Token) (r : p.Result) : Prop :=
  ∀ rest fuel, Stops p.tightness rest → p.cost + 24 * ts.length ≤ fuel →
    p.parse fuel (ts ++ rest) = .ok (r, rest)

/-- Reading operands of a level is reading them and going on with the loop behind them, whatever
the loop makes of the rest. -/
def ReadsOperands (l : Level) (ts : List Token) (e : Expr) : Prop :=
  ∀ rest bound out, 0 < bound → Stops (l.tightness + 1) rest →
    (∀ fuel, bound ≤ fuel → parseOperators fuel l e rest = out) →
    ∀ fuel, bound + (Phrase.operand l).cost + 24 * ts.length ≤ fuel →
      parseLevel fuel l (ts ++ rest) = out

/-- Reading members of a union is reading them and going on with the loop behind them. -/
def ReadsMembers (ts : List Token) (e : Expr) : Prop :=
  ∀ rest bound out, 0 < bound → Stops 9 rest →
    (∀ fuel, bound ≤ fuel → parseUnion fuel e rest = out) →
    ∀ fuel, bound + Phrase.path.cost + 24 * ts.length ≤ fuel →
      Phrase.union.parse fuel (ts ++ rest) = out

/-- What the induction over derivations shows of a phrase.  A phrase that groups to the left is read
by a loop, so for these it is said with the loop. -/
def Phrase.Complete : (p : Phrase) → List Token → p.Result → Prop
  | level l, ts, e => ReadsOperands l ts e
  | union, ts, e => ReadsMembers ts e
  | expr, ts, e => Phrase.expr.Reads ts e
  | operand l, ts, e => (Phrase.operand l).Reads ts e
  | unary, ts, e => Phrase.unary.Reads ts e
  | path, ts, e => Phrase.path.Reads ts e
  | filter, ts, e => Phrase.filter.Reads ts e
  | primary, ts, e => Phrase.primary.Reads ts e
  | call name, ts, e => (Phrase.call name).Reads ts e
  | arguments, ts, es => Phrase.arguments.Reads ts es
  | predicates, ts, es => Phrase.predicates.Reads ts es
  | steps, ts, ss => Phrase.steps.Reads ts ss
  | step, ts, s => Phrase.step.Reads ts s

/-! ### Operators -/

theorem parseOperators_of_stops {l : Level} {e : Expr} {rest : List Token}
    (hrest : Stops l.tightness rest) (fuel : Nat) :
    parseOperators (fuel + 1) l e rest = .ok (e, rest) := by
  cases rest with
  | nil => rfl
  | cons token rest =>
    have hnone : l.operator? token = none := by
      cases hop : l.operator? token with
      | none => rfl
      | some op =>
        have heq := (operator?_eq_some_iff.1 hop).tightness_eq
        have hlt := hrest token rfl
        omega
    simp only [parseOperators, hnone]

theorem ReadsOperands.reads {l : Level} {ts : List Token} {e : Expr} (h : ReadsOperands l ts e) :
    (Phrase.level l).Reads ts e := by
  intro rest fuel hrest hfuel
  have hle := l.tightness_le
  refine h rest 1 _ Nat.one_pos (hrest.mono (Nat.le_succ _)) (fun fuel hfuel => ?_) fuel ?_
  · obtain ⟨fuel, rfl⟩ := Nat.exists_eq_succ_of_ne_zero (by omega : fuel ≠ 0)
    exact parseOperators_of_stops hrest fuel
  · simp only [Phrase.cost] at hfuel ⊢
    omega

theorem readsOperands_of_reads {l : Level} {ts : List Token} {e : Expr}
    (h : (Phrase.operand l).Reads ts e) : ReadsOperands l ts e := by
  intro rest bound out hbound hrest hloop fuel hfuel
  have hle := l.tightness_le
  simp only [Phrase.cost] at hfuel
  obtain ⟨fuel, rfl⟩ := Nat.exists_eq_succ_of_ne_zero (by omega : fuel ≠ 0)
  have hoperand : parseOperand fuel l (ts ++ rest) = .ok (e, rest) :=
    h rest fuel hrest (by simp only [Phrase.cost]; omega)
  simp only [parseLevel, hoperand, bind_ok]
  exact hloop fuel (by omega)

theorem ReadsOperands.binary {l : Level} {ts us : List Token} {token : Token} {op : BinaryOp}
    {left right : Expr} (hleft : ReadsOperands l ts left) (hop : Level.Operator l token op)
    (hright : (Phrase.operand l).Reads us right) :
    ReadsOperands l (ts ++ token :: us) (.binary op left right) := by
  intro rest bound out hbound hrest hloop fuel hfuel
  have hle := l.tightness_le
  simp only [List.length_append, List.length_cons, Phrase.cost] at hfuel
  rw [List.append_assoc, List.cons_append]
  -- the loop behind `left` reads the operator and `right`, and goes on as given
  refine hleft (token :: (us ++ rest)) (bound + 24 * us.length + 19) out (by omega)
    (stops_cons (by rw [hop.tightness_eq]; omega) _) (fun fuel hfuel => ?_) fuel
    (by simp only [Phrase.cost]; omega)
  obtain ⟨fuel, rfl⟩ := Nat.exists_eq_succ_of_ne_zero (by omega : fuel ≠ 0)
  have hoperand : parseOperand fuel l (us ++ rest) = .ok (right, rest) :=
    hright rest fuel hrest (by simp only [Phrase.cost]; omega)
  simp only [parseOperators, operator?_eq_some_iff.2 hop, hoperand, bind_ok]
  exact hloop fuel (by omega)

theorem reads_operand_of_level {l tighter : Level} {ts : List Token} {e : Expr}
    (hnext : Level.Next l tighter) (h : (Phrase.level tighter).Reads ts e) :
    (Phrase.operand l).Reads ts e := by
  intro rest fuel hrest hfuel
  have htightness := hnext.tightness_eq
  have hle := tighter.tightness_le
  simp only [Phrase.cost] at hfuel
  obtain ⟨fuel, rfl⟩ := Nat.exists_eq_succ_of_ne_zero (by omega : fuel ≠ 0)
  simp only [Phrase.parse, parseOperand, Level.next?_eq_some_iff.2 hnext]
  exact h rest fuel (by simpa only [Phrase.tightness, htightness] using hrest)
    (by simp only [Phrase.cost]; omega)

theorem reads_operand_of_unary {ts : List Token} {e : Expr} (h : Phrase.unary.Reads ts e) :
    (Phrase.operand .multiplicative).Reads ts e := by
  intro rest fuel hrest hfuel
  have htightness : Level.multiplicative.tightness = 6 := rfl
  simp only [Phrase.cost, htightness] at hfuel
  obtain ⟨fuel, rfl⟩ := Nat.exists_eq_succ_of_ne_zero (by omega : fuel ≠ 0)
  simp only [Phrase.parse, parseOperand, Level.next?_eq_none_iff.2 rfl]
  refine h rest fuel (hrest.mono ?_) (by simp only [Phrase.cost]; omega)
  simp only [Phrase.tightness, htightness]
  omega

/-! ### Minus signs and unions -/

theorem reads_negate {ts : List Token} {e : Expr} (h : Phrase.unary.Reads ts e) :
    Phrase.unary.Reads (.minus :: ts) (.negate e) := by
  intro rest fuel hrest hfuel
  simp only [Phrase.cost, List.length_cons] at hfuel
  obtain ⟨fuel, rfl⟩ := Nat.exists_eq_succ_of_ne_zero (by omega : fuel ≠ 0)
  have hoperand : parseUnary fuel (ts ++ rest) = .ok (e, rest) :=
    h rest fuel hrest (by simp only [Phrase.cost]; omega)
  simp only [Phrase.parse, List.cons_append, parseUnary, hoperand, bind_ok]
  rfl

theorem parseUnion_of_stops {e : Expr} {rest : List Token} (hrest : Stops 8 rest) (fuel : Nat) :
    parseUnion (fuel + 1) e rest = .ok (e, rest) := by
  cases rest with
  | nil => rfl
  | cons token rest =>
    have hlt := hrest token rfl
    cases token <;> simp_all [parseUnion]

theorem ReadsMembers.reads {ts : List Token} {e : Expr} (h : ReadsMembers ts e) :
    Phrase.union.Reads ts e := by
  intro rest fuel hrest hfuel
  refine h rest 1 _ Nat.one_pos (hrest.mono (Nat.le_succ _)) (fun fuel hfuel => ?_) fuel ?_
  · obtain ⟨fuel, rfl⟩ := Nat.exists_eq_succ_of_ne_zero (by omega : fuel ≠ 0)
    exact parseUnion_of_stops hrest fuel
  · simp only [Phrase.cost] at hfuel ⊢
    omega

theorem readsMembers_of_reads {ts : List Token} {e : Expr} (h : Phrase.path.Reads ts e) :
    ReadsMembers ts e := by
  intro rest bound out hbound hrest hloop fuel hfuel
  have hpath : parsePath fuel (ts ++ rest) = .ok (e, rest) := h rest fuel hrest (by omega)
  simp only [Phrase.parse, hpath, bind_ok]
  exact hloop fuel (by omega)

theorem ReadsMembers.union {ts us : List Token} {left right : Expr} (hleft : ReadsMembers ts left)
    (hright : Phrase.path.Reads us right) :
    ReadsMembers (ts ++ .pipe :: us) (.union left right) := by
  intro rest bound out hbound hrest hloop fuel hfuel
  simp only [List.length_append, List.length_cons, Phrase.cost] at hfuel
  rw [List.append_assoc, List.cons_append]
  refine hleft (.pipe :: (us ++ rest)) (bound + 24 * us.length + 4) out (by omega)
    (stops_cons (by decide) _) (fun fuel hfuel => ?_) fuel (by simp only [Phrase.cost]; omega)
  obtain ⟨fuel, rfl⟩ := Nat.exists_eq_succ_of_ne_zero (by omega : fuel ≠ 0)
  have hpath : parsePath fuel (us ++ rest) = .ok (right, rest) :=
    hright rest fuel hrest (by simp only [Phrase.cost]; omega)
  simp only [parseUnion, hpath, bind_ok]
  exact hloop fuel (by omega)

theorem reads_positive {ts : List Token} {e : Expr} (hopens : Phrase.union.Opens ts)
    (h : Phrase.union.Reads ts e) : Phrase.unary.Reads ts e := by
  intro rest fuel hrest hfuel
  simp only [Phrase.cost] at hfuel
  obtain ⟨fuel, rfl⟩ := Nat.exists_eq_succ_of_ne_zero (by omega : fuel ≠ 0)
  have hunion := h rest fuel hrest (by simp only [Phrase.cost]; omega)
  obtain ⟨token, us, rfl, htoken⟩ := hopens
  rw [← hunion]
  cases token <;> first | rfl | cases htoken

/-! ### Paths -/

theorem startsStep_append {ts : List Token} (hopens : Phrase.steps.Opens ts) (rest : List Token) :
    startsStep (ts ++ rest) = true := by
  obtain ⟨token, us, rfl, htoken⟩ := hopens
  cases token <;> simp_all [Token.opensStep, startsStep]

theorem startsStep_of_stops {rest : List Token} (hrest : Stops 9 rest) :
    startsStep rest = false := by
  cases rest with
  | nil => rfl
  | cons token rest =>
    have hlt := hrest token rfl
    cases token <;> simp_all [startsStep]

theorem reads_root : Phrase.path.Reads [.slash] (.path true []) := by
  intro rest fuel hrest hfuel
  simp only [Phrase.cost] at hfuel
  obtain ⟨fuel, rfl⟩ := Nat.exists_eq_succ_of_ne_zero (by omega : fuel ≠ 0)
  simp [Phrase.parse, parsePath, startsStep_of_stops hrest]

theorem reads_absolute {ts : List Token} {steps : List Step} (hopens : Phrase.steps.Opens ts)
    (h : Phrase.steps.Reads ts steps) : Phrase.path.Reads (.slash :: ts) (.path true steps) := by
  intro rest fuel hrest hfuel
  simp only [Phrase.cost, List.length_cons] at hfuel
  obtain ⟨fuel, rfl⟩ := Nat.exists_eq_succ_of_ne_zero (by omega : fuel ≠ 0)
  have hsteps : parseSteps fuel (ts ++ rest) = .ok (steps, rest) :=
    h rest fuel hrest (by simp only [Phrase.cost]; omega)
  simp only [Phrase.parse, List.cons_append, parsePath, startsStep_append hopens, ↓reduceIte,
    hsteps, bind_ok]
  rfl

theorem reads_anywhere {ts : List Token} {steps : List Step} (h : Phrase.steps.Reads ts steps) :
    Phrase.path.Reads (.doubleSlash :: ts) (.path true (.anywhere :: steps)) := by
  intro rest fuel hrest hfuel
  simp only [Phrase.cost, List.length_cons] at hfuel
  obtain ⟨fuel, rfl⟩ := Nat.exists_eq_succ_of_ne_zero (by omega : fuel ≠ 0)
  have hsteps : parseSteps fuel (ts ++ rest) = .ok (steps, rest) :=
    h rest fuel hrest (by simp only [Phrase.cost]; omega)
  simp only [Phrase.parse, List.cons_append, parsePath, hsteps, bind_ok]
  rfl

theorem reads_relative {ts : List Token} {steps : List Step} (hopens : Phrase.steps.Opens ts)
    (h : Phrase.steps.Reads ts steps) : Phrase.path.Reads ts (.path false steps) := by
  intro rest fuel hrest hfuel
  simp only [Phrase.cost] at hfuel
  obtain ⟨fuel, rfl⟩ := Nat.exists_eq_succ_of_ne_zero (by omega : fuel ≠ 0)
  have hsteps : parseSteps fuel (ts ++ rest) = .ok (steps, rest) :=
    h rest fuel hrest (by simp only [Phrase.cost]; omega)
  have hstarts := startsStep_append hopens rest
  obtain ⟨token, us, rfl, htoken⟩ := hopens
  rw [List.cons_append] at hsteps hstarts
  cases token
  all_goals try cases htoken
  all_goals
    simp only [Phrase.parse, List.cons_append, parsePath, hstarts, ↓reduceIte, hsteps, bind_ok]
    rfl

theorem reads_filter {ts : List Token} {e : Expr} (hopens : Phrase.filter.Opens ts)
    (h : Phrase.filter.Reads ts e) : Phrase.path.Reads ts e := by
  intro rest fuel hrest hfuel
  simp only [Phrase.cost] at hfuel
  obtain ⟨fuel, rfl⟩ := Nat.exists_eq_succ_of_ne_zero (by omega : fuel ≠ 0)
  have hfilter := h rest fuel hrest (by simp only [Phrase.cost]; omega)
  obtain ⟨token, us, rfl, htoken⟩ := hopens
  rw [← hfilter]
  cases token <;> first | rfl | cases htoken

/-! ### Filter expressions -/

/-- How the functions for the parts of a filter expression are called. -/
theorem parse_parts {ts us rest : List Token} {e : Expr} {predicates : List Expr} {fuel : Nat}
    (hprimary : Phrase.primary.Reads ts e) (hpredicates : Phrase.predicates.Reads us predicates)
    (hrest : Stops 10 rest) (hfuel : 24 * (ts.length + us.length) < fuel) :
    parsePrimary fuel (ts ++ (us ++ rest)) = .ok (e, us ++ rest) ∧
      parsePredicates fuel (us ++ rest) = .ok (predicates, rest) := by
  constructor
  · exact hprimary (us ++ rest) fuel (stops_of_closed _) (by simp only [Phrase.cost]; omega)
  · exact hpredicates rest fuel hrest (by simp only [Phrase.cost]; omega)

theorem parseFilter_of_stops {ts us rest : List Token} {e : Expr} {predicates : List Expr}
    {fuel : Nat} (hprimary : Phrase.primary.Reads ts e)
    (hpredicates : Phrase.predicates.Reads us predicates) (hrest : Stops 9 rest)
    (hfuel : 24 * (ts.length + us.length) < fuel) :
    parseFilter (fuel + 1) (ts ++ (us ++ rest)) =
      .ok (if predicates.isEmpty then e else .filter e predicates [], rest) := by
  obtain ⟨h₁, h₂⟩ := parse_parts hprimary hpredicates (hrest.mono (by decide)) hfuel
  simp only [parseFilter, h₁, h₂, bind_ok]
  cases rest with
  | nil => rfl
  | cons token rest =>
    have hlt := hrest token rfl
    cases token <;> first | rfl | simp at hlt

theorem reads_bare {ts : List Token} {e : Expr} (hprimary : Phrase.primary.Reads ts e)
    (hnone : Phrase.predicates.Reads [] []) : Phrase.filter.Reads ts e := by
  intro rest fuel hrest hfuel
  simp only [Phrase.cost] at hfuel
  obtain ⟨fuel, rfl⟩ := Nat.exists_eq_succ_of_ne_zero (by omega : fuel ≠ 0)
  exact parseFilter_of_stops hprimary hnone hrest (by simp only [List.length_nil]; omega)

theorem reads_filtered {ts us : List Token} {e : Expr} {predicates : List Expr}
    (hprimary : Phrase.primary.Reads ts e) (hpredicates : Phrase.predicates.Reads us predicates)
    (hne : predicates ≠ []) : Phrase.filter.Reads (ts ++ us) (.filter e predicates []) := by
  intro rest fuel hrest hfuel
  simp only [Phrase.cost, List.length_append] at hfuel
  obtain ⟨fuel, rfl⟩ := Nat.exists_eq_succ_of_ne_zero (by omega : fuel ≠ 0)
  rw [List.append_assoc]
  have hempty : predicates.isEmpty = false := by simpa using hne
  have hcost : 24 * (ts.length + us.length) < fuel := by omega
  have hparse := parseFilter_of_stops hprimary hpredicates hrest hcost
  rw [hempty] at hparse
  exact hparse

theorem reads_filterPath {ts us vs : List Token} {e : Expr} {predicates : List Expr}
    {steps : List Step} (hprimary : Phrase.primary.Reads ts e)
    (hpredicates : Phrase.predicates.Reads us predicates) (hsteps : Phrase.steps.Reads vs steps) :
    Phrase.filter.Reads (ts ++ us ++ .slash :: vs) (.filter e predicates steps) := by
  intro rest fuel hrest hfuel
  simp only [Phrase.cost, List.length_append, List.length_cons] at hfuel
  obtain ⟨fuel, rfl⟩ := Nat.exists_eq_succ_of_ne_zero (by omega : fuel ≠ 0)
  simp only [List.append_assoc, List.cons_append]
  have hcost : 24 * (ts.length + us.length) < fuel := by omega
  have hstops : Stops 10 (.slash :: (vs ++ rest)) := stops_cons (by decide) _
  obtain ⟨h₁, h₂⟩ := parse_parts hprimary hpredicates hstops hcost
  have h₃ : parseSteps fuel (vs ++ rest) = .ok (steps, rest) :=
    hsteps rest fuel hrest (by simp only [Phrase.cost]; omega)
  simp only [Phrase.parse, parseFilter, h₁, h₂, h₃, bind_ok]
  rfl

theorem reads_filterAnywhere {ts us vs : List Token} {e : Expr} {predicates : List Expr}
    {steps : List Step} (hprimary : Phrase.primary.Reads ts e)
    (hpredicates : Phrase.predicates.Reads us predicates) (hsteps : Phrase.steps.Reads vs steps) :
    Phrase.filter.Reads (ts ++ us ++ .doubleSlash :: vs)
      (.filter e predicates (.anywhere :: steps)) := by
  intro rest fuel hrest hfuel
  simp only [Phrase.cost, List.length_append, List.length_cons] at hfuel
  obtain ⟨fuel, rfl⟩ := Nat.exists_eq_succ_of_ne_zero (by omega : fuel ≠ 0)
  simp only [List.append_assoc, List.cons_append]
  have hcost : 24 * (ts.length + us.length) < fuel := by omega
  have hstops : Stops 10 (.doubleSlash :: (vs ++ rest)) := stops_cons (by decide) _
  obtain ⟨h₁, h₂⟩ := parse_parts hprimary hpredicates hstops hcost
  have h₃ : parseSteps fuel (vs ++ rest) = .ok (steps, rest) :=
    hsteps rest fuel hrest (by simp only [Phrase.cost]; omega)
  simp only [Phrase.parse, parseFilter, h₁, h₂, h₃, bind_ok]
  rfl

/-! ### Primary expressions -/

theorem reads_group {ts : List Token} {e : Expr} (h : Phrase.expr.Reads ts e) :
    Phrase.primary.Reads (.leftParen :: ts ++ [Token.rightParen]) e := by
  intro rest fuel hrest hfuel
  simp only [Phrase.cost, List.length_append, List.length_cons] at hfuel
  obtain ⟨fuel, rfl⟩ := Nat.exists_eq_succ_of_ne_zero (by omega : fuel ≠ 0)
  simp only [List.append_assoc, List.cons_append, List.nil_append]
  have hexpr : parseExpr fuel (ts ++ .rightParen :: rest) = .ok (e, .rightParen :: rest) :=
    h (.rightParen :: rest) fuel (stops_cons (by decide) _) (by simp only [Phrase.cost]; omega)
  simp only [Phrase.parse, parsePrimary, hexpr, bind_ok]
  rfl

theorem reads_function {name : String} {ts : List Token} {e : Expr}
    (h : (Phrase.call name).Reads ts e) : Phrase.primary.Reads (.function name :: ts) e := by
  intro rest fuel hrest hfuel
  simp only [Phrase.cost, List.length_cons] at hfuel
  obtain ⟨fuel, rfl⟩ := Nat.exists_eq_succ_of_ne_zero (by omega : fuel ≠ 0)
  exact h rest fuel hrest (by simp only [Phrase.cost]; omega)

theorem reads_noArguments (function : Function) (harity : function.arity.admits 0 = true) :
    (Phrase.call function.name).Reads [.leftParen, .rightParen] (.call function []) := by
  intro rest fuel hrest hfuel
  simp only [Phrase.cost] at hfuel
  obtain ⟨fuel, rfl⟩ := Nat.exists_eq_succ_of_ne_zero (by omega : fuel ≠ 0)
  simp [Phrase.parse, parseCall, Function.ofName?_name, harity]
  rfl

theorem reads_call {ts : List Token} {arguments : List Expr} (function : Function)
    (hopens : Phrase.arguments.Opens ts) (h : Phrase.arguments.Reads ts arguments)
    (harity : function.arity.admits arguments.length = true) :
    (Phrase.call function.name).Reads (.leftParen :: ts) (.call function arguments) := by
  intro rest fuel hrest hfuel
  simp only [Phrase.cost, List.length_cons] at hfuel
  obtain ⟨fuel, rfl⟩ := Nat.exists_eq_succ_of_ne_zero (by omega : fuel ≠ 0)
  have harguments : parseArguments fuel (ts ++ rest) = .ok (arguments, rest) :=
    h rest fuel hrest (by simp only [Phrase.cost]; omega)
  obtain ⟨token, us, rfl, htoken⟩ := hopens
  rw [List.cons_append] at harguments
  simp only [Phrase.parse, List.cons_append, parseCall, Function.ofName?_name]
  -- an argument does not start with the closing parenthesis
  cases token
  case rightParen => cases htoken
  all_goals
    simp only [harguments, bind_ok, harity, ↓reduceIte]
    rfl

theorem reads_lastArgument {ts : List Token} {e : Expr} (h : Phrase.expr.Reads ts e) :
    Phrase.arguments.Reads (ts ++ [Token.rightParen]) [e] := by
  intro rest fuel hrest hfuel
  simp only [Phrase.cost, List.length_append, List.length_cons] at hfuel
  obtain ⟨fuel, rfl⟩ := Nat.exists_eq_succ_of_ne_zero (by omega : fuel ≠ 0)
  simp only [List.append_assoc, List.cons_append, List.nil_append]
  have hexpr : parseExpr fuel (ts ++ .rightParen :: rest) = .ok (e, .rightParen :: rest) :=
    h (.rightParen :: rest) fuel (stops_cons (by decide) _) (by simp only [Phrase.cost]; omega)
  simp only [Phrase.parse, parseArguments, hexpr, bind_ok]
  rfl

theorem reads_argument {ts us : List Token} {e : Expr} {arguments : List Expr}
    (hfirst : Phrase.expr.Reads ts e) (hothers : Phrase.arguments.Reads us arguments) :
    Phrase.arguments.Reads (ts ++ .comma :: us) (e :: arguments) := by
  intro rest fuel hrest hfuel
  simp only [Phrase.cost, List.length_append, List.length_cons] at hfuel
  obtain ⟨fuel, rfl⟩ := Nat.exists_eq_succ_of_ne_zero (by omega : fuel ≠ 0)
  simp only [List.append_assoc, List.cons_append]
  have h₁ : parseExpr fuel (ts ++ .comma :: (us ++ rest)) = .ok (e, .comma :: (us ++ rest)) :=
    hfirst (.comma :: (us ++ rest)) fuel (stops_cons (by decide) _)
      (by simp only [Phrase.cost]; omega)
  have h₂ : parseArguments fuel (us ++ rest) = .ok (arguments, rest) :=
    hothers rest fuel hrest (by simp only [Phrase.cost]; omega)
  simp only [Phrase.parse, parseArguments, h₁, h₂, bind_ok]
  rfl

/-! ### Predicates and steps -/

theorem reads_noPredicates : Phrase.predicates.Reads [] [] := by
  intro rest fuel hrest hfuel
  simp only [Phrase.cost] at hfuel
  obtain ⟨fuel, rfl⟩ := Nat.exists_eq_succ_of_ne_zero (by omega : fuel ≠ 0)
  cases rest with
  | nil => rfl
  | cons token rest =>
    have hlt := hrest token rfl
    cases token <;> first | rfl | simp at hlt

theorem reads_predicate {ts us : List Token} {e : Expr} {predicates : List Expr}
    (hfirst : Phrase.expr.Reads ts e) (hothers : Phrase.predicates.Reads us predicates) :
    Phrase.predicates.Reads (.leftBracket :: ts ++ .rightBracket :: us) (e :: predicates) := by
  intro rest fuel hrest hfuel
  simp only [Phrase.cost, List.length_append, List.length_cons] at hfuel
  obtain ⟨fuel, rfl⟩ := Nat.exists_eq_succ_of_ne_zero (by omega : fuel ≠ 0)
  simp only [List.append_assoc, List.cons_append]
  have h₁ : parseExpr fuel (ts ++ .rightBracket :: (us ++ rest)) =
      .ok (e, .rightBracket :: (us ++ rest)) :=
    hfirst (.rightBracket :: (us ++ rest)) fuel (stops_cons (by decide) _)
      (by simp only [Phrase.cost]; omega)
  have h₂ : parsePredicates fuel (us ++ rest) = .ok (predicates, rest) :=
    hothers rest fuel hrest (by simp only [Phrase.cost]; omega)
  simp only [Phrase.parse, parsePredicates, h₁, h₂, bind_ok]
  rfl

theorem reads_lastStep {ts : List Token} {s : Step} (h : Phrase.step.Reads ts s) :
    Phrase.steps.Reads ts [s] := by
  intro rest fuel hrest hfuel
  simp only [Phrase.cost] at hfuel
  obtain ⟨fuel, rfl⟩ := Nat.exists_eq_succ_of_ne_zero (by omega : fuel ≠ 0)
  have hstep : parseStep fuel (ts ++ rest) = .ok (s, rest) :=
    h rest fuel (hrest.mono (by decide)) (by simp only [Phrase.cost]; omega)
  simp only [Phrase.parse, parseSteps, hstep, bind_ok]
  cases rest with
  | nil => rfl
  | cons token rest =>
    have hlt := hrest token rfl
    cases token <;> first | rfl | simp at hlt

theorem reads_slash {ts us : List Token} {s : Step} {steps : List Step}
    (hfirst : Phrase.step.Reads ts s) (hothers : Phrase.steps.Reads us steps) :
    Phrase.steps.Reads (ts ++ .slash :: us) (s :: steps) := by
  intro rest fuel hrest hfuel
  simp only [Phrase.cost, List.length_append, List.length_cons] at hfuel
  obtain ⟨fuel, rfl⟩ := Nat.exists_eq_succ_of_ne_zero (by omega : fuel ≠ 0)
  simp only [List.append_assoc, List.cons_append]
  have h₁ : parseStep fuel (ts ++ .slash :: (us ++ rest)) = .ok (s, .slash :: (us ++ rest)) :=
    hfirst (.slash :: (us ++ rest)) fuel (stops_cons (by decide) _)
      (by simp only [Phrase.cost]; omega)
  have h₂ : parseSteps fuel (us ++ rest) = .ok (steps, rest) :=
    hothers rest fuel hrest (by simp only [Phrase.cost]; omega)
  simp only [Phrase.parse, parseSteps, h₁, h₂, bind_ok]
  rfl

theorem reads_doubleSlash {ts us : List Token} {s : Step} {steps : List Step}
    (hfirst : Phrase.step.Reads ts s) (hothers : Phrase.steps.Reads us steps) :
    Phrase.steps.Reads (ts ++ .doubleSlash :: us) (s :: .anywhere :: steps) := by
  intro rest fuel hrest hfuel
  simp only [Phrase.cost, List.length_append, List.length_cons] at hfuel
  obtain ⟨fuel, rfl⟩ := Nat.exists_eq_succ_of_ne_zero (by omega : fuel ≠ 0)
  simp only [List.append_assoc, List.cons_append]
  have h₁ : parseStep fuel (ts ++ .doubleSlash :: (us ++ rest)) =
      .ok (s, .doubleSlash :: (us ++ rest)) :=
    hfirst (.doubleSlash :: (us ++ rest)) fuel (stops_cons (by decide) _)
      (by simp only [Phrase.cost]; omega)
  have h₂ : parseSteps fuel (us ++ rest) = .ok (steps, rest) :=
    hothers rest fuel hrest (by simp only [Phrase.cost]; omega)
  simp only [Phrase.parse, parseSteps, h₁, h₂, bind_ok]
  rfl

theorem reads_self : Phrase.step.Reads [.dot] (.mk .self .node []) := by
  intro rest fuel hrest hfuel
  simp only [Phrase.cost] at hfuel
  obtain ⟨fuel, rfl⟩ := Nat.exists_eq_succ_of_ne_zero (by omega : fuel ≠ 0)
  rfl

theorem reads_parent : Phrase.step.Reads [.dotDot] (.mk .parent .node []) := by
  intro rest fuel hrest hfuel
  simp only [Phrase.cost] at hfuel
  obtain ⟨fuel, rfl⟩ := Nat.exists_eq_succ_of_ne_zero (by omega : fuel ≠ 0)
  rfl

theorem TestTokens.parse {ts : List Token} {test : NodeTest} (h : TestTokens ts test)
    (rest : List Token) : parseNodeTest (ts ++ rest) = .ok (test, rest) := by
  cases h <;> rfl

theorem AxisTokens.parse {as ts : List Token} {axis : Axis} {test : NodeTest}
    (haxis : AxisTokens as axis) (htest : TestTokens ts test) (rest : List Token) :
    parseAxis (as ++ (ts ++ rest)) = .ok (axis, ts ++ rest) := by
  cases haxis with
  | child => cases htest <;> rfl
  | short => rfl
  | named => simp [parseAxis, Axis.ofName?_name]

theorem reads_step {as ts us : List Token} {axis : Axis} {test : NodeTest}
    {predicates : List Expr} (haxis : AxisTokens as axis) (htest : TestTokens ts test)
    (hpredicates : Phrase.predicates.Reads us predicates) :
    Phrase.step.Reads (as ++ ts ++ us) (.mk axis test predicates) := by
  intro rest fuel hrest hfuel
  have hpos : 0 < ts.length := by cases htest <;> simp
  simp only [Phrase.cost, List.length_append] at hfuel
  obtain ⟨fuel, rfl⟩ := Nat.exists_eq_succ_of_ne_zero (by omega : fuel ≠ 0)
  simp only [List.append_assoc]
  have h₁ := haxis.parse htest (us ++ rest)
  have h₂ := htest.parse (us ++ rest)
  have h₃ : parsePredicates fuel (us ++ rest) = .ok (predicates, rest) :=
    hpredicates rest fuel hrest (by simp only [Phrase.cost]; omega)
  -- the first token is no dot, so that the two short steps are passed over
  have hstep : parseStep (fuel + 1) (as ++ (ts ++ (us ++ rest))) =
      (parseAxis (as ++ (ts ++ (us ++ rest))) >>= fun a => parseNodeTest a.2 >>= fun b =>
        parsePredicates fuel b.2 >>= fun c => .ok (.mk a.1 b.1 c.1, c.2)) := by
    cases haxis
    · cases htest <;> rfl
    · rfl
    · rfl
  simp only [Phrase.parse, hstep, h₁, h₂, h₃, bind_ok]

/-! ## The induction -/

theorem Derives.complete {p : Phrase} {ts : List Token} {r : p.Result} (h : Derives p ts r) :
    p.Complete ts r := by
  induction h with
  | expr _ ih =>
    intro rest fuel hrest hfuel
    simp only [Phrase.cost] at hfuel
    obtain ⟨fuel, rfl⟩ := Nat.exists_eq_succ_of_ne_zero (by omega : fuel ≠ 0)
    refine ReadsOperands.reads ih rest fuel hrest ?_
    simp only [Phrase.cost, Level.tightness]
    omega
  | single _ ih => exact readsOperands_of_reads ih
  | binary _ hop _ ihleft ihright => exact ReadsOperands.binary ihleft hop ihright
  | tighter hnext _ ih => exact reads_operand_of_level hnext (ReadsOperands.reads ih)
  | tightest _ ih => exact reads_operand_of_unary ih
  | negate _ ih => exact reads_negate ih
  | positive h ih => exact reads_positive h.opens (ReadsMembers.reads ih)
  | member _ ih => exact readsMembers_of_reads ih
  | union _ _ ihleft ihright => exact ReadsMembers.union ihleft ihright
  | root => exact reads_root
  | absolute h ih => exact reads_absolute h.opens ih
  | anywhere _ ih => exact reads_anywhere ih
  | relative h ih => exact reads_relative h.opens ih
  | filter h ih => exact reads_filter h.opens ih
  | bare _ ih => exact reads_bare ih reads_noPredicates
  | filtered _ _ hne ihprimary ihpredicates => exact reads_filtered ihprimary ihpredicates hne
  | filterPath _ _ _ ihprimary ihpredicates ihsteps =>
    exact reads_filterPath ihprimary ihpredicates ihsteps
  | filterAnywhere _ _ _ ihprimary ihpredicates ihsteps =>
    exact reads_filterAnywhere ihprimary ihpredicates ihsteps
  | group _ ih => exact reads_group ih
  | literal text =>
    intro rest fuel hrest hfuel
    simp only [Phrase.cost] at hfuel
    obtain ⟨fuel, rfl⟩ := Nat.exists_eq_succ_of_ne_zero (by omega : fuel ≠ 0)
    rfl
  | number value =>
    intro rest fuel hrest hfuel
    simp only [Phrase.cost] at hfuel
    obtain ⟨fuel, rfl⟩ := Nat.exists_eq_succ_of_ne_zero (by omega : fuel ≠ 0)
    rfl
  | function _ ih => exact reads_function ih
  | noArguments function harity => exact reads_noArguments function harity
  | call function h harity ih => exact reads_call function h.opens ih harity
  | lastArgument _ ih => exact reads_lastArgument ih
  | argument _ _ ihfirst ihothers => exact reads_argument ihfirst ihothers
  | noPredicates => exact reads_noPredicates
  | predicate _ _ ihfirst ihothers => exact reads_predicate ihfirst ihothers
  | lastStep _ ih => exact reads_lastStep ih
  | slash _ _ ihfirst ihothers => exact reads_slash ihfirst ihothers
  | doubleSlash _ _ ihfirst ihothers => exact reads_doubleSlash ihfirst ihothers
  | self => exact reads_self
  | parent => exact reads_parent
  | step haxis htest _ ih => exact reads_step haxis htest ih

theorem Derives.parseTokens {tokens : List Token} {e : Expr} (h : Derives .expr tokens e) :
    parseTokens tokens = .ok e := by
  have hexpr : parseExpr (24 * (tokens.length + 1)) (tokens ++ []) = .ok (e, []) :=
    h.complete [] (24 * (tokens.length + 1)) (stops_nil _) (by simp only [Phrase.cost]; omega)
  rw [List.append_nil] at hexpr
  simp only [XPath.parseTokens, hexpr, bind_ok]
  rfl

/-! ## Acceptance -/

theorem parseTokens_eq_ok_iff {tokens : List Token} {e : Expr} :
    parseTokens tokens = .ok e ↔ Derives .expr tokens e :=
  ⟨derives_of_parseTokens, Derives.parseTokens⟩

/-- A text that has tokens is read by what becomes of its tokens. -/
theorem parse_eq_ok_of_scan {source : String} {lexemes : List Lexeme} {e : Expr}
    (hscan : scan source = .ok lexemes) :
    parse source = .ok e ↔ parseTokens (lexemes.map Lexeme.token) = .ok e := by
  simp only [parse, hscan, bind_ok]
  cases hparse : parseTokens (lexemes.map Lexeme.token) with
  | ok e' => exact pure_eq_ok.trans (by simp)
  | error failure => cases failure <;> simp

/-- A text is read as an expression when its tokens are that expression in the grammar, and
rejected when they are none. -/
theorem parse_accepts_grammar (source : String) :
    (∀ e, parse source = .ok e ↔
      ∃ lexemes, scan source = .ok lexemes ∧ Derives .expr (lexemes.map Lexeme.token) e) ∧
    ((∃ error, parse source = .error error) ↔
      ¬ ∃ lexemes e, scan source = .ok lexemes ∧
        Derives .expr (lexemes.map Lexeme.token) e) := by
  have accepts (e : Expr) : parse source = .ok e ↔
      ∃ lexemes, scan source = .ok lexemes ∧ Derives .expr (lexemes.map Lexeme.token) e := by
    constructor
    · intro h
      cases hscan : scan source with
      | error fault => simp [parse, hscan, bind, Except.bind] at h
      | ok lexemes =>
        exact ⟨lexemes, rfl, derives_of_parseTokens ((parse_eq_ok_of_scan hscan).1 h)⟩
    · rintro ⟨lexemes, hscan, hderives⟩
      exact (parse_eq_ok_of_scan hscan).2 hderives.parseTokens
  refine ⟨accepts, ?_⟩
  constructor
  · rintro ⟨error, herror⟩ ⟨lexemes, e, hscan, hderives⟩
    have hok := (accepts e).2 ⟨lexemes, hscan, hderives⟩
    rw [herror] at hok
    cases hok
  · intro hnone
    cases hparse : parse source with
    | error error => exact ⟨error, rfl⟩
    | ok e =>
      obtain ⟨lexemes, hscan, hderives⟩ := (accepts e).1 hparse
      exact absurd ⟨lexemes, e, hscan, hderives⟩ hnone

end MarkupQuery.XPath
