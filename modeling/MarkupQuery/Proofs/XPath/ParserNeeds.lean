import MarkupQuery.Proofs.XPath.ParserSound

/-!
# What the parser needs of its tokens

Behind a function or a node type the parser needs an opening parenthesis, and behind an axis it
needs `::`.  On tokens that have these everywhere no function of the parser fails for want of one.
-/

namespace MarkupQuery.XPath

/-- What follows a token: `::` an axis, an opening parenthesis a function or a node type, and
neither of them a name. -/
def Token.Leads : Token → Option Token → Prop
  | axis _, next => next = some colonColon
  | function _, next | nodeType _, next => next = some leftParen
  | name _, next => next ≠ some colonColon ∧ next ≠ some leftParen
  | _, _ => True

/-- Each of the tokens is followed by what it needs. -/
def Supplied (tokens : List Token) : Prop :=
  ∀ token rest, token :: rest <:+ tokens → token.Leads rest.head?

theorem Supplied.of_suffix {tokens rest : List Token} (h : Supplied tokens)
    (hrest : rest <:+ tokens) : Supplied rest :=
  fun token behind hbehind => h token behind (hbehind.trans hrest)

theorem Supplied.tail {token : Token} {rest : List Token} (h : Supplied (token :: rest)) :
    Supplied rest :=
  h.of_suffix (List.suffix_cons token rest)

theorem Supplied.leads {token : Token} {rest : List Token} (h : Supplied (token :: rest)) :
    token.Leads rest.head? :=
  h token rest (List.suffix_refl _)

/-- The computation does not fail for want of an opening parenthesis or of `::`. -/
def NeverMisses {α : Type} (x : Except Failure α) : Prop :=
  ∀ what ∈ [Expectation.leftParen, .colonColon], (∀ rest, x ≠ missing what rest) ∧
    ∀ offset, x ≠ .error (.refused (.syntaxError (.expected what) offset))

namespace NeverMisses

variable {α β : Type}

theorem ok (a : α) : NeverMisses (.ok a) := by
  refine fun what _ => ⟨fun rest h => ?_, fun offset h => ?_⟩ <;> cases h

theorem outOfFuel : NeverMisses (.error .outOfFuel : Except Failure α) := by
  refine fun what _ => ⟨fun rest h => ?_, fun offset h => ?_⟩ <;> cases h

theorem refused {error : Error} (h : ∀ fault offset, error ≠ .syntaxError fault offset) :
    NeverMisses (.error (.refused error) : Except Failure α) := by
  refine fun what _ => ⟨fun rest heq => ?_, fun offset heq => ?_⟩
  · cases heq
  · cases heq
    exact h _ _ rfl

theorem fault {fault : SyntaxFault} (h : ∀ what, fault ≠ .expected what) (rest : List Token) :
    NeverMisses (.error (.syntaxFault fault rest) : Except Failure α) := by
  refine fun what _ => ⟨fun rest heq => ?_, fun offset heq => ?_⟩
  · cases heq
    exact h what rfl
  · cases heq

theorem other {what : Expectation} (h : what ∉ [Expectation.leftParen, .colonColon])
    (rest : List Token) : NeverMisses (missing what rest : Except Failure α) := by
  refine fun what' hwhat' => ⟨fun rest heq => ?_, fun offset heq => ?_⟩
  · cases heq
    exact h hwhat'
  · cases heq

theorem bind {x : Except Failure α} {f : α → Except Failure β} (hx : NeverMisses x)
    (hf : ∀ a, x = .ok a → NeverMisses (f a)) : NeverMisses (x >>= f) := by
  cases x with
  | ok a => exact hf a rfl
  | error failure =>
    intro what hwhat
    obtain ⟨hmissing, hrefused⟩ := hx what hwhat
    refine ⟨fun rest heq => hmissing rest ?_, fun offset heq => hrefused offset ?_⟩
    · cases heq
      rfl
    · cases heq
      rfl

end NeverMisses

/-! ## Node tests and axes -/

theorem neverMisses_parseNodeType (type : NodeType) (tokens : List Token) :
    NeverMisses (parseNodeType type tokens) := by
  unfold parseNodeType
  split
  split
  · exact .ok _
  · exact .other (by decide) _

theorem neverMisses_parseNodeTest {tokens : List Token} (h : Supplied tokens) :
    NeverMisses (parseNodeTest tokens) := by
  unfold parseNodeTest
  split
  · exact .ok _
  · exact .ok _
  · exact neverMisses_parseNodeType _ _
  · rename_i hrest
    obtain ⟨more, rfl⟩ := List.head?_eq_some_iff.1 h.leads
    exact absurd rfl (hrest more)
  · exact .other (by decide) _

theorem neverMisses_parseAxis {tokens : List Token} (h : Supplied tokens) :
    NeverMisses (parseAxis tokens) := by
  unfold parseAxis
  split
  · exact .ok _
  · split
    · split
      · exact .refused (by simp)
      · exact .fault (by simp) _
    · split
      · exact .ok _
      · rename_i hrest
        obtain ⟨more, rfl⟩ := List.head?_eq_some_iff.1 h.leads
        exact absurd rfl (hrest more)
  · exact .ok _

/-! ## One function after another

Each function keeps from missing these tokens if those that it calls do, which have a smaller bound
on the recursion; what they leave of the tokens is supplied as the tokens were. -/

/-- The tokens of a phrase with those before it that belong to it. -/
def Phrase.announced : Phrase → List Token → List Token
  | call name, tokens => .function name :: tokens
  | _, tokens => tokens

/-- No function of the parser misses these tokens at a bound on the recursion. -/
structure NeverMissesAt (fuel : Nat) : Prop where
  phrase (p : Phrase) {tokens : List Token} (h : Supplied (p.announced tokens)) :
    NeverMisses (p.parse fuel tokens)
  operators (level : Level) (left : Expr) {tokens : List Token} (h : Supplied tokens) :
    NeverMisses (parseOperators fuel level left tokens)
  members (left : Expr) {tokens : List Token} (h : Supplied tokens) :
    NeverMisses (parseUnion fuel left tokens)

theorem Phrase.suffix_of_parse (fuel : Nat) (p : Phrase) {tokens rest : List Token} {r : p.Result}
    (h : p.parse fuel tokens = .ok (r, rest)) : rest <:+ tokens := by
  obtain ⟨ts, rfl, -⟩ := (soundAt fuel).phrase p _ _ _ h
  exact List.suffix_append ts rest

namespace NeverMissesAt

variable {fuel : Nat} {tokens : List Token}

theorem bind (ih : NeverMissesAt fuel) (p : Phrase) (h : Supplied (p.announced tokens)) {α : Type}
    {f : p.Result × List Token → Except Failure α}
    (hf : ∀ r rest, Supplied rest → NeverMisses (f (r, rest))) :
    NeverMisses (p.parse fuel tokens >>= f) := by
  have hsuffix : tokens <:+ p.announced tokens := by
    cases p with
    | call name => exact List.suffix_cons _ _
    | _ => exact List.suffix_refl _
  refine (ih.phrase p h).bind fun whole hwhole => ?_
  obtain ⟨r, rest⟩ := whole
  exact hf r rest (h.of_suffix ((Phrase.suffix_of_parse fuel p hwhole).trans hsuffix))

theorem expr (ih : NeverMissesAt fuel) (h : Supplied tokens) :
    NeverMisses (parseExpr (fuel + 1) tokens) :=
  ih.phrase (.level .or) h

theorem level (ih : NeverMissesAt fuel) (l : Level) (h : Supplied tokens) :
    NeverMisses (parseLevel (fuel + 1) l tokens) :=
  ih.bind (.operand l) h fun left _ hrest => ih.operators l left hrest

theorem operand (ih : NeverMissesAt fuel) (l : Level) (h : Supplied tokens) :
    NeverMisses (parseOperand (fuel + 1) l tokens) := by
  simp only [parseOperand]
  split
  · exact ih.phrase (.level _) h
  · exact ih.phrase .unary h

theorem operators_succ (ih : NeverMissesAt fuel) (l : Level) (left : Expr) (h : Supplied tokens) :
    NeverMisses (parseOperators (fuel + 1) l left tokens) := by
  simp only [parseOperators]
  split
  · exact .ok _
  · split
    · exact .ok _
    · exact ih.bind (.operand l) h.tail fun right _ hrest => ih.operators l _ hrest

theorem unary (ih : NeverMissesAt fuel) (h : Supplied tokens) :
    NeverMisses (parseUnary (fuel + 1) tokens) := by
  simp only [parseUnary]
  split
  · exact ih.bind .unary h.tail fun operand _ _ => .ok _
  · exact ih.bind .path h fun left _ hrest => ih.members left hrest

theorem members_succ (ih : NeverMissesAt fuel) (left : Expr) (h : Supplied tokens) :
    NeverMisses (parseUnion (fuel + 1) left tokens) := by
  simp only [parseUnion]
  split
  · exact ih.bind .path h.tail fun right _ hrest => ih.members _ hrest
  · exact .ok _

theorem path (ih : NeverMissesAt fuel) (h : Supplied tokens) :
    NeverMisses (parsePath (fuel + 1) tokens) := by
  simp only [parsePath]
  split
  · exact .fault (by simp) _
  · split
    iterate 5 exact ih.phrase .filter h
    · split
      · exact ih.bind .steps h.tail fun steps _ _ => .ok _
      · exact .ok _
    · exact ih.bind .steps h.tail fun steps _ _ => .ok _
    · split
      · exact ih.bind .steps h fun steps _ _ => .ok _
      · exact .fault (by simp) _

theorem filter (ih : NeverMissesAt fuel) (h : Supplied tokens) :
    NeverMisses (parseFilter (fuel + 1) tokens) := by
  simp only [parseFilter]
  refine ih.bind .primary h fun primary rest hrest => ?_
  refine ih.bind .predicates hrest fun predicates rest hrest => ?_
  dsimp only
  split
  · exact ih.bind .steps hrest.tail fun steps _ _ => .ok _
  · exact ih.bind .steps hrest.tail fun steps _ _ => .ok _
  · exact .ok _

theorem primary (ih : NeverMissesAt fuel) (h : Supplied tokens) :
    NeverMisses (parsePrimary (fuel + 1) tokens) := by
  simp only [parsePrimary]
  split
  · refine ih.bind .expr h.tail fun inner rest hrest => ?_
    dsimp only
    split
    · exact .ok _
    · exact .other (by decide) _
  · exact .ok _
  · exact .ok _
  · exact ih.phrase (.call _) h
  · exact .refused (by simp)
  · exact .fault (by simp) _
  · exact .fault (by simp) _

theorem call (ih : NeverMissesAt fuel) (name : String) (h : Supplied (.function name :: tokens)) :
    NeverMisses (parseCall (fuel + 1) name tokens) := by
  simp only [parseCall]
  split
  · exact .refused (by simp)
  · -- an opening parenthesis stands behind the name
    obtain ⟨rest, rfl⟩ := List.head?_eq_some_iff.1 h.leads
    have harity (function : Function) (arguments : List Expr) (rest : List Token) :
        NeverMisses (if function.arity.admits arguments.length then
          .ok (Expr.call function arguments, rest)
          else .error (.refused (.arity name function.arity.text arguments.length))) := by
      split
      · exact .ok _
      · exact .refused (by simp)
    dsimp only
    split
    · exact harity _ _ _
    · exact ih.bind .arguments h.tail.tail fun arguments rest _ => harity _ _ _

theorem arguments (ih : NeverMissesAt fuel) (h : Supplied tokens) :
    NeverMisses (parseArguments (fuel + 1) tokens) := by
  simp only [parseArguments]
  refine ih.bind .expr h fun first rest hrest => ?_
  dsimp only
  split
  · exact ih.bind .arguments hrest.tail fun others _ _ => .ok _
  · exact .ok _
  · exact .other (by decide) _

theorem predicates (ih : NeverMissesAt fuel) (h : Supplied tokens) :
    NeverMisses (parsePredicates (fuel + 1) tokens) := by
  simp only [parsePredicates]
  split
  · refine ih.bind .expr h.tail fun first rest hrest => ?_
    dsimp only
    split
    · exact ih.bind .predicates hrest.tail fun others _ _ => .ok _
    · exact .other (by decide) _
  · exact .ok _

theorem steps (ih : NeverMissesAt fuel) (h : Supplied tokens) :
    NeverMisses (parseSteps (fuel + 1) tokens) := by
  simp only [parseSteps]
  refine ih.bind .step h fun first rest hrest => ?_
  dsimp only
  split
  · exact ih.bind .steps hrest.tail fun others _ _ => .ok _
  · exact ih.bind .steps hrest.tail fun others _ _ => .ok _
  · exact .ok _

theorem step (ih : NeverMissesAt fuel) (h : Supplied tokens) :
    NeverMisses (parseStep (fuel + 1) tokens) := by
  simp only [parseStep]
  split
  · exact .ok _
  · exact .ok _
  · refine (neverMisses_parseAxis h).bind fun r haxis => ?_
    obtain ⟨axis, rest⟩ := r
    obtain ⟨as, rfl, -⟩ := axisTokens_of_parseAxis haxis
    have hrest : Supplied rest := h.of_suffix (List.suffix_append _ _)
    refine (neverMisses_parseNodeTest hrest).bind fun r htest => ?_
    obtain ⟨test, behind⟩ := r
    obtain ⟨ts, rfl, -⟩ := testTokens_of_parseNodeTest htest
    have hbehind : Supplied behind := hrest.of_suffix (List.suffix_append _ _)
    exact ih.bind .predicates hbehind fun predicates _ _ => .ok _

end NeverMissesAt

theorem neverMissesAt (fuel : Nat) : NeverMissesAt fuel := by
  induction fuel with
  | zero =>
    refine ⟨fun p tokens h => ?_, fun _ _ _ _ => .outOfFuel, fun _ _ _ => .outOfFuel⟩
    cases p <;> exact .outOfFuel
  | succ fuel ih =>
    refine ⟨fun p tokens h => ?_, fun l left _ h => ih.operators_succ l left h,
      fun left _ h => ih.members_succ left h⟩
    cases p with
    | expr => exact ih.expr h
    | level l => exact ih.level l h
    | operand l => exact ih.operand l h
    | unary => exact ih.unary h
    | union =>
      refine (ih.path h).bind fun r hleft => ?_
      obtain ⟨left, rest⟩ := r
      exact ih.members_succ left (h.of_suffix (Phrase.suffix_of_parse (fuel + 1) .path hleft))
    | path => exact ih.path h
    | filter => exact ih.filter h
    | primary => exact ih.primary h
    | call name => exact ih.call name h
    | arguments => exact ih.arguments h
    | predicates => exact ih.predicates h
    | steps => exact ih.steps h
    | step => exact ih.step h

theorem neverMisses_parseTokens {tokens : List Token} (h : Supplied tokens) :
    NeverMisses (parseTokens tokens) := by
  refine (neverMissesAt (24 * (tokens.length + 1))).bind .expr h fun expr rest _ => ?_
  dsimp only
  split
  · exact .ok _
  · exact .fault (by simp) _

end MarkupQuery.XPath
