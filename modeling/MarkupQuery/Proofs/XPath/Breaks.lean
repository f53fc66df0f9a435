import MarkupQuery.Proofs.XPath.Formed
import MarkupQuery.Proofs.XPath.ParserComplete

/-!
# Where a reading breaks off

When the parser finds a fault, the tokens in front of the fault can be completed to a phrase.  Each
function is shown to have this property if those that it calls do: what a callee has read is
completed to its phrase, and that to the phrase of the caller.  The bound on the recursion is never
exhausted on the way when it starts as high as the parser starts it.
-/

namespace MarkupQuery.XPath

/-- Why a phrase was not read from tokens: for an error that is no syntax error, for a fault behind
tokens that can be completed to a phrase, or for a bound on the recursion that is `scarce`. -/
inductive Blames (p : Phrase) (scarce : Prop) (tokens : List Token) : Failure → Prop where
  | refused {error : Error} (h : ∀ fault offset, error ≠ .syntaxError fault offset) :
      Blames p scarce tokens (.refused error)
  | fault {fault : SyntaxFault} {before rest more : List Token} (htokens : tokens = before ++ rest)
      (h : Formed p (before ++ more)) : Blames p scarce tokens (.syntaxFault fault rest)
  | outOfFuel (h : scarce) : Blames p scarce tokens .outOfFuel

/-- A bound on the recursion for a phrase, apart from what the tokens need. -/
@[simp] def Phrase.need : Phrase → Nat
  | arguments => 19
  | p => p.cost

theorem Phrase.need_pos (p : Phrase) : 0 < p.need := by
  cases p with
  | level l | operand l =>
    have hle := l.tightness_le
    simp only [need, cost]
    omega
  | _ => simp

theorem Phrase.need_le (p : Phrase) : p.need ≤ 19 := by
  cases p with
  | level l | operand l =>
    simp only [need, cost]
    omega
  | _ => simp

/-- Behind a token the bound suffices for every phrase. -/
theorem Phrase.need_lt (p q : Phrase) {front : List Token} (h : front ≠ []) :
    q.need < p.need + 24 * front.length := by
  have hlength := List.length_pos_of_ne_nil h
  have hle := q.need_le
  omega

theorem Phrase.parse_zero (p : Phrase) (tokens : List Token) :
    p.parse 0 tokens = .error .outOfFuel := by
  cases p <;> rfl

/-- Every failure of the functions of the parser is accounted for at a bound on the recursion. -/
structure BlamesAt (fuel : Nat) : Prop where
  phrase (p : Phrase) {tokens : List Token} {failure : Failure}
    (h : p.parse fuel tokens = .error failure) :
    Blames p (fuel < p.need + 24 * tokens.length) tokens failure
  operators (level : Level) {left : Expr} {ts tokens : List Token} {failure : Failure}
    (hts : Formed (.level level) ts) (h : parseOperators fuel level left tokens = .error failure) :
    Blames (.level level) (fuel < 1 + 24 * tokens.length) (ts ++ tokens) failure
  members {left : Expr} {ts tokens : List Token} {failure : Failure} (hts : Formed .union ts)
    (h : parseUnion fuel left tokens = .error failure) :
    Blames .union (fuel < 1 + 24 * tokens.length) (ts ++ tokens) failure

namespace Blames

variable {p q : Phrase} {scarce scarce' : Prop} {front tokens : List Token} {failure : Failure}

/-- What a callee could not read, the caller could not read behind what it had read already. -/
theorem within (h : Blames q scarce tokens failure) (front : List Token)
    (hwrap : ∀ ts, Formed q ts → ∃ back, Formed p (front ++ ts ++ back))
    (hscarce : scarce → scarce') : Blames p scarce' (front ++ tokens) failure := by
  cases h with
  | refused h => exact .refused h
  | @fault _ before rest more htokens h =>
    obtain ⟨back, hback⟩ := hwrap _ h
    have hfront : front ++ tokens = front ++ before ++ rest := by
      rw [htokens, List.append_assoc]
    have hwhole : Formed p (front ++ before ++ (more ++ back)) := by simpa using hback
    exact .fault hfront hwhole
  | outOfFuel h => exact .outOfFuel (hscarce h)

/-- A phrase that is a phrase of another kind too. -/
theorem lift (h : Blames q scarce tokens failure) (hwrap : ∀ ts, Formed q ts → Formed p ts)
    (hscarce : scarce → scarce') : Blames p scarce' tokens failure :=
  h.within [] (fun ts hts => ⟨[], by simpa using hwrap ts hts⟩) hscarce

theorem mono (h : Blames p scarce tokens failure) (hscarce : scarce → scarce') :
    Blames p scarce' tokens failure :=
  h.lift (fun _ => id) hscarce

/-- A fault behind the tokens that have been read, which are the start of a phrase. -/
theorem here {fault : SyntaxFault} (before : List Token) {rest more : List Token}
    (h : Formed p (before ++ more)) :
    Blames p scarce (before ++ rest) (.syntaxFault fault rest) :=
  .fault rfl h

end Blames

/-! ## Fillers -/

theorem formed_path : Formed .path [.dot] := .relative (.lastStep .self)

/-! ## Node tests and axes -/

theorem testTokens_of_parseNodeType_eq_error {type : NodeType} {tokens : List Token}
    {failure : Failure} (h : parseNodeType type tokens = .error failure) :
    ∃ fault before rest more test, failure = .syntaxFault fault rest ∧ tokens = before ++ rest ∧
      TestTokens (.nodeType type :: .leftParen :: before ++ more) test := by
  unfold parseNodeType at h
  split at h
  rename_i test' tokens' htest
  split at h
  · cases h
  · cases h
    split at htest <;> cases htest
    · exact ⟨_, [], _, [.rightParen], _, rfl, rfl, .node⟩
    · exact ⟨_, [], _, [.rightParen], _, rfl, rfl, .text⟩
    · exact ⟨_, [], _, [.rightParen], _, rfl, rfl, .comment⟩
    · exact ⟨_, [.literal _], _, [.rightParen], _, rfl, rfl, .target _⟩
    · exact ⟨_, [], _, [.rightParen], _, rfl, rfl, .instruction⟩

theorem exists_testTokens (type : NodeType) :
    ∃ test, TestTokens [.nodeType type, .leftParen, .rightParen] test := by
  cases type
  · exact ⟨_, .node⟩
  · exact ⟨_, .text⟩
  · exact ⟨_, .comment⟩
  · exact ⟨_, .instruction⟩

theorem testTokens_of_parseNodeTest_eq_error {tokens : List Token} {failure : Failure}
    (h : parseNodeTest tokens = .error failure) :
    ∃ fault before rest more test, failure = .syntaxFault fault rest ∧ tokens = before ++ rest ∧
      TestTokens (before ++ more) test := by
  unfold parseNodeTest at h
  split at h
  · cases h
  · cases h
  · rename_i type rest
    obtain ⟨fault, before, behind, more, test, rfl, rfl, htest⟩ :=
      testTokens_of_parseNodeType_eq_error h
    exact ⟨fault, .nodeType type :: .leftParen :: before, behind, more, test, rfl, rfl, htest⟩
  · rename_i type rest _
    cases h
    obtain ⟨test, htest⟩ := exists_testTokens type
    exact ⟨_, [.nodeType type], rest, [.leftParen, .rightParen], test, rfl, rfl, htest⟩
  · cases h
    exact ⟨_, [], _, [.wildcard], _, rfl, rfl, .anyName⟩

theorem axisTokens_of_parseAxis_eq_error {tokens : List Token} {failure : Failure}
    (h : parseAxis tokens = .error failure) :
    failure = .refused (.unsupported .namespaceAxis) ∨
      ∃ fault before rest more axis, failure = .syntaxFault fault rest ∧ tokens = before ++ rest ∧
        AxisTokens (before ++ more) axis := by
  unfold parseAxis at h
  split at h
  · cases h
  · rename_i name rest
    split at h
    · split at h <;> cases h
      · exact .inl rfl
      · exact .inr ⟨_, [], _, [], _, rfl, rfl, .child⟩
    · rename_i axis haxis
      split at h <;> cases h
      obtain rfl := Axis.name_eq_of_ofName? haxis
      exact .inr ⟨_, [.axis axis.name], rest, [.colonColon], axis, rfl, rfl, .named axis⟩
  · cases h

/-! ## One function after another -/

namespace BlamesAt

variable {fuel : Nat} {p : Phrase} {tokens : List Token} {failure : Failure}

/-- A caller fails as its callee does, behind what it has read itself. -/
theorem within (ih : BlamesAt fuel) (q : Phrase) (front : List Token)
    (h : q.parse fuel tokens = .error failure)
    (hwrap : ∀ ts, Formed q ts → ∃ back, Formed p (front ++ ts ++ back))
    (hneed : q.need < p.need + 24 * front.length) :
    Blames p (fuel + 1 < p.need + 24 * (front ++ tokens).length) (front ++ tokens) failure := by
  refine (ih.phrase q h).within front hwrap fun hscarce => ?_
  rw [List.length_append]
  omega

theorem lift (ih : BlamesAt fuel) (q : Phrase) (h : q.parse fuel tokens = .error failure)
    (hwrap : ∀ ts, Formed q ts → Formed p ts) (hneed : q.need < p.need) :
    Blames p (fuel + 1 < p.need + 24 * tokens.length) tokens failure :=
  ih.within q [] h (fun ts hts => ⟨[], by simpa using hwrap ts hts⟩) hneed

theorem need_level (l : Level) : (Phrase.level l).need = (Phrase.operand l).need + 1 := by
  have hle := l.tightness_le
  simp only [Phrase.need, Phrase.cost]
  omega

theorem expr (ih : BlamesAt fuel) (h : parseExpr (fuel + 1) tokens = .error failure) :
    Blames .expr (fuel + 1 < Phrase.expr.need + 24 * tokens.length) tokens failure :=
  ih.lift (.level .or) h (fun _ => .expr) (by decide)

theorem level (ih : BlamesAt fuel) (l : Level)
    (h : parseLevel (fuel + 1) l tokens = .error failure) :
    Blames (.level l) (fuel + 1 < (Phrase.level l).need + 24 * tokens.length) tokens failure := by
  simp only [parseLevel, bind_eq_error, Prod.exists] at h
  rcases h with h | ⟨left, rest, hleft, h⟩
  · exact ih.lift (.operand l) h (fun _ => .single) (by rw [need_level]; omega)
  · obtain ⟨ts, rfl, hts⟩ := (soundAt fuel).phrase (.operand l) _ _ _ hleft
    refine (ih.operators l (.single hts.formed) h).mono fun hscarce => ?_
    have hpos := (Phrase.operand l).need_pos
    rw [need_level, List.length_append]
    omega

theorem operand (ih : BlamesAt fuel) (l : Level)
    (h : parseOperand (fuel + 1) l tokens = .error failure) :
    Blames (.operand l) (fuel + 1 < (Phrase.operand l).need + 24 * tokens.length) tokens
      failure := by
  simp only [parseOperand] at h
  split at h
  · rename_i tighter hnext
    have hnext := Level.next?_eq_some_iff.1 hnext
    refine ih.lift (.level tighter) h (fun _ => .tighter hnext) ?_
    cases hnext <;> decide
  · rename_i hnext
    obtain rfl := Level.next?_eq_none_iff.1 hnext
    exact ih.lift .unary h (fun _ => .tightest) (by decide)

theorem operators_succ (ih : BlamesAt fuel) (l : Level) {left : Expr} {ts : List Token}
    (hts : Formed (.level l) ts) (h : parseOperators (fuel + 1) l left tokens = .error failure) :
    Blames (.level l) (fuel + 1 < 1 + 24 * tokens.length) (ts ++ tokens) failure := by
  simp only [parseOperators] at h
  split at h
  · cases h
  · rename_i token rest
    split at h
    · cases h
    · rename_i op hop
      have hop := operator?_eq_some_iff.1 hop
      simp only [bind_eq_error, Prod.exists] at h
      rcases h with h | ⟨right, behind, hright, h⟩
      · have hle := l.tightness_le
        rw [List.length_cons, List.append_cons]
        refine (ih.phrase (.operand l) h).within (ts ++ [token]) (fun us hus => ⟨[], ?_⟩) ?_
        · simpa using Formed.binary hts hop hus
        · simp only [Phrase.need, Phrase.cost]
          omega
      · obtain ⟨us, rfl, hus⟩ := (soundAt fuel).phrase (.operand l) _ _ _ hright
        have hloop := ih.operators l (.binary hts hop hus.formed) h
        rw [List.append_assoc, List.cons_append] at hloop
        refine hloop.mono fun hscarce => ?_
        rw [List.length_cons, List.length_append]
        omega

theorem unary (ih : BlamesAt fuel) (h : parseUnary (fuel + 1) tokens = .error failure) :
    Blames .unary (fuel + 1 < Phrase.unary.need + 24 * tokens.length) tokens failure := by
  simp only [parseUnary] at h
  split at h
  · simp only [bind_pure_eq_error] at h
    exact ih.within .unary [.minus] h (fun ts hts => ⟨[], by simpa using Formed.negate hts⟩)
      (Phrase.need_lt _ _ (by simp))
  · exact ih.lift .union h (fun _ => .positive) (by decide)

theorem members_succ (ih : BlamesAt fuel) {left : Expr} {ts : List Token} (hts : Formed .union ts)
    (h : parseUnion (fuel + 1) left tokens = .error failure) :
    Blames .union (fuel + 1 < 1 + 24 * tokens.length) (ts ++ tokens) failure := by
  simp only [parseUnion] at h
  split at h
  · simp only [bind_eq_error, Prod.exists] at h
    rcases h with h | ⟨right, behind, hright, h⟩
    · rw [List.length_cons, List.append_cons]
      refine (ih.phrase .path h).within (ts ++ [.pipe]) (fun us hus => ⟨[], ?_⟩) ?_
      · simpa using Formed.union hts hus
      · simp only [Phrase.need, Phrase.cost]
        omega
    · obtain ⟨us, rfl, hus⟩ := (soundAt fuel).phrase .path _ _ _ hright
      have hloop := ih.members (.union hts hus.formed) h
      rw [List.append_assoc, List.cons_append] at hloop
      refine hloop.mono fun hscarce => ?_
      rw [List.length_cons, List.length_append]
      omega
  · cases h

theorem path (ih : BlamesAt fuel) (h : parsePath (fuel + 1) tokens = .error failure) :
    Blames .path (fuel + 1 < Phrase.path.need + 24 * tokens.length) tokens failure := by
  have filter (h : parseFilter fuel tokens = .error failure) :
      Blames .path (fuel + 1 < Phrase.path.need + 24 * tokens.length) tokens failure :=
    ih.lift .filter h (fun _ => .filter) (by decide)
  simp only [parsePath] at h
  split at h
  · cases h
    exact .here [] formed_path
  · split at h
    iterate 5 exact filter h
    · split at h
      · simp only [bind_pure_eq_error] at h
        exact ih.within .steps [.slash] h (fun ts hts => ⟨[], by simpa using Formed.absolute hts⟩)
          (Phrase.need_lt _ _ (by simp))
      · cases h
    · simp only [bind_pure_eq_error] at h
      exact ih.within .steps [.doubleSlash] h
        (fun ts hts => ⟨[], by simpa using Formed.anywhere hts⟩) (Phrase.need_lt _ _ (by simp))
    · split at h
      · simp only [bind_pure_eq_error] at h
        exact ih.lift .steps h (fun _ => .relative) (by decide)
      · cases h
        exact .here [] formed_path

theorem filter (ih : BlamesAt fuel) (h : parseFilter (fuel + 1) tokens = .error failure) :
    Blames .filter (fuel + 1 < Phrase.filter.need + 24 * tokens.length) tokens failure := by
  simp only [parseFilter, bind_eq_error, Prod.exists] at h
  rcases h with h | ⟨primary, rest, hprimary, h⟩
  · refine ih.lift .primary h (fun ts hts => ?_) (by decide)
    simpa using Formed.filtered hts .noPredicates
  obtain ⟨ts, rfl, hts⟩ := (soundAt fuel).phrase .primary _ _ _ hprimary
  rcases h with h | ⟨predicates, behind, hpredicates, h⟩
  · refine ih.within .predicates ts h (fun us hus => ⟨[], ?_⟩) (Nat.lt_add_right _ (by decide))
    simpa using Formed.filtered hts.formed hus
  obtain ⟨us, rfl, hus⟩ := (soundAt fuel).phrase .predicates _ _ _ hpredicates
  have steps (token : Token) {rest : List Token} (h : parseSteps fuel rest = .error failure)
      (hwrap : ∀ vs, Formed .steps vs → Formed .filter (ts ++ us ++ token :: vs)) :
      Blames .filter (fuel + 1 < Phrase.filter.need + 24 * (ts ++ (us ++ token :: rest)).length)
        (ts ++ (us ++ token :: rest)) failure := by
    rw [← List.append_assoc, List.append_cons]
    exact ih.within .steps (ts ++ us ++ [token]) h
      (fun vs hvs => ⟨[], by simpa using hwrap vs hvs⟩) (Phrase.need_lt _ _ (by simp))
  split at h
  · simp only [bind_pure_eq_error] at h
    exact steps .slash h fun _ => .filterPath hts.formed hus.formed
  · simp only [bind_pure_eq_error] at h
    exact steps .doubleSlash h fun _ => .filterAnywhere hts.formed hus.formed
  · cases h

theorem primary (ih : BlamesAt fuel) (h : parsePrimary (fuel + 1) tokens = .error failure) :
    Blames .primary (fuel + 1 < Phrase.primary.need + 24 * tokens.length) tokens failure := by
  simp only [parsePrimary] at h
  split at h
  · simp only [bind_eq_error, Prod.exists] at h
    rcases h with h | ⟨inner, behind, hinner, h⟩
    · exact ih.within .expr [.leftParen] h
        (fun ts hts => ⟨[.rightParen], by simpa using Formed.group hts⟩)
        (Phrase.need_lt _ _ (by simp))
    · obtain ⟨ts, rfl, hts⟩ := (soundAt fuel).phrase .expr _ _ _ hinner
      split at h <;> cases h
      exact .here (.leftParen :: ts) (.group hts.formed)
  · cases h
  · cases h
  · rename_i name rest
    exact ih.within (.call name) [.function name] h
      (fun ts hts => ⟨[], by simpa using Formed.function hts⟩) (Phrase.need_lt _ _ (by simp))
  · cases h
    exact .refused (by simp)
  · cases h
    exact .here [] (.literal "")
  · cases h
    exact .here [] (.literal "")

theorem call (ih : BlamesAt fuel) (name : String)
    (h : parseCall (fuel + 1) name tokens = .error failure) :
    Blames (.call name) (fuel + 1 < (Phrase.call name).need + 24 * tokens.length) tokens
      failure := by
  simp only [parseCall] at h
  split at h
  · cases h
    exact .refused (by simp)
  · rename_i function hfunction
    obtain rfl := Function.name_eq_of_ofName? hfunction
    have hnone := Formed.noArguments function
    -- a wrong number of arguments is no syntax error
    have harity (arguments : List Expr) (rest : List Token)
        (h : (if function.arity.admits arguments.length then
          (.ok (Expr.call function arguments, rest) : Except Failure (Expr × List Token))
          else .error (.refused (.arity function.name function.arity.text arguments.length))) =
            .error failure) (scarce : Prop) (tokens : List Token) :
        Blames (.call function.name) scarce tokens failure := by
      split at h <;> cases h
      exact .refused (by simp)
    split at h
    · split at h
      · exact harity [] _ h _ _
      · simp only [bind_eq_error, Prod.exists] at h
        rcases h with h | ⟨arguments, behind, -, h⟩
        · exact ih.within .arguments [.leftParen] h
            (fun ts hts => ⟨[], by simpa using Formed.call function hts⟩)
            (Phrase.need_lt _ _ (by simp))
        · exact harity arguments behind h _ _
    · cases h
      exact .here [] hnone

theorem arguments (ih : BlamesAt fuel) (h : parseArguments (fuel + 1) tokens = .error failure) :
    Blames .arguments (fuel + 1 < Phrase.arguments.need + 24 * tokens.length) tokens failure := by
  simp only [parseArguments, bind_eq_error, Prod.exists] at h
  rcases h with h | ⟨first, rest, hfirst, h⟩
  · exact ih.within .expr [] h
      (fun ts hts => ⟨[.rightParen], by simpa using Formed.lastArgument hts⟩) (by decide)
  obtain ⟨ts, rfl, hts⟩ := (soundAt fuel).phrase .expr _ _ _ hfirst
  split at h
  · simp only [bind_pure_eq_error] at h
    rw [List.append_cons]
    refine ih.within .arguments (ts ++ [.comma]) h (fun us hus => ⟨[], ?_⟩)
      (Phrase.need_lt _ _ (by simp))
    simpa using Formed.argument hts.formed hus
  · cases h
  · cases h
    exact .here ts (.lastArgument hts.formed)

theorem predicates (ih : BlamesAt fuel) (h : parsePredicates (fuel + 1) tokens = .error failure) :
    Blames .predicates (fuel + 1 < Phrase.predicates.need + 24 * tokens.length) tokens
      failure := by
  simp only [parsePredicates] at h
  split at h
  · simp only [bind_eq_error, Prod.exists] at h
    rcases h with h | ⟨first, behind, hfirst, h⟩
    · refine ih.within .expr [.leftBracket] h (fun ts hts => ⟨[.rightBracket], ?_⟩)
        (Phrase.need_lt _ _ (by simp))
      simpa using Formed.predicate hts .noPredicates
    obtain ⟨ts, rfl, hts⟩ := (soundAt fuel).phrase .expr _ _ _ hfirst
    split at h
    · simp only [bind_pure_eq_error] at h
      rw [← List.cons_append, List.append_cons]
      refine ih.within .predicates (.leftBracket :: ts ++ [.rightBracket]) h
        (fun us hus => ⟨[], ?_⟩) (Phrase.need_lt _ _ (by simp))
      simpa using Formed.predicate hts.formed hus
    · cases h
      exact .here (.leftBracket :: ts) (.predicate hts.formed .noPredicates)
  · cases h

theorem steps (ih : BlamesAt fuel) (h : parseSteps (fuel + 1) tokens = .error failure) :
    Blames .steps (fuel + 1 < Phrase.steps.need + 24 * tokens.length) tokens failure := by
  simp only [parseSteps, bind_eq_error, Prod.exists] at h
  rcases h with h | ⟨first, rest, hfirst, h⟩
  · exact ih.lift .step h (fun _ => .lastStep) (by decide)
  obtain ⟨ts, rfl, hts⟩ := (soundAt fuel).phrase .step _ _ _ hfirst
  split at h
  · simp only [bind_pure_eq_error] at h
    rw [List.append_cons]
    refine ih.within .steps (ts ++ [.slash]) h (fun us hus => ⟨[], ?_⟩)
      (Phrase.need_lt _ _ (by simp))
    simpa using Formed.slash hts.formed hus
  · simp only [bind_pure_eq_error] at h
    rw [List.append_cons]
    refine ih.within .steps (ts ++ [.doubleSlash]) h (fun us hus => ⟨[], ?_⟩)
      (Phrase.need_lt _ _ (by simp))
    simpa using Formed.doubleSlash hts.formed hus
  · cases h

theorem step (ih : BlamesAt fuel) (h : parseStep (fuel + 1) tokens = .error failure) :
    Blames .step (fuel + 1 < Phrase.step.need + 24 * tokens.length) tokens failure := by
  simp only [parseStep] at h
  split at h
  · cases h
  · cases h
  simp only [bind_eq_error, Prod.exists] at h
  rcases h with h | ⟨axis, rest, haxis, h⟩
  · rcases axisTokens_of_parseAxis_eq_error h with
      rfl | ⟨_, before, rest, more, axis, rfl, rfl, has⟩
    · exact .refused (by simp)
    · have hwhole : Formed .step (before ++ (more ++ [.wildcard])) := by
        simpa using Formed.step has .anyName .noPredicates
      exact .here before hwhole
  obtain ⟨as, rfl, has⟩ := axisTokens_of_parseAxis haxis
  rcases h with h | ⟨test, behind, htest, h⟩
  · obtain ⟨_, before, rest, more, test, rfl, rfl, hts⟩ := testTokens_of_parseNodeTest_eq_error h
    have hwhole : Formed .step (as ++ before ++ more) := by
      simpa using Formed.step has hts .noPredicates
    exact .fault (List.append_assoc as before rest).symm hwhole
  obtain ⟨ts, rfl, hts⟩ := testTokens_of_parseNodeTest htest
  rcases h with h | ⟨_, _, -, h⟩
  · have hne : as ++ ts ≠ [] := by cases hts <;> simp
    rw [← List.append_assoc]
    refine ih.within .predicates (as ++ ts) h (fun us hus => ⟨[], ?_⟩) (Phrase.need_lt _ _ hne)
    simpa using Formed.step has hts hus
  · cases h

theorem union_succ (ih : BlamesAt fuel)
    (h : Phrase.union.parse (fuel + 1) tokens = .error failure) :
    Blames .union (fuel + 1 < Phrase.union.need + 24 * tokens.length) tokens failure := by
  simp only [Phrase.parse, bind_eq_error, Prod.exists] at h
  rcases h with h | ⟨left, rest, hleft, h⟩
  · refine (ih.path h).lift (fun _ => .member) fun hscarce => ?_
    simp only [Phrase.need, Phrase.cost] at hscarce ⊢
    omega
  · obtain ⟨ts, rfl, hts⟩ := (soundAt (fuel + 1)).phrase .path _ _ _ hleft
    refine (ih.members_succ (.member hts.formed) h).mono fun hscarce => ?_
    simp only [Phrase.need, Phrase.cost, List.length_append]
    omega

end BlamesAt

theorem blamesAt (fuel : Nat) : BlamesAt fuel := by
  induction fuel with
  | zero =>
    constructor
    case phrase =>
      intro p tokens failure h
      rw [p.parse_zero] at h
      cases h
      exact .outOfFuel (Nat.add_pos_left p.need_pos _)
    case operators | members =>
      intros
      rename_i h
      cases h
      exact .outOfFuel (by omega)
  | succ fuel ih =>
    constructor
    case operators => exact fun l => ih.operators_succ l
    case members => exact ih.members_succ
    case phrase =>
      intro p tokens failure h
      cases p with
      | expr => exact ih.expr h
      | level l => exact ih.level l h
      | operand l => exact ih.operand l h
      | unary => exact ih.unary h
      | union => exact ih.union_succ h
      | path => exact ih.path h
      | filter => exact ih.filter h
      | primary => exact ih.primary h
      | call name => exact ih.call name h
      | arguments => exact ih.arguments h
      | predicates => exact ih.predicates h
      | steps => exact ih.steps h
      | step => exact ih.step h

/-- The bound that the parser starts with is never exhausted. -/
theorem blames_parseExpr {tokens : List Token} {failure : Failure}
    (h : parseExpr (24 * (tokens.length + 1)) tokens = .error failure) :
    Blames .expr False tokens failure := by
  refine ((blamesAt (24 * (tokens.length + 1))).phrase .expr h).mono ?_
  simp only [Phrase.need, Phrase.cost]
  omega

end MarkupQuery.XPath
