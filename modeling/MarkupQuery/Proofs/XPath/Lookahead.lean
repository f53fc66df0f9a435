import MarkupQuery.Proofs.XPath.Breaks

/-!
# How far the parser looks

The parser looks at one token at a time, and what it does in front of a token does not depend on the
tokens behind it.  Two runs on tokens that start alike go on alike until they get behind the common
start, unless one of them refuses the number of arguments of a call: which functions are called
makes no other difference.
-/

namespace MarkupQuery.XPath

variable {α β : Type}

/-! ## Two runs -/

/-- The computation fails in one way or another. -/
def Fails (x : Except Failure α) : Prop := ∃ failure, x = .error failure

/-- What is left of the tokens, behind what was read or from a fault on, is their end. -/
structure Leaves (tokens : List Token) (x : Except Failure (α × List Token)) : Prop where
  ok {a : α} {rest : List Token} (h : x = .ok (a, rest)) : rest <:+ tokens
  fault {fault : SyntaxFault} {rest : List Token} (h : x = .error (.syntaxFault fault rest)) :
    rest <:+ tokens

/-- One run on tokens that end with `far`, and another on tokens that end with `far'`.  Where the
first stops in front of `far`, the second stops in front of `far'`, with alike tokens left, or
fails. -/
structure Follows (far far' : List Token) (x x' : Except Failure (α × List Token)) : Prop where
  ok {a : α} {vs : List Token} (hne : vs ≠ []) (h : x = .ok (a, vs ++ far)) :
    Fails x' ∨ ∃ a' vs', x' = .ok (a', vs' ++ far') ∧ Alike vs vs'
  fault {fault : SyntaxFault} {vs : List Token} (hne : vs ≠ [])
    (h : x = .error (.syntaxFault fault (vs ++ far))) : Fails x'

/-- Two functions of the parser look at the tokens one by one, and do alike on alike tokens. -/
structure Local (c c' : List Token → Except Failure (α × List Token)) : Prop where
  leaves (tokens : List Token) : Leaves tokens (c tokens)
  follows {us us' : List Token} (hne : us ≠ []) (h : Alike us us') (far far' : List Token) :
    Follows far far' (c (us ++ far)) (c' (us' ++ far'))

/-- What two functions do in front of a token: both take the token and go on, or both leave it to
others. -/
inductive Branch (t t' : Token) (c c' : List Token → Except Failure (α × List Token)) : Prop where
  | goesOn {d d' : List Token → Except Failure (α × List Token)} (h : Local d d')
      (hc : ∀ rest, c (t :: rest) = d rest) (hc' : ∀ rest, c' (t' :: rest) = d' rest)
  | passes {d d' : List Token → Except Failure (α × List Token)} (h : Local d d')
      (hc : ∀ rest, c (t :: rest) = d (t :: rest))
      (hc' : ∀ rest, c' (t' :: rest) = d' (t' :: rest))

namespace Branch

variable {t t' : Token} {c c' : List Token → Except Failure (α × List Token)}

/-- Both take the token, by what they do behind it. -/
theorem takes (h : Local (fun rest => c (t :: rest)) fun rest => c' (t' :: rest)) :
    Branch t t' c c' :=
  .goesOn h (fun _ => rfl) fun _ => rfl

end Branch

theorem Fails.bind {x : Except Failure α} (h : Fails x) (f : α → Except Failure β) :
    Fails (x >>= f) := by
  obtain ⟨failure, rfl⟩ := h
  exact ⟨failure, rfl⟩

namespace Local

variable {c c' : List Token → Except Failure (α × List Token)}

/-- A run that stops without a fault is followed by any other. -/
theorem silent {failure : Failure} (hc : ∀ tokens, c tokens = .error failure)
    (h : ∀ fault rest, failure ≠ .syntaxFault fault rest) : Local c c' := by
  constructor
  case leaves =>
    intro tokens
    rw [hc]
    exact ⟨fun heq => (by cases heq), fun heq => absurd (Except.error.inj heq) (h _ _)⟩
  case follows =>
    intro us us' _ _ far far'
    rw [hc]
    exact ⟨fun _ heq => (by cases heq), fun _ heq => absurd (Except.error.inj heq) (h _ _)⟩

/-- A run that fails follows any other. -/
theorem of_fails (hleaves : ∀ tokens, Leaves tokens (c tokens))
    (hfails : ∀ tokens, Fails (c' tokens)) : Local c c' :=
  ⟨hleaves, fun _ _ _ _ => ⟨fun _ _ => .inl (hfails _), fun _ _ => hfails _⟩⟩

theorem ok (a a' : α) : Local (fun rest => .ok (a, rest)) fun rest => .ok (a', rest) := by
  constructor
  case leaves =>
    intro tokens
    refine ⟨fun heq => ?_, fun heq => (by cases heq)⟩
    cases heq
    exact List.suffix_refl _
  case follows =>
    intro us us' _ h far far'
    refine ⟨fun _ heq => .inr ⟨a', us', rfl, ?_⟩, fun _ heq => (by cases heq)⟩
    rw [Except.ok.injEq, Prod.mk.injEq] at heq
    rwa [← List.append_cancel_right heq.2]

theorem fault (fault fault' : SyntaxFault) :
    Local (fun rest => (.error (.syntaxFault fault rest) : Except Failure (α × List Token)))
      fun rest => .error (.syntaxFault fault' rest) := by
  refine of_fails (fun tokens => ⟨fun heq => (by cases heq), fun heq => ?_⟩) fun tokens => ⟨_, rfl⟩
  cases heq
  exact List.suffix_refl _

theorem bind {f f' : α × List Token → Except Failure (β × List Token)} (hc : Local c c')
    (hf : ∀ a a', Local (fun rest => f (a, rest)) fun rest => f' (a', rest)) :
    Local (fun tokens => c tokens >>= f) fun tokens => c' tokens >>= f' := by
  constructor
  case leaves =>
    intro tokens
    constructor
    case ok =>
      intro b rest h
      obtain ⟨⟨a, between⟩, ha, hb⟩ := bind_eq_ok.1 h
      exact (((hf a a).leaves between).ok hb).trans ((hc.leaves tokens).ok ha)
    case fault =>
      intro fault rest h
      rcases bind_eq_error.1 h with h | ⟨⟨a, between⟩, ha, hb⟩
      · exact (hc.leaves tokens).fault h
      · exact (((hf a a).leaves between).fault hb).trans ((hc.leaves tokens).ok ha)
  case follows =>
    intro us us' hne halike far far'
    have hfollows := hc.follows hne halike far far'
    -- what the first part leaves ends with what the second part leaves
    have hbetween {a : α} {between vs : List Token} (hvs : vs ≠ [])
        (ha : c (us ++ far) = .ok (a, between)) (hsuffix : vs ++ far <:+ between) :
        ∃ ws, between = ws ++ far ∧ ws ≠ [] := by
      obtain ⟨zs, rfl⟩ := hsuffix
      exact ⟨zs ++ vs, (List.append_assoc zs vs far).symm, by simp [hvs]⟩
    constructor
    case ok =>
      intro b vs hvs h
      obtain ⟨⟨a, between⟩, ha, hb⟩ := bind_eq_ok.1 h
      obtain ⟨ws, rfl, hws⟩ := hbetween hvs ha (((hf a a).leaves between).ok hb)
      rcases hfollows.ok hws ha with hfails | ⟨a', ws', ha', hws'⟩
      · exact .inl (hfails.bind _)
      · rw [ha', bind_ok]
        exact ((hf a a').follows hws hws' far far').ok hvs hb
    case fault =>
      intro fault vs hvs h
      rcases bind_eq_error.1 h with h | ⟨⟨a, between⟩, ha, hb⟩
      · exact (hfollows.fault hvs h).bind _
      · obtain ⟨ws, rfl, hws⟩ := hbetween hvs ha (((hf a a).leaves between).fault hb)
        rcases hfollows.ok hws ha with hfails | ⟨a', ws', ha', hws'⟩
        · exact hfails.bind _
        · rw [ha', bind_ok]
          exact ((hf a a').follows hws hws' far far').fault hvs hb

/-- Functions one after another, where what the first reads is put into the second. -/
theorem andThen {f f' : α → List Token → Except Failure (β × List Token)} (hc : Local c c')
    (hf : ∀ a a', Local (f a) (f' a')) :
    Local (fun tokens => c tokens >>= fun r => f r.1 r.2) fun tokens =>
      c' tokens >>= fun r => f' r.1 r.2 :=
  hc.bind hf

/-- Functions that look at the first token. -/
theorem of_head (hnil : Leaves [] (c [])) (hsame : ∀ t, Branch t t c c')
    (hcall : ∀ f g : Function, Branch (.function f.name) (.function g.name) c c') : Local c c' := by
  have branch (t t' : Token) (h : t.Like t') : Branch t t' c c' := by
    cases h with
    | same => exact hsame t
    | function f g => exact hcall f g
  constructor
  case leaves =>
    intro tokens
    cases tokens with
    | nil => exact hnil
    | cons t rest =>
      cases hsame t with
      | @goesOn d d' h hc _ =>
        rw [hc]
        have hsuffix := List.suffix_cons t rest
        exact ⟨fun heq => ((h.leaves rest).ok heq).trans hsuffix,
          fun heq => ((h.leaves rest).fault heq).trans hsuffix⟩
      | passes h hc _ =>
        rw [hc]
        exact h.leaves (t :: rest)
  case follows =>
    intro us us' hne halike far far'
    cases halike with
    | nil => exact absurd rfl hne
    | @cons t t' us us' ht hus =>
      rw [List.cons_append, List.cons_append]
      cases branch t t' ht with
      | @goesOn d d' h hc hc' =>
        rw [hc, hc']
        cases us with
        | nil =>
          -- the common start is at its end, and the first run goes behind it
          have hnot {vs : List Token} (hvs : vs ≠ []) (hsuffix : vs ++ far <:+ [] ++ far) :
              False := by
            have hlength := hsuffix.length_le
            rw [List.nil_append, List.length_append] at hlength
            have hpos := List.length_pos_iff.2 hvs
            omega
          exact ⟨fun hvs heq => (hnot hvs ((h.leaves _).ok heq)).elim,
            fun hvs heq => (hnot hvs ((h.leaves _).fault heq)).elim⟩
        | cons => exact h.follows (List.cons_ne_nil _ _) hus far far'
      | passes h hc hc' =>
        rw [hc, hc']
        exact h.follows (List.cons_ne_nil _ _) (.cons ht hus) far far'

/-- Functions that look at the first token and do not care for names of functions. -/
theorem of_token {d d' : List Token → Except Failure (α × List Token)} (h : Local d d')
    (hnil : Leaves [] (c []))
    (hcall : ∀ name rest, c (.function name :: rest) = d (.function name :: rest) ∧
      c' (.function name :: rest) = d' (.function name :: rest))
    (hsame : ∀ t, Branch t t c c') : Local c c' :=
  of_head hnil hsame fun f g =>
    .passes h (fun rest => (hcall f.name rest).1) fun rest => (hcall g.name rest).2

end Local

theorem Leaves.stays (a : α) : Leaves [] (.ok (a, [])) :=
  (Local.ok a a).leaves []

theorem Leaves.faults (fault : SyntaxFault) :
    Leaves [] (.error (.syntaxFault fault []) : Except Failure (α × List Token)) :=
  (Local.fault fault fault).leaves []

/-! ## Node tests and axes -/

theorem local_parseNodeType (type : NodeType) :
    Local (parseNodeType type) (parseNodeType type) := by
  have targeted (target : String) : Local
      (fun rest => parseNodeType .instruction (.literal target :: rest))
      fun rest => parseNodeType .instruction (.literal target :: rest) := by
    refine .of_token (.fault _ _) (.faults _) (fun _ _ => ⟨rfl, rfl⟩) fun t => ?_
    cases t
    case rightParen => exact .takes (.ok _ _)
    all_goals exact .passes (.fault _ _) (fun _ => rfl) fun _ => rfl
  cases type
  case instruction =>
    refine .of_token (.fault _ _) (.faults _) (fun _ _ => ⟨rfl, rfl⟩) fun t => ?_
    cases t
    case rightParen => exact .takes (.ok _ _)
    case literal target => exact .takes (targeted target)
    all_goals exact .passes (.fault _ _) (fun _ => rfl) fun _ => rfl
  all_goals
    refine .of_token (.fault _ _) (.faults _) (fun _ _ => ⟨rfl, rfl⟩) fun t => ?_
    cases t
    case rightParen => exact .takes (.ok _ _)
    all_goals exact .passes (.fault _ _) (fun _ => rfl) fun _ => rfl

theorem local_parseNodeTest : Local parseNodeTest parseNodeTest := by
  have opening (type : NodeType) : Local (fun rest => parseNodeTest (.nodeType type :: rest))
      fun rest => parseNodeTest (.nodeType type :: rest) := by
    refine .of_token (.fault _ _) (.faults _) (fun _ _ => ⟨rfl, rfl⟩) fun t => ?_
    cases t
    case leftParen => exact .takes (local_parseNodeType type)
    all_goals exact .passes (.fault _ _) (fun _ => rfl) fun _ => rfl
  refine .of_token (.fault _ _) (.faults _) (fun _ _ => ⟨rfl, rfl⟩) fun t => ?_
  cases t
  case wildcard => exact .takes (.ok _ _)
  case name text => exact .takes (.ok _ _)
  case nodeType type => exact .takes (opening type)
  all_goals exact .passes (.fault _ _) (fun _ => rfl) fun _ => rfl

theorem branch_parseAxis (name : String) :
    Branch (.axis name) (.axis name) parseAxis parseAxis := by
  cases haxis : Axis.ofName? name with
  | none =>
    by_cases hnamespace : (name == "namespace") = true
    · have hrefused (rest : List Token) : parseAxis (.axis name :: rest) =
          .error (.refused (.unsupported .namespaceAxis)) := by
        simp only [parseAxis, haxis, if_pos hnamespace]
      exact .takes (.silent hrefused (by simp))
    · have hfault (rest : List Token) : parseAxis (.axis name :: rest) =
          .error (.syntaxFault (.unknownAxis name) (.axis name :: rest)) := by
        simp only [parseAxis, haxis, if_neg hnamespace]
      exact .passes (.fault _ _) hfault hfault
  | some axis =>
    have hdoubled (rest : List Token) : parseAxis (.axis name :: .colonColon :: rest) =
        .ok (axis, rest) := by
      simp only [parseAxis, haxis]
    have hmissing (rest : List Token) (hrest : ∀ more, rest ≠ .colonColon :: more) :
        parseAxis (.axis name :: rest) = missing .colonColon rest := by
      simp only [parseAxis, haxis]
    have named : Local (fun rest => parseAxis (.axis name :: rest))
        fun rest => parseAxis (.axis name :: rest) := by
      refine .of_token (.fault _ _) ?_ (fun _ _ => ⟨hmissing _ (by simp), hmissing _ (by simp)⟩)
        fun t => ?_
      · rw [hmissing [] (by simp)]
        exact .faults _
      · cases t
        case colonColon => exact .goesOn (.ok axis axis) hdoubled hdoubled
        all_goals exact .passes (.fault _ _) (fun _ => hmissing _ (by simp)) fun _ =>
          hmissing _ (by simp)
    exact .takes named

theorem local_parseAxis : Local parseAxis parseAxis := by
  refine .of_token (.ok _ _) (.stays _) (fun _ _ => ⟨rfl, rfl⟩) fun t => ?_
  cases t
  case atSign => exact .takes (.ok _ _)
  case axis name => exact branch_parseAxis name
  all_goals exact .passes (.ok _ _) (fun _ => rfl) fun _ => rfl

/-! ## One function after another -/

/-- The functions of the parser look at the tokens one by one, at two bounds on the recursion. -/
structure LocalAt (fuel fuel' : Nat) : Prop where
  phrase (p : Phrase) : Local (p.parse fuel) (p.parse fuel')
  call (f g : Function) : Local (parseCall fuel f.name) (parseCall fuel' g.name)
  operators (level : Level) (left left' : Expr) :
    Local (parseOperators fuel level left) (parseOperators fuel' level left')
  members (left left' : Expr) : Local (parseUnion fuel left) (parseUnion fuel' left')

namespace LocalAt

variable {fuel fuel' : Nat}

theorem expr (ih : LocalAt fuel fuel') : Local (parseExpr (fuel + 1)) (parseExpr (fuel' + 1)) :=
  ih.phrase (.level .or)

theorem level (ih : LocalAt fuel fuel') (l : Level) :
    Local (parseLevel (fuel + 1) l) (parseLevel (fuel' + 1) l) :=
  (ih.phrase (.operand l)).andThen fun left left' => ih.operators l left left'

theorem operand (ih : LocalAt fuel fuel') (l : Level) :
    Local (parseOperand (fuel + 1) l) (parseOperand (fuel' + 1) l) := by
  cases l
  case multiplicative => exact ih.phrase .unary
  all_goals exact ih.phrase (.level _)

theorem operators_succ (ih : LocalAt fuel fuel') (l : Level) (left left' : Expr) :
    Local (parseOperators (fuel + 1) l left) (parseOperators (fuel' + 1) l left') := by
  refine .of_token (.ok left left') (.stays _) (fun _ _ => by cases l <;> exact ⟨rfl, rfl⟩)
    fun t => ?_
  cases hop : l.operator? t with
  | none =>
    refine .passes (.ok left left') (fun rest => ?_) fun rest => ?_ <;>
      simp only [parseOperators, hop]
  | some op =>
    refine .goesOn ((ih.phrase (.operand l)).andThen fun right right' =>
      ih.operators l (.binary op left right) (.binary op left' right')) (fun rest => ?_)
      fun rest => ?_ <;> simp only [parseOperators, hop] <;> rfl

theorem unary (ih : LocalAt fuel fuel') :
    Local (parseUnary (fuel + 1)) (parseUnary (fuel' + 1)) := by
  have union := ih.phrase .union
  refine .of_token union (union.leaves []) (fun _ _ => ⟨rfl, rfl⟩) fun t => ?_
  cases t
  case minus =>
    exact .takes ((ih.phrase .unary).andThen fun e e' => .ok (Expr.negate e) (Expr.negate e'))
  all_goals exact .passes union (fun _ => rfl) fun _ => rfl

theorem members_succ (ih : LocalAt fuel fuel') (left left' : Expr) :
    Local (parseUnion (fuel + 1) left) (parseUnion (fuel' + 1) left') := by
  refine .of_token (.ok left left') (.stays _) (fun _ _ => ⟨rfl, rfl⟩) fun t => ?_
  cases t
  case pipe =>
    exact .takes ((ih.phrase .path).andThen fun right right' =>
      ih.members (.union left right) (.union left' right'))
  all_goals exact .passes (.ok left left') (fun _ => rfl) fun _ => rfl

theorem path (ih : LocalAt fuel fuel') : Local (parsePath (fuel + 1)) (parsePath (fuel' + 1)) := by
  have steps (absolute : Bool) (front : List Step) : Local
      (fun tokens => parseSteps fuel tokens >>= fun r =>
        .ok (Expr.path absolute (front ++ r.1), r.2))
      fun tokens => parseSteps fuel' tokens >>= fun r => .ok (.path absolute (front ++ r.1), r.2) :=
    (ih.phrase .steps).andThen fun steps steps' =>
      .ok (Expr.path absolute (front ++ steps)) (Expr.path absolute (front ++ steps'))
  have root : Local
      (fun tokens => if startsStep tokens then
        parseSteps fuel tokens >>= fun r => .ok (Expr.path true r.1, r.2)
        else .ok (.path true [], tokens))
      fun tokens => if startsStep tokens then
        parseSteps fuel' tokens >>= fun r => .ok (.path true r.1, r.2)
        else .ok (.path true [], tokens) := by
    refine .of_token (.ok _ _) (.stays _) (fun _ _ => ⟨rfl, rfl⟩) fun t => ?_
    cases t
    all_goals first
      | exact .passes (.ok _ _) (fun _ => rfl) fun _ => rfl
      | exact .passes (steps true []) (fun _ => rfl) fun _ => rfl
  have filter := ih.phrase .filter
  refine .of_token filter (.faults _) (fun _ _ => ⟨rfl, rfl⟩) fun t => ?_
  cases t
  case leftParen | literal | number | function | variableRef =>
    exact .passes filter (fun _ => rfl) fun _ => rfl
  case slash => exact .takes root
  case doubleSlash => exact .takes (steps true [.anywhere])
  case dot | dotDot | atSign | axis | name | wildcard | nodeType =>
    exact .passes (steps false []) (fun _ => rfl) fun _ => rfl
  all_goals exact .passes (.fault _ _) (fun _ => rfl) fun _ => rfl

theorem filter (ih : LocalAt fuel fuel') :
    Local (parseFilter (fuel + 1)) (parseFilter (fuel' + 1)) := by
  show Local (fun tokens => parseFilter (fuel + 1) tokens)
    fun tokens => parseFilter (fuel' + 1) tokens
  simp only [parseFilter]
  refine (ih.phrase .primary).bind fun e e' => ?_
  dsimp only
  refine (ih.phrase .predicates).bind fun es es' => ?_
  have plain : Local
      (fun rest => .ok (if es.isEmpty then e else Expr.filter e es [], rest))
      fun rest => .ok (if es'.isEmpty then e' else Expr.filter e' es' [], rest) := .ok _ _
  refine .of_token plain (.stays _) (fun _ _ => ⟨rfl, rfl⟩) fun t => ?_
  cases t
  case slash =>
    exact .takes ((ih.phrase .steps).andThen fun steps steps' =>
      .ok (Expr.filter e es steps) (Expr.filter e' es' steps'))
  case doubleSlash =>
    exact .takes ((ih.phrase .steps).andThen fun steps steps' =>
      .ok (Expr.filter e es (.anywhere :: steps)) (Expr.filter e' es' (.anywhere :: steps')))
  all_goals exact .passes plain (fun _ => rfl) fun _ => rfl

theorem primary (ih : LocalAt fuel fuel') :
    Local (parsePrimary (fuel + 1)) (parsePrimary (fuel' + 1)) := by
  have group : Local (fun rest => parsePrimary (fuel + 1) (.leftParen :: rest))
      fun rest => parsePrimary (fuel' + 1) (.leftParen :: rest) := by
    simp only [parsePrimary]
    refine (ih.phrase .expr).bind fun e e' => ?_
    refine .of_token (.fault _ _) (.faults _) (fun _ _ => ⟨rfl, rfl⟩) fun t => ?_
    cases t
    case rightParen => exact .takes (.ok e e')
    all_goals exact .passes (.fault _ _) (fun _ => rfl) fun _ => rfl
  refine .of_head (.faults _) (fun t => ?_) fun f g => .takes (ih.call f g)
  cases t
  case leftParen => exact .takes group
  case literal text => exact .takes (.ok _ _)
  case number value => exact .takes (.ok _ _)
  case function name => exact .takes (ih.phrase (.call name))
  case variableRef name =>
    have hrefused (rest : List Token) : parsePrimary (fuel + 1) (.variableRef name :: rest) =
        .error (.refused (.unsupported (.variableReference name))) := rfl
    exact .takes (.silent hrefused (by simp))
  all_goals exact .passes (.fault _ _) (fun _ => rfl) fun _ => rfl

theorem call_succ (ih : LocalAt fuel fuel') (f g : Function) :
    Local (parseCall (fuel + 1) f.name) (parseCall (fuel' + 1) g.name) := by
  have finish (es es' : List Expr) : Local
      (fun rest => if f.arity.admits es.length then .ok (Expr.call f es, rest)
        else .error (.refused (.arity f.name f.arity.text es.length)))
      fun rest => if g.arity.admits es'.length then .ok (.call g es', rest)
        else .error (.refused (.arity g.name g.arity.text es'.length)) := by
    split_ifs
    · exact .ok _ _
    · exact .of_fails (Local.ok _ (Expr.call f es)).leaves fun _ => ⟨_, rfl⟩
    · exact .silent (fun _ => rfl) (by simp)
    · exact .silent (fun _ => rfl) (by simp)
  have opened : Local (fun rest => parseCall (fuel + 1) f.name (.leftParen :: rest))
      fun rest => parseCall (fuel' + 1) g.name (.leftParen :: rest) := by
    simp only [parseCall, Function.ofName?_name]
    have arguments := (ih.phrase .arguments).andThen finish
    refine .of_token arguments (arguments.leaves []) (fun _ _ => ⟨rfl, rfl⟩) fun t => ?_
    cases t
    case rightParen => exact .takes (finish [] [])
    all_goals exact .passes arguments (fun _ => rfl) fun _ => rfl
  show Local (fun tokens => parseCall (fuel + 1) f.name tokens)
    fun tokens => parseCall (fuel' + 1) g.name tokens
  simp only [parseCall, Function.ofName?_name] at opened ⊢
  refine .of_token (.fault _ _) (.faults _) (fun _ _ => ⟨rfl, rfl⟩) fun t => ?_
  cases t
  case leftParen => exact .takes opened
  all_goals exact .passes (.fault _ _) (fun _ => rfl) fun _ => rfl

theorem call_same (ih : LocalAt fuel fuel') (name : String) :
    Local (parseCall (fuel + 1) name) (parseCall (fuel' + 1) name) := by
  cases hfunction : Function.ofName? name with
  | none =>
    have hrefused (tokens : List Token) : parseCall (fuel + 1) name tokens =
        .error (.refused (.unknownFunction name)) := by
      simp only [parseCall, hfunction]
    exact .silent hrefused (by simp)
  | some function =>
    obtain rfl := Function.name_eq_of_ofName? hfunction
    exact ih.call_succ function function

theorem arguments (ih : LocalAt fuel fuel') :
    Local (parseArguments (fuel + 1)) (parseArguments (fuel' + 1)) := by
  show Local (fun tokens => parseArguments (fuel + 1) tokens)
    fun tokens => parseArguments (fuel' + 1) tokens
  simp only [parseArguments]
  refine (ih.phrase .expr).bind fun e e' => ?_
  refine .of_token (.fault _ _) (.faults _) (fun _ _ => ⟨rfl, rfl⟩) fun t => ?_
  cases t
  case comma =>
    exact .takes ((ih.phrase .arguments).andThen fun es es' => .ok (e :: es) (e' :: es'))
  case rightParen => exact .takes (.ok [e] [e'])
  all_goals exact .passes (.fault _ _) (fun _ => rfl) fun _ => rfl

theorem predicates (ih : LocalAt fuel fuel') :
    Local (parsePredicates (fuel + 1)) (parsePredicates (fuel' + 1)) := by
  have first : Local (fun rest => parsePredicates (fuel + 1) (.leftBracket :: rest))
      fun rest => parsePredicates (fuel' + 1) (.leftBracket :: rest) := by
    simp only [parsePredicates]
    refine (ih.phrase .expr).bind fun e e' => ?_
    refine .of_token (.fault _ _) (.faults _) (fun _ _ => ⟨rfl, rfl⟩) fun t => ?_
    cases t
    case rightBracket =>
      exact .takes ((ih.phrase .predicates).andThen fun es es' => .ok (e :: es) (e' :: es'))
    all_goals exact .passes (.fault _ _) (fun _ => rfl) fun _ => rfl
  refine .of_token (.ok [] []) (.stays _) (fun _ _ => ⟨rfl, rfl⟩) fun t => ?_
  cases t
  case leftBracket => exact .takes first
  all_goals exact .passes (.ok [] []) (fun _ => rfl) fun _ => rfl

theorem steps (ih : LocalAt fuel fuel') :
    Local (parseSteps (fuel + 1)) (parseSteps (fuel' + 1)) := by
  show Local (fun tokens => parseSteps (fuel + 1) tokens)
    fun tokens => parseSteps (fuel' + 1) tokens
  simp only [parseSteps]
  refine (ih.phrase .step).bind fun s s' => ?_
  refine .of_token (.ok [s] [s']) (.stays _) (fun _ _ => ⟨rfl, rfl⟩) fun t => ?_
  cases t
  case slash =>
    exact .takes ((ih.phrase .steps).andThen fun ss ss' => .ok (s :: ss) (s' :: ss'))
  case doubleSlash =>
    exact .takes ((ih.phrase .steps).andThen fun ss ss' =>
      .ok (s :: .anywhere :: ss) (s' :: .anywhere :: ss'))
  all_goals exact .passes (.ok [s] [s']) (fun _ => rfl) fun _ => rfl

theorem step (ih : LocalAt fuel fuel') : Local (parseStep (fuel + 1)) (parseStep (fuel' + 1)) := by
  have full : Local
      (fun tokens => parseAxis tokens >>= fun r => parseNodeTest r.2 >>= fun s =>
        parsePredicates fuel s.2 >>= fun es => .ok (Step.mk r.1 s.1 es.1, es.2))
      fun tokens => parseAxis tokens >>= fun r => parseNodeTest r.2 >>= fun s =>
        parsePredicates fuel' s.2 >>= fun es => .ok (Step.mk r.1 s.1 es.1, es.2) := by
    refine local_parseAxis.bind fun axis axis' => ?_
    dsimp only
    refine local_parseNodeTest.bind fun test test' => ?_
    exact (ih.phrase .predicates).andThen fun es es' =>
      .ok (Step.mk axis test es) (Step.mk axis' test' es')
  refine .of_token full (full.leaves []) (fun _ _ => ⟨rfl, rfl⟩) fun t => ?_
  cases t
  case dot => exact .takes (.ok _ _)
  case dotDot => exact .takes (.ok _ _)
  all_goals exact .passes full (fun _ => rfl) fun _ => rfl

/-- The functions look at the tokens one by one if those that they call do, which have smaller
bounds on the recursion. -/
theorem succ (ih : LocalAt fuel fuel') : LocalAt (fuel + 1) (fuel' + 1) := by
  constructor
  case call => exact ih.call_succ
  case operators => exact ih.operators_succ
  case members => exact ih.members_succ
  case phrase =>
    intro p
    cases p with
    | expr => exact ih.expr
    | level l => exact ih.level l
    | operand l => exact ih.operand l
    | unary => exact ih.unary
    | union => exact ih.path.andThen ih.members_succ
    | path => exact ih.path
    | filter => exact ih.filter
    | primary => exact ih.primary
    | call name => exact ih.call_same name
    | arguments => exact ih.arguments
    | predicates => exact ih.predicates
    | steps => exact ih.steps
    | step => exact ih.step

end LocalAt

theorem localAt (fuel fuel' : Nat) : LocalAt fuel fuel' := by
  induction fuel generalizing fuel' with
  | zero =>
    constructor
    case phrase => exact fun p => .silent p.parse_zero (by simp)
    case call => exact fun f _ => .silent (fun _ => rfl) (by simp)
    case operators => exact fun _ _ _ => .silent (fun _ => rfl) (by simp)
    case members => exact fun _ _ => .silent (fun _ => rfl) (by simp)
  | succ fuel ih =>
    cases fuel' with
    | succ fuel' => exact (ih fuel').succ
    | zero =>
      -- the second run fails at once
      have hself := (ih fuel).succ
      constructor
      case phrase => exact fun p => .of_fails (hself.phrase p).leaves fun _ => ⟨_, p.parse_zero _⟩
      case call => exact fun f _ => .of_fails (hself.call f f).leaves fun _ => ⟨_, rfl⟩
      case operators =>
        exact fun l left _ => .of_fails (hself.operators l left left).leaves fun _ => ⟨_, rfl⟩
      case members =>
        exact fun left _ => .of_fails (hself.members left left).leaves fun _ => ⟨_, rfl⟩

theorem exists_append_of_alike {us vs whole : List Token} (h : Alike (us ++ vs) whole) :
    ∃ us' vs', whole = us' ++ vs' ∧ Alike us us' := by
  have htake := List.forall₂_take us.length h
  rw [List.take_left] at htake
  exact ⟨_, _, (List.take_append_drop us.length whole).symm, htake⟩

/-- No expression starts with tokens up to one that the parser finds a fault at or leaves over, with
whatever numbers of arguments. -/
theorem not_formed_of_stops {fuel : Nat} {before rest : List Token} {token : Token}
    (h : (∃ fault, parseExpr fuel (before ++ token :: rest) =
        .error (.syntaxFault fault (token :: rest))) ∨
      ∃ e, parseExpr fuel (before ++ token :: rest) = .ok (e, token :: rest)) (more : List Token) :
    ¬ Formed .expr (before ++ token :: more) := by
  intro hformed
  obtain ⟨whole, halike, e', hderives⟩ := hformed.exists_derives
  have hstart : Alike (before ++ [token] ++ more) whole := by
    rw [← List.append_cons]
    exact halike
  obtain ⟨us, vs, rfl, hus⟩ := exists_append_of_alike hstart
  -- the parser reads the other tokens to their end
  have hread : parseExpr (18 + 24 * (us ++ vs).length) (us ++ vs) = .ok (e', []) := by
    have hcomplete :=
      hderives.complete [] (18 + 24 * (us ++ vs).length) (stops_nil _) (Nat.le_refl _)
    rwa [List.append_nil] at hcomplete
  have hnot : ¬ Fails (parseExpr (18 + 24 * (us ++ vs).length) (us ++ vs)) := by
    rintro ⟨failure, hfailure⟩
    rw [hread] at hfailure
    cases hfailure
  have hfollows := ((localAt fuel (18 + 24 * (us ++ vs).length)).phrase .expr).follows
    (by simp) hus rest vs
  rw [← List.append_cons] at hfollows
  have hne : [token] ≠ [] := List.cons_ne_nil _ _
  rcases h with ⟨fault, h⟩ | ⟨e, h⟩
  · exact hnot (hfollows.fault hne h)
  · rcases hfollows.ok hne h with hfails | ⟨a, ws, hok, hws⟩
    · exact hnot hfails
    · cases hws with
      | cons _ _ =>
        have hsame := hread.symm.trans hok
        cases hsame

end MarkupQuery.XPath
