import MarkupQuery.Proofs.XPath.ParserComplete

/-!
# Gaps in expressions

Where the tokens of one primary expression stand among the tokens of a phrase, any other primary
expression may stand: what the phrase stands for is the same but for that one place.  This holds of
tokens that no phrase can end within, which is told by the parentheses that are open there.
-/

namespace MarkupQuery.XPath

/-! ## Nesting -/

/-- How deep in parentheses one is behind a token. -/
def Token.nest (depth : Nat) : Token → Option Nat
  | leftParen => some (depth + 1)
  | rightParen => if depth = 0 then none else some (depth - 1)
  | _ => some depth

/-- How deep in parentheses one is behind tokens; nothing when more are closed than were opened. -/
def nesting (depth : Nat) (tokens : List Token) : Option Nat := tokens.foldlM Token.nest depth

@[simp] theorem nesting_nil (depth : Nat) : nesting depth [] = some depth := rfl

@[simp] theorem nesting_cons (depth : Nat) (token : Token) (ts : List Token) :
    nesting depth (token :: ts) = token.nest depth >>= (nesting · ts) := List.foldlM_cons

@[simp] theorem nesting_append (depth : Nat) (ts us : List Token) :
    nesting depth (ts ++ us) = nesting depth ts >>= (nesting · us) := List.foldlM_append

/-- The depth behind a phrase: the arguments of a call end with a parenthesis that was open. -/
@[simp] def Phrase.closing : Phrase → Nat
  | arguments => 1
  | _ => 0

theorem Level.Operator.nest_eq {level : Level} {token : Token} {op : BinaryOp}
    (h : Level.Operator level token op) (depth : Nat) : token.nest depth = some depth := by
  cases h <;> rfl

theorem Derives.nesting_eq {p : Phrase} {ts : List Token} {r : p.Result} (h : Derives p ts r)
    (depth : Nat) : nesting (depth + p.closing) ts = some depth := by
  induction h generalizing depth with
  | binary _ hop _ ihleft ihright =>
    simp only [Phrase.closing, Nat.add_zero] at ihleft ihright ⊢
    simp [ihleft, ihright, hop.nest_eq]
  | step haxis htest _ ih =>
    simp only [Phrase.closing, Nat.add_zero] at ih ⊢
    cases haxis <;> cases htest <;> simp [Token.nest, ih]
  | _ => simp_all [Token.nest]

/-- The parentheses of the tokens close one another. -/
def Balanced (ts : List Token) : Prop := ∀ depth, nesting depth ts = some depth

theorem Derives.balanced {p : Phrase} {ts : List Token} {r : p.Result} (h : Derives p ts r)
    (hp : p.closing = 0) : Balanced ts := by
  intro depth
  have hdepth := h.nesting_eq depth
  rwa [hp] at hdepth

theorem Balanced.append {ts us : List Token} (hts : Balanced ts) (hus : Balanced us) :
    Balanced (ts ++ us) := by
  intro depth
  simp [hts depth, hus depth]

theorem balanced_of_forall {ts : List Token}
    (h : ∀ token ∈ ts, ∀ depth, token.nest depth = some depth) : Balanced ts := by
  intro depth
  induction ts with
  | nil => rfl
  | cons token ts ih =>
    rw [List.forall_mem_cons] at h
    simp [h.1 depth, ih h.2]

/-! ## Blocks -/

/-- Whether a token is a literal or starts a call. -/
def Token.opensBlock : Token → Bool
  | literal _ | function _ => true
  | _ => false

/-- The tokens are those of a literal or a call, and within them one is deeper in parentheses
wherever a phrase could end. -/
structure Block (block : List Token) (x : Expr) : Prop where
  derives : Derives .primary block x
  opens : ∃ token others, block = token :: others ∧ token.opensBlock = true
  deeper {before after : List Token} {token : Token} (h : block = before ++ token :: after)
    (htoken : token.tightness ≤ 10) (depth : Nat) : nesting depth before = some (depth + 1)

variable {block B A ts us : List Token} {x : Expr} {token : Token}

theorem Block.ne_nil (h : Block block x) : block ≠ [] := by
  obtain ⟨first, others, rfl, -⟩ := h.opens
  exact List.cons_ne_nil _ _

/-- No parenthesis is closed in front of a token within a block. -/
theorem Block.not_balanced (h : Block block x) {before after : List Token}
    (hblock : block = before ++ token :: after) (htoken : token.tightness ≤ 10) :
    ¬Balanced (B ++ before) := by
  intro hbalanced
  have hdepth := hbalanced 0
  rw [nesting_append] at hdepth
  obtain ⟨depth, -, hbefore⟩ := Option.bind_eq_some_iff.1 hdepth
  rw [h.deeper hblock htoken depth] at hbefore
  cases hbefore

/-- Where a block stands among tokens: in front of a token that stands outside all parentheses, or
behind it. -/
theorem Block.split (h : Block block x) (hts : Balanced ts) (htoken : token.tightness ≤ 10)
    (heq : ts ++ token :: us = B ++ block ++ A) :
    (∃ A', ts = B ++ block ++ A' ∧ A = A' ++ token :: us) ∨
      ∃ B', B = ts ++ token :: B' ∧ us = B' ++ block ++ A := by
  rcases List.append_eq_append_iff.1 heq with ⟨c, hc, htail⟩ | ⟨c, rfl, hA⟩
  · rcases List.append_eq_append_iff.1 hc with ⟨d, rfl, rfl⟩ | ⟨d, rfl, rfl⟩
    · cases c with
      | nil => exact .inl ⟨[], by simp, htail.symm⟩
      | cons first c =>
        obtain ⟨rfl, -⟩ := List.cons.inj htail
        exact absurd hts (h.not_balanced rfl htoken)
    · cases d with
      | nil =>
        obtain ⟨first, others, rfl, -⟩ := h.opens
        obtain ⟨rfl, -⟩ := List.cons.inj htail
        have hnot : ¬Balanced (ts ++ []) := h.not_balanced rfl htoken
        rw [List.append_nil] at hnot
        exact absurd hts hnot
      | cons first d =>
        obtain ⟨rfl, rfl⟩ := List.cons.inj htail
        exact .inr ⟨d, rfl, rfl⟩
  · exact .inl ⟨c, rfl, hA⟩

/-! ## Gaps -/

/-- An expression with a gap in it that any expression may fill: an operand, an argument, a primary
expression or a predicate, at any depth. -/
inductive Gap : (Expr → Expr) → Prop where
  | here : Gap fun x => x
  | left (op : BinaryOp) (right : Expr) {C : Expr → Expr} (h : Gap C) :
      Gap fun x => .binary op (C x) right
  | right (op : BinaryOp) (left : Expr) {C : Expr → Expr} (h : Gap C) :
      Gap fun x => .binary op left (C x)
  | negate {C : Expr → Expr} (h : Gap C) : Gap fun x => .negate (C x)
  | argument (function : Function) (before after : List Expr) {C : Expr → Expr} (h : Gap C) :
      Gap fun x => .call function (before ++ C x :: after)
  | step (absolute : Bool) (front behind : List Step) (axis : Axis) (test : NodeTest)
      (before after : List Expr) {C : Expr → Expr} (h : Gap C) :
      Gap fun x => .path absolute (front ++ .mk axis test (before ++ C x :: after) :: behind)
  | primary (predicates : List Expr) (steps : List Step) {C : Expr → Expr} (h : Gap C) :
      Gap fun x => .filter (C x) predicates steps
  | predicate (primary : Expr) (before after : List Expr) (steps : List Step) {C : Expr → Expr}
      (h : Gap C) : Gap fun x => .filter primary (before ++ C x :: after) steps
  | filterStep (primary : Expr) (predicates : List Expr) (front behind : List Step) (axis : Axis)
      (test : NodeTest) (before after : List Expr) {C : Expr → Expr} (h : Gap C) :
      Gap fun x => .filter primary predicates
        (front ++ .mk axis test (before ++ C x :: after) :: behind)
  | unionLeft (right : Expr) {C : Expr → Expr} (h : Gap C) : Gap fun x => .union (C x) right
  | unionRight (left : Expr) {C : Expr → Expr} (h : Gap C) : Gap fun x => .union left (C x)

/-- Expressions with a gap in one of them. -/
def GapAmong (D : Expr → List Expr) : Prop :=
  ∃ (before after : List Expr) (C : Expr → Expr), Gap C ∧ D = fun x => before ++ C x :: after

/-- Steps with a gap in a predicate of one of them. -/
def GapOnPath (D : Expr → List Step) : Prop :=
  ∃ (front behind : List Step) (axis : Axis) (test : NodeTest) (predicates : Expr → List Expr),
    GapAmong predicates ∧ D = fun x => front ++ .mk axis test (predicates x) :: behind

namespace GapAmong

variable {D : Expr → List Expr}

theorem first {C : Expr → Expr} (h : Gap C) (others : List Expr) :
    GapAmong fun x => C x :: others := ⟨[], others, C, h, rfl⟩

theorem later (h : GapAmong D) (first : Expr) : GapAmong fun x => first :: D x := by
  obtain ⟨before, after, C, hC, rfl⟩ := h
  exact ⟨first :: before, after, C, hC, rfl⟩

/-- What fills a gap does not change the number of the expressions. -/
theorem length_eq (h : GapAmong D) (x y : Expr) : (D x).length = (D y).length := by
  obtain ⟨before, after, C, -, rfl⟩ := h
  simp only [List.length_append, List.length_cons]

theorem argument (h : GapAmong D) (function : Function) : Gap fun x => .call function (D x) := by
  obtain ⟨before, after, C, hC, rfl⟩ := h
  exact .argument function before after hC

theorem predicate (h : GapAmong D) (primary : Expr) (steps : List Step) :
    Gap fun x => .filter primary (D x) steps := by
  obtain ⟨before, after, C, hC, rfl⟩ := h
  exact .predicate primary before after steps hC

end GapAmong

namespace GapOnPath

variable {D : Expr → List Step}

theorem first {C : Expr → List Expr} (h : GapAmong C) (axis : Axis) (test : NodeTest)
    (others : List Step) : GapOnPath fun x => .mk axis test (C x) :: others :=
  ⟨[], others, axis, test, C, h, rfl⟩

theorem later (h : GapOnPath D) (first : Step) : GapOnPath fun x => first :: D x := by
  obtain ⟨front, behind, axis, test, C, hC, rfl⟩ := h
  exact ⟨first :: front, behind, axis, test, C, hC, rfl⟩

theorem path (h : GapOnPath D) (absolute : Bool) : Gap fun x => .path absolute (D x) := by
  obtain ⟨front, behind, axis, test, _, ⟨before, after, C, hC, rfl⟩, rfl⟩ := h
  exact .step absolute front behind axis test before after hC

theorem filter (h : GapOnPath D) (primary : Expr) (predicates : List Expr) :
    Gap fun x => .filter primary predicates (D x) := by
  obtain ⟨front, behind, axis, test, _, ⟨before, after, C, hC, rfl⟩, rfl⟩ := h
  exact .filterStep primary predicates front behind axis test before after hC

end GapOnPath

/-! ## Phrases with a gap -/

/-- The result of a phrase with a gap in it. -/
def Phrase.Gap : (p : Phrase) → (Expr → p.Result) → Prop
  | expr, C | level _, C | operand _, C | unary, C | union, C | path, C | filter, C | primary, C
  | call _, C => XPath.Gap C
  | arguments, C | predicates, C => GapAmong C
  | steps, C => GapOnPath C
  | step, C => ∃ (axis : Axis) (test : NodeTest) (predicates : Expr → List Expr),
      GapAmong predicates ∧ C = fun x => .mk axis test (predicates x)

/-- Between the tokens `B` and `A` of a phrase stands the expression `x`, in a gap that any primary
expression may fill. -/
def Phrase.HasGap (p : Phrase) (B A : List Token) (x : Expr) (r : p.Result) : Prop :=
  ∃ C, p.Gap C ∧ r = C x ∧ ∀ us y, Derives .primary us y → Derives p (B ++ us ++ A) (C y)

/-- A phrase that is part of a larger one, with tokens around it. -/
theorem Phrase.HasGap.within {p q : Phrase} {r : p.Result} (h : p.HasGap B A x r)
    (wrap : p.Result → q.Result) (front back : List Token)
    (hgap : ∀ C, p.Gap C → q.Gap fun y => wrap (C y))
    (hderives : ∀ C, p.Gap C → r = C x → ∀ us y, Derives p us (C y) →
      Derives q (front ++ (us ++ back)) (wrap (C y))) :
    q.HasGap (front ++ B) (A ++ back) x (wrap r) := by
  obtain ⟨C, hC, rfl, hfills⟩ := h
  refine ⟨fun y => wrap (C y), hgap C hC, rfl, fun us y hus => ?_⟩
  simpa using hderives C hC rfl _ y (hfills us y hus)

/-- Two primary expressions that tokens start with are one. -/
theorem Derives.primary_unique {e : Expr} (hblock : Derives .primary block x)
    (h : Derives .primary (block ++ A) e) : A = [] ∧ e = x := by
  have hfirst := hblock.complete A (Phrase.primary.cost + 24 * (block ++ A).length)
    (stops_of_closed A) (by rw [List.length_append]; omega)
  have hwhole := h.complete [] (Phrase.primary.cost + 24 * (block ++ A).length)
    (stops_of_closed []) (Nat.le_refl _)
  rw [List.append_nil] at hwhole
  rw [hwhole] at hfirst
  cases hfirst
  exact ⟨rfl, rfl⟩

/-! ## Places of a block -/

/-- Where a block may stand: not as the target of a processing instruction. -/
def Site (B : List Token) : Prop := ¬[.nodeType .instruction, .leftParen] <:+ B

theorem Site.of_append {B' : List Token} (h : Site (B' ++ B)) : Site B :=
  fun hsuffix => h (hsuffix.trans (List.suffix_append B' B))

theorem Site.tail (h : Site (token :: B)) : Site B :=
  fun hsuffix => h (hsuffix.trans (List.suffix_cons token B))

/-- Wherever the block stands among the tokens of a phrase, it stands in a gap. -/
def Phrase.Holds (p : Phrase) (block : List Token) (x : Expr) (ts : List Token) (r : p.Result) :
    Prop := ∀ B A, ts = B ++ block ++ A → Site B → p.HasGap B A x r

/-- A first token that is not the first of the block. -/
theorem Block.behind_first (h : Block block x) (hfirst : token.tightness ≤ 10 ∨ token = .leftParen)
    (heq : token :: ts = B ++ block ++ A) : ∃ B', B = token :: B' ∧ ts = B' ++ block ++ A := by
  cases B with
  | nil =>
    obtain ⟨first, others, rfl, hopens⟩ := h.opens
    obtain ⟨rfl, -⟩ := List.cons.inj heq
    cases token <;> simp_all [Token.opensBlock]
  | cons first B =>
    obtain ⟨rfl, hts⟩ := List.cons.inj heq
    exact ⟨B, rfl, hts⟩

namespace Phrase.Holds

variable {p p' q : Phrase} {r : p.Result} {r' : p'.Result}

/-- A phrase that is all of a larger one. -/
theorem lift (h : p.Holds block x ts r) (wrap : p.Result → q.Result)
    (hgap : ∀ C, p.Gap C → q.Gap fun y => wrap (C y))
    (hderives : ∀ us r, Derives p us r → Derives q us (wrap r)) : q.Holds block x ts (wrap r) := by
  intro B A heq hsite
  obtain ⟨C, hC, rfl, hfills⟩ := h B A heq hsite
  exact ⟨_, hgap C hC, rfl, fun us y hus => hderives _ _ (hfills us y hus)⟩

/-- A phrase behind a token. -/
theorem behind (hblock : Block block x) (h : p.Holds block x ts r)
    (hfirst : token.tightness ≤ 10 ∨ token = .leftParen) (wrap : p.Result → q.Result)
    (hgap : ∀ C, p.Gap C → q.Gap fun y => wrap (C y))
    (hderives : ∀ C, p.Gap C → r = C x → ∀ us y, Derives p us (C y) →
      Derives q (token :: us) (wrap (C y))) : q.Holds block x (token :: ts) (wrap r) := by
  intro B A heq hsite
  obtain ⟨B, rfl, rfl⟩ := hblock.behind_first hfirst heq
  have hgapped := (h B A rfl hsite.tail).within wrap [token] [] hgap fun C hC hr us y hus => by
    simpa using hderives C hC hr us y hus
  simpa using hgapped

/-- Two phrases with a token between them. -/
theorem join (hblock : Block block x) (h : p.Holds block x ts r) (h' : p'.Holds block x us r')
    (hts : Derives p ts r) (hus : Derives p' us r') (hp : p.closing = 0)
    (htoken : token.tightness ≤ 10) (wrap : p.Result → p'.Result → q.Result)
    (hleft : ∀ C, p.Gap C → q.Gap fun y => wrap (C y) r')
    (hright : ∀ C, p'.Gap C → q.Gap fun y => wrap r (C y))
    (hderives : ∀ ts us r r', Derives p ts r → Derives p' us r' →
      Derives q (ts ++ token :: us) (wrap r r')) :
    q.Holds block x (ts ++ token :: us) (wrap r r') := by
  intro B A heq hsite
  rcases hblock.split (hts.balanced hp) htoken heq with ⟨A, rfl, rfl⟩ | ⟨B, rfl, rfl⟩
  · have hgapped := (h B A rfl hsite).within (wrap · r') [] (token :: us) hleft
      fun C _ _ vs y hvs => by simpa using hderives vs us (C y) r' hvs hus
    simpa using hgapped
  · have hgapped := (h' B A rfl hsite.of_append.tail).within (wrap r) (ts ++ [token]) [] hright
      fun C _ _ vs y hvs => by simpa using hderives ts vs r (C y) hts hvs
    simpa using hgapped

end Phrase.Holds

/-- Where a block stands in a primary expression with predicates behind it: in the one or in the
others. -/
theorem Block.split_predicates (h : Block block x) {e : Expr} {predicates : List Expr}
    (hts : Derives .primary ts e) (hus : Derives .predicates us predicates)
    (heq : ts ++ us = B ++ block ++ A) :
    (∃ A', ts = B ++ block ++ A' ∧ A = A' ++ us) ∨
      ∃ B', B = ts ++ B' ∧ us = B' ++ block ++ A := by
  cases hus with
  | noPredicates => exact .inl ⟨A, by simpa using heq, by simp⟩
  | predicate hfirst hothers =>
    rw [List.cons_append] at heq
    rcases h.split (hts.balanced rfl) (by decide) heq with ⟨A', rfl, rfl⟩ | ⟨B', rfl, hus⟩
    · exact .inl ⟨A', rfl, rfl⟩
    · exact .inr ⟨.leftBracket :: B', rfl, by rw [List.cons_append, hus]; rfl⟩

namespace Phrase.Holds

variable {p q : Phrase} {r : p.Result}

/-- Tokens with no place for a block. -/
theorem of_none (hblock : Block block x) (hts : ∀ token ∈ ts, token.opensBlock = false) :
    p.Holds block x ts r := by
  intro B A heq _
  obtain ⟨first, others, rfl, hopens⟩ := hblock.opens
  rw [hts first (by simp [heq])] at hopens
  cases hopens

/-- A phrase with a closing token behind it. -/
theorem closed (hblock : Block block x) (h : p.Holds block x ts r) (hts : Derives p ts r)
    (hp : p.closing = 0) (htoken : token.tightness ≤ 10) (wrap : p.Result → q.Result)
    (hgap : ∀ C, p.Gap C → q.Gap fun y => wrap (C y)) (front : List Token)
    (hfront : ∀ B A, front ++ (ts ++ [token]) = B ++ block ++ A →
      ∃ B', B = front ++ B' ∧ ts ++ [token] = B' ++ block ++ A)
    (hderives : ∀ us r, Derives p us r → Derives q (front ++ (us ++ [token])) (wrap r)) :
    q.Holds block x (front ++ (ts ++ [token])) (wrap r) := by
  intro B A heq hsite
  obtain ⟨B, rfl, hinner⟩ := hfront B A heq
  rcases hblock.split (hts.balanced hp) htoken hinner with ⟨A, rfl, rfl⟩ | ⟨_, -, hnil⟩
  · exact (h B A rfl hsite.of_append).within wrap front [token] hgap
      fun C _ _ us y hus => hderives us (C y) hus
  · have hlength := congrArg List.length hnil
    obtain ⟨first, others, rfl, -⟩ := hblock.opens
    simp at hlength

/-- A primary expression is the block, or has it behind its first token. -/
theorem of_primary (hblock : Block block x) {e : Expr} (h : Derives .primary ts e)
    (hlater : ∀ first B A, ts = first :: B ++ block ++ A → Site (first :: B) →
      Phrase.primary.HasGap (first :: B) A x e) : Phrase.primary.Holds block x ts e := by
  intro B A heq hsite
  cases B with
  | nil =>
    -- nothing can stand behind the block, which is a primary expression on its own
    rw [List.nil_append] at heq
    subst heq
    obtain ⟨rfl, rfl⟩ := hblock.derives.primary_unique h
    exact ⟨_, .here, rfl, fun us y hus => by simpa using hus⟩
  | cons first B => exact hlater first B A heq hsite

/-- A primary expression of one token. -/
theorem of_single (hblock : Block block x) {e : Expr} (h : Derives .primary [token] e) :
    Phrase.primary.Holds block x [token] e := by
  refine .of_primary hblock h fun first B A heq _ => ?_
  rw [List.append_assoc, List.cons_append] at heq
  have hnone := (List.append_eq_nil_iff.1 (List.cons.inj heq).2.symm).2
  exact absurd (List.append_eq_nil_iff.1 hnone).1 hblock.ne_nil

theorem predicate (hblock : Block block x) {e : Expr} {predicates : List Expr}
    (hfirst : Derives .expr ts e) (hothers : Derives .predicates us predicates)
    (ihfirst : Phrase.expr.Holds block x ts e)
    (ihothers : Phrase.predicates.Holds block x us predicates) :
    Phrase.predicates.Holds block x (.leftBracket :: ts ++ .rightBracket :: us)
      (e :: predicates) := by
  intro B A heq hsite
  obtain ⟨B, rfl, hinner⟩ := hblock.behind_first (.inl (by decide)) heq
  rcases hblock.split (hfirst.balanced rfl) (by decide) hinner with ⟨A, rfl, rfl⟩ | ⟨B, rfl, rfl⟩
  · exact (ihfirst B A rfl hsite.tail).within (q := .predicates) (· :: predicates) [.leftBracket]
      (.rightBracket :: us) (fun _ h => .first h predicates) fun _ _ _ _ _ hvs => by
        simpa using Derives.predicate hvs hothers
  · have hgapped := (ihothers B A rfl hsite.tail.of_append.tail).within (q := .predicates) (e :: ·)
      (.leftBracket :: ts ++ [.rightBracket]) [] (fun _ h => GapAmong.later h e)
      fun _ _ _ _ _ hvs => by simpa using Derives.predicate hfirst hvs
    simpa using hgapped

theorem filtered (hblock : Block block x) {e : Expr} {predicates : List Expr}
    (hprimary : Derives .primary ts e) (hpredicates : Derives .predicates us predicates)
    (hne : predicates ≠ []) (ihprimary : Phrase.primary.Holds block x ts e)
    (ihpredicates : Phrase.predicates.Holds block x us predicates) :
    Phrase.filter.Holds block x (ts ++ us) (.filter e predicates []) := by
  intro B A heq hsite
  rcases hblock.split_predicates hprimary hpredicates heq with ⟨A, rfl, rfl⟩ | ⟨B, rfl, rfl⟩
  · simpa using (ihprimary B A rfl hsite).within (q := .filter)
      (fun e => .filter e predicates []) [] us (fun _ => .primary predicates [])
      fun _ _ _ _ _ hvs => by simpa using Derives.filtered hvs hpredicates hne
  · -- whatever fills the gap, there are as many predicates as before
    have hgapped := (ihpredicates B A rfl hsite.of_append).within (q := .filter)
      (fun predicates => .filter e predicates []) ts []
      (fun _ h => GapAmong.predicate h e []) fun C hC hr vs y hvs => by
        rw [List.append_nil]
        refine .filtered hprimary hvs fun hnil => hne ?_
        rw [hr, ← List.length_eq_zero_iff, GapAmong.length_eq hC x y, hnil, List.length_nil]
    simpa using hgapped

/-- A primary expression with predicates, and a path of steps behind them. -/
theorem filter_steps (hblock : Block block x) {us vs : List Token} {e : Expr}
    {predicates : List Expr} {steps : List Step} (hprimary : Derives .primary ts e)
    (hpredicates : Derives .predicates us predicates) (hsteps : Derives .steps vs steps)
    (ihprimary : Phrase.primary.Holds block x ts e)
    (ihpredicates : Phrase.predicates.Holds block x us predicates)
    (ihsteps : Phrase.steps.Holds block x vs steps) (htoken : token.tightness ≤ 10)
    (lead : List Step → List Step) (hlead : ∀ D, GapOnPath D → GapOnPath fun y => lead (D y))
    (hderives : ∀ ts us vs e predicates steps, Derives .primary ts e →
      Derives .predicates us predicates → Derives .steps vs steps →
      Derives .filter (ts ++ us ++ token :: vs) (.filter e predicates (lead steps))) :
    Phrase.filter.Holds block x (ts ++ us ++ token :: vs)
      (.filter e predicates (lead steps)) := by
  intro B A heq hsite
  have hbalanced := (hprimary.balanced rfl).append (hpredicates.balanced rfl)
  rcases hblock.split hbalanced htoken heq with ⟨A, hfront, rfl⟩ | ⟨B, rfl, rfl⟩
  · rcases hblock.split_predicates hprimary hpredicates hfront with ⟨A, rfl, rfl⟩ | ⟨B, rfl, rfl⟩
    · have hgapped := (ihprimary B A rfl hsite).within (q := .filter)
        (fun e => .filter e predicates (lead steps)) [] (us ++ token :: vs)
        (fun _ => .primary predicates (lead steps)) fun C _ _ ws y hws => by
          simpa using hderives ws us vs (C y) predicates steps hws hpredicates hsteps
      simpa using hgapped
    · have hgapped := (ihpredicates B A rfl hsite.of_append).within (q := .filter)
        (fun predicates => .filter e predicates (lead steps)) ts (token :: vs)
        (fun _ h => GapAmong.predicate h e (lead steps)) fun C _ _ ws y hws => by
          simpa using hderives ts ws vs e (C y) steps hprimary hws hsteps
      simpa using hgapped
  · have hgapped := (ihsteps B A rfl hsite.of_append.tail).within (q := .filter)
      (fun steps => .filter e predicates (lead steps)) (ts ++ us ++ [token]) []
      (fun C h => (hlead C h).filter e predicates) fun C _ _ ws y hws => by
        simpa using hderives ts us ws e predicates (C y) hprimary hpredicates hws
    simpa using hgapped

end Phrase.Holds

theorem AxisTokens.not_opensBlock {as : List Token} {axis : Axis} (h : AxisTokens as axis) :
    ∀ token ∈ as, token.opensBlock = false := by
  cases h <;> simp [Token.opensBlock]

/-- A block starts with no token of a node test, or with a target. -/
theorem TestTokens.opensBlock {test : NodeTest} (h : TestTokens ts test) :
    (∀ token ∈ ts, token.opensBlock = false) ∨
      ∃ target, ts = [.nodeType .instruction, .leftParen, .literal target, .rightParen] := by
  cases h with
  | target target => exact .inr ⟨target, rfl⟩
  | _ => exact .inl (by simp [Token.opensBlock])

theorem TestTokens.front_of_opensBlock {test : NodeTest} {others : List Token}
    (h : TestTokens (B ++ token :: others) test) (hopens : token.opensBlock = true) :
    B = [.nodeType .instruction, .leftParen] := by
  rcases h.opensBlock with hnone | ⟨target, heq⟩
  · rw [hnone token (by simp)] at hopens
    cases hopens
  · rcases B with _ | ⟨first, _ | ⟨second, _ | ⟨third, B⟩⟩⟩ <;>
      simp_all [List.append_eq_cons_iff, Token.opensBlock]

theorem Site.not_opensBlock {as ts : List Token} {axis : Axis} {test : NodeTest} {first : Token}
    {others : List Token} (hsite : Site B) (haxis : AxisTokens as axis) (htest : TestTokens ts test)
    (heq : as ++ ts = B ++ first :: others) : first.opensBlock = false := by
  by_contra hopens
  rw [Bool.not_eq_false] at hopens
  rcases List.append_eq_append_iff.1 heq with ⟨c, rfl, rfl⟩ | ⟨c, rfl, hc⟩
  · rw [htest.front_of_opensBlock hopens] at hsite
    exact hsite (List.suffix_append _ _)
  · cases c with
    | nil =>
      have htest' : TestTokens ([] ++ first :: others) test := by rwa [List.nil_append, hc]
      cases htest'.front_of_opensBlock hopens
    | cons second c =>
      obtain ⟨rfl, -⟩ := List.cons.inj hc
      rw [haxis.not_opensBlock first (by simp)] at hopens
      cases hopens

/-- A block in a step stands behind the node test. -/
theorem Block.behind_test (h : Block block x) (hsite : Site B) {as : List Token} {axis : Axis}
    {test : NodeTest} (haxis : AxisTokens as axis) (htest : TestTokens ts test)
    (heq : as ++ ts ++ us = B ++ block ++ A) :
    ∃ B', B = as ++ ts ++ B' ∧ us = B' ++ block ++ A := by
  rw [List.append_assoc B] at heq
  rcases List.append_eq_append_iff.1 heq with ⟨B', hB, hus⟩ | ⟨c, htests, hc⟩
  · exact ⟨B', hB, by rw [hus, List.append_assoc]⟩
  · cases c with
    | nil => exact ⟨[], by simpa using htests.symm, by simpa using hc.symm⟩
    | cons first c =>
      obtain ⟨token, others, rfl, hopens⟩ := h.opens
      obtain ⟨rfl, -⟩ := List.cons.inj hc
      rw [hsite.not_opensBlock haxis htest htests] at hopens
      cases hopens

theorem Level.Operator.tightness_le {level : Level} {op : BinaryOp}
    (h : Level.Operator level token op) : token.tightness ≤ 10 := by
  cases h <;> decide

/-- Wherever a block stands in a phrase, any primary expression may stand in its place. -/
theorem Derives.holds (hblock : Block block x) {p : Phrase} {r : p.Result} (h : Derives p ts r) :
    p.Holds block x ts r := by
  induction h with
  | expr _ ih => exact ih.lift (q := .expr) (fun e => e) (fun _ h => h) fun _ _ => .expr
  | @single level _ _ _ ih =>
    exact ih.lift (q := .level level) (fun e => e) (fun _ h => h) fun _ _ => .single
  | @binary level _ _ _ op _ _ hleft hop hright ihleft ihright =>
    exact .join (q := .level level) hblock ihleft ihright hleft hright rfl hop.tightness_le
      (Expr.binary op) (fun _ => .left op _) (fun _ => .right op _)
      fun _ _ _ _ h h' => .binary h hop h'
  | @tighter level _ _ _ hnext _ ih =>
    exact ih.lift (q := .operand level) (fun e => e) (fun _ h => h) fun _ _ => .tighter hnext
  | tightest _ ih =>
    exact ih.lift (q := .operand .multiplicative) (fun e => e) (fun _ h => h) fun _ _ => .tightest
  | negate _ ih =>
    exact .behind (q := .unary) hblock ih (.inl (by decide)) Expr.negate (fun _ => .negate)
      fun _ _ _ _ _ => .negate
  | positive _ ih => exact ih.lift (q := .unary) (fun e => e) (fun _ h => h) fun _ _ => .positive
  | member _ ih => exact ih.lift (q := .union) (fun e => e) (fun _ h => h) fun _ _ => .member
  | union hleft hright ihleft ihright =>
    exact .join (q := .union) hblock ihleft ihright hleft hright rfl (by decide)
      Expr.union (fun _ => .unionLeft _) (fun _ => .unionRight _) fun _ _ _ _ => .union
  | root => exact .of_none hblock (by simp [Token.opensBlock])
  | absolute _ ih =>
    exact .behind (q := .path) hblock ih (.inl (by decide)) (Expr.path true)
      (fun _ h => GapOnPath.path h true) fun _ _ _ _ _ => .absolute
  | anywhere _ ih =>
    exact .behind (q := .path) hblock ih (.inl (by decide))
      (fun steps => Expr.path true (.anywhere :: steps))
      (fun _ h => (GapOnPath.later h _).path true) fun _ _ _ _ _ => .anywhere
  | relative _ ih =>
    exact ih.lift (q := .path) (Expr.path false) (fun _ h => GapOnPath.path h false)
      fun _ _ => .relative
  | filter _ ih => exact ih.lift (q := .path) (fun e => e) (fun _ h => h) fun _ _ => .filter
  | bare _ ih => exact ih.lift (q := .filter) (fun e => e) (fun _ h => h) fun _ _ => .bare
  | filtered hprimary hpredicates hne ihprimary ihpredicates =>
    exact .filtered hblock hprimary hpredicates hne ihprimary ihpredicates
  | filterPath hprimary hpredicates hsteps ihprimary ihpredicates ihsteps =>
    exact .filter_steps hblock hprimary hpredicates hsteps ihprimary ihpredicates ihsteps
      (by decide) (fun steps => steps) (fun _ h => h) fun _ _ _ _ _ _ => .filterPath
  | filterAnywhere hprimary hpredicates hsteps ihprimary ihpredicates ihsteps =>
    exact .filter_steps hblock hprimary hpredicates hsteps ihprimary ihpredicates ihsteps
      (by decide) (.anywhere :: ·) (fun _ h => h.later _) fun _ _ _ _ _ _ => .filterAnywhere
  | group h ih =>
    exact .closed (q := .primary) hblock ih h rfl (by decide) (fun e => e) (fun _ h => h)
      [.leftParen] (fun _ _ heq => hblock.behind_first (.inr rfl) heq) fun _ _ => .group
  | literal text => exact .of_single hblock (.literal text)
  | number value => exact .of_single hblock (.number value)
  | @function name ts e h ih =>
    refine .of_primary hblock (.function h) fun first B A heq hsite => ?_
    obtain ⟨rfl, rfl⟩ := List.cons.inj heq
    simpa using (ih B A rfl hsite.tail).within (q := .primary) (fun e => e) [.function name] []
      (fun _ h => h) fun _ _ _ _ _ hus => .function (by simpa using hus)
  | noArguments => exact .of_none hblock (by simp [Token.opensBlock])
  | call function _ harity ih =>
    exact .behind (q := .call function.name) hblock ih (.inr rfl) (Expr.call function)
      (fun _ h => GapAmong.argument h function) fun C hC hr us y hus => .call function hus (by
        rw [hr] at harity
        rwa [GapAmong.length_eq hC y x])
  | lastArgument h ih =>
    exact .closed (q := .arguments) hblock ih h rfl (by decide) (fun e => [e])
      (fun _ h => .first h []) [] (fun B _ heq => ⟨B, rfl, heq⟩) fun _ _ => .lastArgument
  | argument hfirst hothers ihfirst ihothers =>
    exact .join (q := .arguments) hblock ihfirst ihothers hfirst hothers rfl (by decide)
      List.cons (fun _ h => .first h _) (fun _ h => GapAmong.later h _)
      fun _ _ _ _ => .argument
  | noPredicates => exact .of_none hblock (by simp)
  | predicate hfirst hothers ihfirst ihothers =>
    exact .predicate hblock hfirst hothers ihfirst ihothers
  | lastStep _ ih =>
    refine ih.lift (q := .steps) (fun s => [s]) ?_ fun _ _ => .lastStep
    rintro _ ⟨axis, test, predicates, h, rfl⟩
    exact .first h axis test []
  | slash hfirst hothers ihfirst ihothers =>
    refine .join (q := .steps) hblock ihfirst ihothers hfirst hothers rfl (by decide)
      List.cons ?_ (fun _ h => GapOnPath.later h _) fun _ _ _ _ => .slash
    rintro _ ⟨axis, test, predicates, h, rfl⟩
    exact .first h axis test _
  | doubleSlash hfirst hothers ihfirst ihothers =>
    refine .join (q := .steps) hblock ihfirst ihothers hfirst hothers rfl (by decide)
      (fun s steps => s :: .anywhere :: steps) ?_ (fun _ h => (GapOnPath.later h _).later _)
      fun _ _ _ _ => .doubleSlash
    rintro _ ⟨axis, test, predicates, h, rfl⟩
    exact .first h axis test _
  | self => exact .of_none hblock (by simp [Token.opensBlock])
  | parent => exact .of_none hblock (by simp [Token.opensBlock])
  | @step as ts us axis test predicates haxis htest _ ih =>
    intro B A heq hsite
    obtain ⟨B, rfl, rfl⟩ := hblock.behind_test hsite haxis htest heq
    have hgapped := (ih B A rfl hsite.of_append).within (q := .step)
      (Step.mk axis test) (as ++ ts) [] (fun C h => ⟨axis, test, C, h, rfl⟩)
      fun _ _ _ _ _ hvs => by simpa using Derives.step haxis htest hvs
    simpa using hgapped
end MarkupQuery.XPath
