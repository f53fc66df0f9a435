import MarkupQuery.Proofs.XPath.ParserComplete
import MarkupQuery.Proofs.XPath.Scanning

/-!
# Spelling expressions

A text spells a phrase when its tokens form it, in front of any fence.  Spelled pieces make up
larger ones: this is how a text that was written piece by piece is read as what was meant.
-/

namespace MarkupQuery.XPath

open Text (isBlank)

/-- A text spells a phrase that stands for `result`. -/
def Phrase.Spells (p : Phrase) (cs : List Char) (result : p.Result) : Prop :=
  ∃ tokens, Derives p tokens result ∧ ∀ rest more, Fence rest → Scans true rest more →
    Scans false (cs ++ rest) (tokens ++ more)

/-- A text spells predicates, which stand behind an operand. -/
def SpellsPredicates (cs : List Char) (predicates : List Expr) : Prop :=
  ∃ tokens, Derives .predicates tokens predicates ∧ ∀ rest more, Fence rest → Scans true rest more →
    Fence (cs ++ rest) ∧ Scans true (cs ++ rest) (tokens ++ more)

/-- A text between two operands, which is one token. -/
structure Separates (cs : List Char) (token : Token) : Prop where
  fence (rest : List Char) : Fence (cs ++ rest)
  scans {rest : List Char} {tokens : List Token} (h : Scans false rest tokens) :
    Scans true (cs ++ rest) (token :: tokens)

/-- A text that keeps its tokens in front of every fence has them on its own. -/
theorem scans_of_fence {cs : List Char} {tokens : List Token}
    (h : ∀ rest more, Fence rest → Scans true rest more →
      Scans false (cs ++ rest) (tokens ++ more)) : Scans false cs tokens := by
  have hscan := h [] [] fence_nil .nil
  rwa [List.append_nil, List.append_nil] at hscan

theorem parse_of_scans {source : String} {tokens : List Token} {e : Expr}
    (h : Scans false source.toList tokens) (hderives : Derives .expr tokens e) :
    parse source = .ok e := by
  obtain ⟨lexemes, hscan, rfl⟩ := scan_eq_ok_of_scans h
  exact (parse_eq_ok_of_scan hscan).2 hderives.parseTokens

theorem parse_of_spells {source : String} {e : Expr} (h : Phrase.expr.Spells source.toList e) :
    parse source = .ok e := by
  obtain ⟨tokens, hderives, hscans⟩ := h
  exact parse_of_scans (scans_of_fence hscans) hderives

/-! ## Separators -/

theorem fence_cons {c : Char} (hname : isNameChar c = false) (hblank : isBlank c = false)
    (hne : c ≠ '(' ∧ c ≠ ':') (rest : List Char) : Fence (c :: rest) := by
  refine ⟨?_, ?_⟩
  · rintro d ⟨⟩
    exact hname
  · rw [List.dropWhile_cons_of_neg (by simp [hblank])]
    rintro d ⟨⟩
    exact hne

theorem fence_space {c : Char} (hblank : isBlank c = false) (hne : c ≠ '(' ∧ c ≠ ':')
    (rest : List Char) : Fence (' ' :: c :: rest) := by
  refine ⟨?_, ?_⟩
  · rintro d ⟨⟩
    decide
  · rw [List.dropWhile_cons_of_pos (by decide), List.dropWhile_cons_of_neg (by simp [hblank])]
    rintro d ⟨⟩
    exact hne

/-- An operator that is a word, between blanks. -/
theorem separates_word (c : Char) (name : List Char) {token : Token} (hc : isNameStart c = true)
    (hname : name.all isNameChar = true) (hne : c ≠ '(' ∧ c ≠ ':')
    (hword : operatorWord? (String.ofList (c :: name)) = some token)
    (hoperand : token.endsOperand = false) :
    Separates (' ' :: c :: name ++ [' ']) token where
  fence rest := fence_space (isBlank_of_isNameStart hc) hne _
  scans {rest tokens} h := by
    have htoken : nameToken true (String.ofList (c :: name)) (' ' :: rest) = token := by
      simp only [nameToken, ↓reduceIte, hword]
    have hscan : Scans true (c :: name ++ ' ' :: rest) (token :: tokens) := by
      refine Scans.word hc (List.all_eq_true.1 hname) ?_ ?_ htoken (hoperand ▸ h.space)
      · rintro d ⟨⟩
        decide
      · rintro d behind ⟨⟩
    simpa using hscan.space

theorem separates_or : Separates [' ', 'o', 'r', ' '] .or :=
  separates_word 'o' ['r'] (by decide) (by decide) (by decide) rfl rfl

theorem separates_and : Separates [' ', 'a', 'n', 'd', ' '] .and :=
  separates_word 'a' ['n', 'd'] (by decide) (by decide) (by decide) rfl rfl

theorem separates_equal : Separates ['='] .equal where
  fence rest := fence_cons (by decide) (by decide) (by decide) rest
  scans h := Scans.symbol ['='] rfl rfl h

theorem separates_comma : Separates [',', ' '] .comma where
  fence rest := fence_cons (by decide) (by decide) (by decide) _
  scans h := Scans.symbol [','] rfl rfl h.space

theorem separates_lessEqual : Separates [' ', '<', '=', ' '] .lessEqual where
  fence rest := fence_space (by decide) (by decide) _
  scans h := (Scans.symbol ['<', '='] rfl rfl h.space).space

theorem separates_pipe : Separates [' ', '|', ' '] .pipe where
  fence rest := fence_space (by decide) (by decide) _
  scans h := (Scans.symbol ['|'] rfl rfl h.space).space

theorem separates_leftBracket : Separates ['['] .leftBracket where
  fence rest := fence_cons (by decide) (by decide) (by decide) rest
  scans h := Scans.symbol ['['] rfl rfl h

/-! ## Operators -/

/-- A path is an operand of every level, and alone all that stands at the level. -/
theorem Derives.level_of_union {tokens : List Token} {e : Expr} (h : Derives .union tokens e) :
    ∀ level, Derives (.operand level) tokens e ∧ Derives (.level level) tokens e := by
  have hmultiplicative : Derives (.operand .multiplicative) tokens e := .tightest (.positive h)
  have hadditive : Derives (.operand .additive) tokens e :=
    .tighter .additive (.single hmultiplicative)
  have hrelational : Derives (.operand .relational) tokens e :=
    .tighter .relational (.single hadditive)
  have hequality : Derives (.operand .equality) tokens e :=
    .tighter .equality (.single hrelational)
  have hand : Derives (.operand .and) tokens e := .tighter .and (.single hequality)
  have hor : Derives (.operand .or) tokens e := .tighter .or (.single hand)
  intro level
  cases level with
  | or => exact ⟨hor, .single hor⟩
  | and => exact ⟨hand, .single hand⟩
  | equality => exact ⟨hequality, .single hequality⟩
  | relational => exact ⟨hrelational, .single hrelational⟩
  | additive => exact ⟨hadditive, .single hadditive⟩
  | multiplicative => exact ⟨hmultiplicative, .single hmultiplicative⟩

theorem Derives.expr_of_path {tokens : List Token} {e : Expr} (h : Derives .path tokens e) :
    Derives .expr tokens e :=
  .expr (h.member.level_of_union .or).2

theorem Derives.expr_of_primary {tokens : List Token} {e : Expr} (h : Derives .primary tokens e) :
    Derives .expr tokens e :=
  (Derives.filter (.bare h)).expr_of_path

namespace Phrase.Spells

variable {a b : List Char} {x y : Expr} {level : Level}

theorem map {p q : Phrase} {r : p.Result} {r' : q.Result} (h : p.Spells a r)
    (hderives : ∀ tokens, Derives p tokens r → Derives q tokens r') : q.Spells a r' := by
  obtain ⟨tokens, hd, hscans⟩ := h
  exact ⟨tokens, hderives tokens hd, hscans⟩

theorem operand_of_path (h : Phrase.path.Spells a x) : (Phrase.operand level).Spells a x :=
  h.map fun _ hd => (hd.member.level_of_union level).1

theorem level_of_path (h : Phrase.path.Spells a x) : (Phrase.level level).Spells a x :=
  h.map fun _ hd => (hd.member.level_of_union level).2

theorem expr_of_union (h : Phrase.union.Spells a x) : Phrase.expr.Spells a x :=
  h.map fun _ hd => .expr (hd.level_of_union .or).2

theorem path_of_primary (h : Phrase.primary.Spells a x) : Phrase.path.Spells a x :=
  h.map fun _ hd => .filter (.bare hd)

/-- Two phrases with a token between them. -/
theorem join {p q r : Phrase} {cs : List Char} {token : Token} {u : p.Result} {v : q.Result}
    {w : r.Result} (ha : p.Spells a u) (hb : q.Spells b v) (hcs : Separates cs token)
    (hderives : ∀ ts us, Derives p ts u → Derives q us v → Derives r (ts ++ token :: us) w) :
    r.Spells (a ++ cs ++ b) w := by
  obtain ⟨ts, hts, hscansa⟩ := ha
  obtain ⟨us, hus, hscansb⟩ := hb
  refine ⟨ts ++ token :: us, hderives ts us hts hus, fun rest more hrest hmore => ?_⟩
  have hscan := hscansa _ _ (hcs.fence (b ++ rest)) (hcs.scans (hscansb rest more hrest hmore))
  simpa using hscan

theorem binary {cs : List Char} {token : Token} {op : BinaryOp}
    (ha : (Phrase.level level).Spells a x) (hb : (Phrase.operand level).Spells b y)
    (hcs : Separates cs token) (hop : Level.Operator level token op) :
    (Phrase.level level).Spells (a ++ cs ++ b) (.binary op x y) :=
  ha.join hb hcs fun _ _ hts hus => .binary hts hop hus

theorem expr_of_path (h : Phrase.path.Spells a x) : Phrase.expr.Spells a x :=
  h.map fun _ hd => hd.expr_of_path

theorem equal (ha : Phrase.path.Spells a x) (hb : Phrase.path.Spells b y) :
    (Phrase.level .and).Spells (a ++ ['='] ++ b) (.binary (.relation .equal) x y) := by
  have hequation := ha.level_of_path.binary hb.operand_of_path separates_equal .equal
  exact hequation.map fun _ hd => .single (.tighter .and hd)

theorem loosen (h : (Phrase.level .and).Spells a x) : (Phrase.level .or).Spells a x :=
  h.map fun _ hd => .single (.tighter .or hd)

theorem expr_of_relational (h : (Phrase.level .relational).Spells a x) :
    Phrase.expr.Spells a x :=
  h.map fun _ hd => .expr (.single (.tighter .or (.single (.tighter .and
    (.single (.tighter .equality hd))))))

theorem union (ha : Phrase.union.Spells a x) (hb : Phrase.path.Spells b y) :
    Phrase.union.Spells (a ++ [' ', '|', ' '] ++ b) (.union x y) :=
  ha.join hb separates_pipe fun _ _ hts hus => .union hts hus

end Phrase.Spells

/-! ## Brackets -/

theorem fence_rightParen (rest : List Char) : Fence (')' :: rest) :=
  fence_cons (by decide) (by decide) (by decide) rest

theorem fence_rightBracket (rest : List Char) : Fence (']' :: rest) :=
  fence_cons (by decide) (by decide) (by decide) rest

namespace Phrase.Spells

variable {a b : List Char} {x : Expr} {arguments : List Expr}

theorem group (h : Phrase.expr.Spells a x) : Phrase.primary.Spells ('(' :: a ++ [')']) x := by
  obtain ⟨ts, hts, hscans⟩ := h
  refine ⟨.leftParen :: ts ++ [Token.rightParen], .group hts, fun rest more hrest hmore => ?_⟩
  have hclose : Scans true (')' :: rest) (.rightParen :: more) :=
    Scans.symbol [')'] rfl rfl hmore
  have hscan := hscans _ _ (fence_rightParen rest) hclose
  have hopen : Scans false ('(' :: (a ++ ')' :: rest))
      (.leftParen :: (ts ++ .rightParen :: more)) :=
    Scans.symbol ['('] rfl rfl hscan
  simpa using hopen

/-! ### Calls -/

theorem lastArgument (h : Phrase.expr.Spells a x) :
    Phrase.arguments.Spells (a ++ [')']) [x] := by
  obtain ⟨ts, hts, hscans⟩ := h
  refine ⟨ts ++ [Token.rightParen], .lastArgument hts, fun rest more hrest hmore => ?_⟩
  have hclose : Scans true (')' :: rest) (.rightParen :: more) :=
    Scans.symbol [')'] rfl rfl hmore
  simpa using hscans _ _ (fence_rightParen rest) hclose

theorem argument (ha : Phrase.expr.Spells a x) (hb : Phrase.arguments.Spells b arguments) :
    Phrase.arguments.Spells (a ++ [',', ' '] ++ b) (x :: arguments) :=
  ha.join hb separates_comma fun _ _ hts hus => .argument hts hus

end Phrase.Spells

theorem Function.exists_toList_name (function : Function) :
    ∃ c name, function.name.toList = c :: name ∧ isNameStart c = true ∧
      name.all isNameChar = true := by
  cases function <;> exact ⟨_, _, rfl, by decide, by decide⟩

theorem tokenAt_function (function : Function) (rest : List Char) :
    tokenAt false (function.name.toList ++ '(' :: rest) =
      .ok (function.name.toList, .function function.name) := by
  obtain ⟨c, name, hlist, hc, hname⟩ := function.exists_toList_name
  have htoken : nameToken false (String.ofList (c :: name)) ('(' :: rest) =
      .function function.name := by
    rw [← hlist, String.ofList_toList]
    cases function <;> rfl
  rw [hlist, ← htoken]
  refine tokenAt_name hc (List.all_eq_true.1 hname) ?_ ?_
  · rintro d ⟨⟩
    decide
  · rintro d behind ⟨⟩

theorem Function.isBlank_head?_name (function : Function) :
    ∀ c ∈ function.name.toList.head?, isBlank c = false := by
  obtain ⟨c, name, hlist, hc, -⟩ := function.exists_toList_name
  rw [hlist]
  rintro d ⟨⟩
  exact isBlank_of_isNameStart hc

theorem Scans.function (function : Function) {rest : List Char} {tokens : List Token}
    (h : Scans false rest tokens) : Scans false (function.name.toList ++ '(' :: rest)
      (.function function.name :: .leftParen :: tokens) := by
  have hparen : Scans false ('(' :: rest) (.leftParen :: tokens) := Scans.symbol ['('] rfl rfl h
  exact Scans.token (tokenAt_function function rest) function.isBlank_head?_name hparen

namespace Phrase.Spells

variable {a : List Char} {arguments : List Expr}

theorem call (function : Function) (h : Phrase.arguments.Spells a arguments)
    (harity : function.arity.admits arguments.length = true) :
    Phrase.primary.Spells (function.name.toList ++ '(' :: a) (.call function arguments) := by
  obtain ⟨ts, hts, hscans⟩ := h
  refine ⟨.function function.name :: .leftParen :: ts, .function (.call function hts harity),
    fun rest more hrest hmore => ?_⟩
  simpa using Scans.function function (hscans rest more hrest hmore)

theorem callNone (function : Function) (harity : function.arity.admits 0 = true) :
    Phrase.primary.Spells (function.name.toList ++ ['(', ')']) (.call function []) := by
  refine ⟨[.function function.name, .leftParen, .rightParen],
    .function (.noArguments function harity), fun rest more hrest hmore => ?_⟩
  have hclose : Scans false (')' :: rest) (.rightParen :: more) :=
    Scans.symbol [')'] rfl rfl hmore
  simpa using Scans.function function hclose

end Phrase.Spells

/-! ### Predicates -/

theorem spellsPredicates_nil : SpellsPredicates [] [] :=
  ⟨[], .noPredicates, fun _ _ hrest hmore => ⟨hrest, hmore⟩⟩

theorem SpellsPredicates.cons {a b : List Char} {x : Expr} {predicates : List Expr}
    (ha : Phrase.expr.Spells a x) (hb : SpellsPredicates b predicates) :
    SpellsPredicates ('[' :: a ++ ']' :: b) (x :: predicates) := by
  obtain ⟨ts, hts, hscansa⟩ := ha
  obtain ⟨us, hus, hscansb⟩ := hb
  refine ⟨.leftBracket :: ts ++ .rightBracket :: us, .predicate hts hus,
    fun rest more hrest hmore => ⟨separates_leftBracket.fence _, ?_⟩⟩
  have hclose : Scans true (']' :: (b ++ rest)) (.rightBracket :: (us ++ more)) :=
    Scans.symbol [']'] rfl rfl (hscansb rest more hrest hmore).2
  have hscan := separates_leftBracket.scans (hscansa _ _ (fence_rightBracket _) hclose)
  simpa using hscan

theorem Phrase.Spells.filtered {a b : List Char} {x : Expr} {predicates : List Expr}
    (ha : Phrase.primary.Spells a x) (hb : SpellsPredicates b predicates) (hne : predicates ≠ []) :
    Phrase.path.Spells (a ++ b) (.filter x predicates []) := by
  obtain ⟨ts, hts, hscansa⟩ := ha
  obtain ⟨us, hus, hscansb⟩ := hb
  refine ⟨ts ++ us, .filter (.filtered hts hus hne), fun rest more hrest hmore => ?_⟩
  obtain ⟨hfence, hscan⟩ := hscansb rest more hrest hmore
  simpa using hscansa _ _ hfence hscan

/-! ## Paths -/

/-- A text that spells a node test. -/
def SpellsTest (cs : List Char) (test : NodeTest) : Prop :=
  ∃ tokens, TestTokens tokens test ∧ ∀ rest more, Fence rest → Scans true rest more →
    Scans false (cs ++ rest) (tokens ++ more)

namespace Phrase.Spells

variable {a b : List Char} {steps : List Step}

theorem childStep {test : NodeTest} {predicates : List Expr} (ha : SpellsTest a test)
    (hb : SpellsPredicates b predicates) :
    Phrase.step.Spells (a ++ b) (.mk .child test predicates) := by
  obtain ⟨ts, hts, hscansa⟩ := ha
  obtain ⟨us, hus, hscansb⟩ := hb
  refine ⟨[] ++ ts ++ us, .step .child hts hus, fun rest more hrest hmore => ?_⟩
  obtain ⟨hfence, hscan⟩ := hscansb rest more hrest hmore
  simpa using hscansa _ _ hfence hscan

theorem attributeStep {test : NodeTest} {predicates : List Expr} (ha : SpellsTest a test)
    (hb : SpellsPredicates b predicates) :
    Phrase.step.Spells ('@' :: a ++ b) (.mk .attribute test predicates) := by
  obtain ⟨ts, hts, hscansa⟩ := ha
  obtain ⟨us, hus, hscansb⟩ := hb
  refine ⟨[Token.atSign] ++ ts ++ us, .step .short hts hus, fun rest more hrest hmore => ?_⟩
  obtain ⟨hfence, hscan⟩ := hscansb rest more hrest hmore
  have hat : Scans false ('@' :: (a ++ (b ++ rest))) (.atSign :: (ts ++ (us ++ more))) :=
    Scans.symbol ['@'] rfl rfl (hscansa _ _ hfence hscan)
  simpa using hat

theorem lastStep {s : Step} (h : Phrase.step.Spells a s) : Phrase.steps.Spells a [s] :=
  h.map fun _ => .lastStep

theorem relative (h : Phrase.steps.Spells a steps) : Phrase.path.Spells a (.path false steps) :=
  h.map fun _ => .relative

theorem anywhere (h : Phrase.steps.Spells a steps) :
    Phrase.path.Spells ('/' :: '/' :: a) (.path true (.anywhere :: steps)) := by
  obtain ⟨ts, hts, hscans⟩ := h
  refine ⟨.doubleSlash :: ts, .anywhere hts, fun rest more hrest hmore => ?_⟩
  exact Scans.symbol ['/', '/'] rfl rfl (hscans rest more hrest hmore)

theorem anywhereBelow (h : Phrase.steps.Spells a steps) :
    Phrase.path.Spells ('.' :: '/' :: '/' :: a)
      (.path false (.mk .self .node [] :: .anywhere :: steps)) := by
  obtain ⟨ts, hts, hscans⟩ := h
  refine ⟨.dot :: .doubleSlash :: ts, .relative (.doubleSlash .self hts),
    fun rest more hrest hmore => ?_⟩
  have hscan : Scans true ('/' :: '/' :: (a ++ rest)) (.doubleSlash :: (ts ++ more)) :=
    Scans.symbol ['/', '/'] rfl rfl (hscans rest more hrest hmore)
  exact Scans.symbol ['.'] rfl rfl hscan

theorem parentOfRoot : Phrase.path.Spells ['/', '.', '.'] (.path true [.mk .parent .node []]) := by
  refine ⟨[.slash, .dotDot], .absolute (.lastStep .parent), fun rest more hrest hmore => ?_⟩
  have hscan : Scans false ('.' :: '.' :: rest) (.dotDot :: more) :=
    Scans.symbol ['.', '.'] rfl rfl hmore
  exact Scans.symbol ['/'] rfl rfl hscan

theorem self : Phrase.path.Spells ['.'] (.path false [.mk .self .node []]) := by
  refine ⟨[.dot], .relative (.lastStep .self), fun rest more hrest hmore => ?_⟩
  have hsymbol : symbolAt? ('.' :: rest) = some (['.'], .dot) ∧
      startsNumber ('.' :: rest) = false := by
    cases rest with
    | nil => exact ⟨rfl, rfl⟩
    | cons c rest =>
      have hc := hrest.head c rfl
      have hdot : c ≠ '.' := by
        rintro rfl
        exact absurd hc (by decide)
      refine ⟨?_, isDigit_of_not_isNameChar hc⟩
      simp [symbolAt?, symbols, Ne.symm hdot]
  exact Scans.symbol ['.'] hsymbol.1 hsymbol.2 hmore

end Phrase.Spells

/-! ### Node tests -/

theorem spellsTest_anyName : SpellsTest ['*'] .anyName :=
  ⟨[.wildcard], .anyName, fun _ _ _ hmore => hmore.wildcard⟩

theorem spellsTest_name {c : Char} {name : List Char} (hc : isNameStart c = true)
    (hname : ∀ d ∈ name, isNameChar d = true) :
    SpellsTest (c :: name) (.name (String.ofList (c :: name))) :=
  ⟨[.name (String.ofList (c :: name))], .name _, fun _ _ hrest hmore =>
    Scans.name hc hname hrest hmore⟩

theorem Scans.nodeType (type : NodeType) (c : Char) (name : List Char) {rest : List Char}
    {tokens : List Token} (hlist : type.name.toList = c :: name) (hc : isNameStart c = true)
    (hname : name.all isNameChar = true) (htype : NodeType.ofName? type.name = some type)
    (h : Scans true rest tokens) : Scans false (c :: name ++ '(' :: ')' :: rest)
      (.nodeType type :: .leftParen :: .rightParen :: tokens) := by
  have hclose : Scans false (')' :: rest) (.rightParen :: tokens) := Scans.symbol [')'] rfl rfl h
  have hparen : Scans false ('(' :: ')' :: rest) (.leftParen :: .rightParen :: tokens) :=
    Scans.symbol ['('] rfl rfl hclose
  have htoken : nameToken false (String.ofList (c :: name)) ('(' :: ')' :: rest) =
      .nodeType type := by
    rw [← hlist, String.ofList_toList]
    have hblank : ('(' :: ')' :: rest).dropWhile isBlank = '(' :: ')' :: rest :=
      List.dropWhile_cons_of_neg (by decide)
    simp [nameToken, hblank, htype]
  refine Scans.word hc (List.all_eq_true.1 hname) ?_ ?_ htoken hparen
  · rintro d ⟨⟩
    decide
  · rintro d behind ⟨⟩

theorem spellsTest_text : SpellsTest ['t', 'e', 'x', 't', '(', ')'] .text :=
  ⟨_, .text, fun _ _ _ hmore =>
    Scans.nodeType .text 't' ['e', 'x', 't'] rfl (by decide) (by decide) (by decide) hmore⟩

theorem spellsTest_comment : SpellsTest ['c', 'o', 'm', 'm', 'e', 'n', 't', '(', ')'] .comment :=
  ⟨_, .comment, fun _ _ _ hmore =>
    Scans.nodeType .comment 'c' ['o', 'm', 'm', 'e', 'n', 't'] rfl (by decide) (by decide)
      (by decide) hmore⟩

/-! ## Literals and numbers -/

theorem Phrase.Spells.literal {quote : Char} (hquote : quote = '"' ∨ quote = '\'')
    {body : List Char} (hbody : quote ∉ body) :
    Phrase.primary.Spells (quote :: body ++ [quote]) (.literal (String.ofList body)) :=
  ⟨[.literal (String.ofList body)], .literal _, fun _ _ _ hmore =>
    Scans.literal hquote hbody hmore⟩

theorem Phrase.Spells.number {digits : List Char} (hne : digits ≠ [])
    (hdigits : ∀ d ∈ digits, d.isDigit = true) :
    Phrase.primary.Spells digits (.number (Decimal.ofDigits digits [])) := by
  refine ⟨_, .number _, fun rest more hrest hmore => Scans.number hne hdigits ?_ ?_ hmore⟩
  · exact fun c hc => isDigit_of_not_isNameChar (hrest.1 c hc)
  · rintro c hc rfl
    exact absurd (hrest.1 '.' hc) (by decide)

theorem Phrase.Spells.expr_of_primary {a : List Char} {x : Expr} (h : Phrase.primary.Spells a x) :
    Phrase.expr.Spells a x :=
  h.path_of_primary.expr_of_path

end MarkupQuery.XPath
