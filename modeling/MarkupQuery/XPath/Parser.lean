import MarkupQuery.XPath.Expr
import MarkupQuery.XPath.Lexeme

/-!
# Reading expressions

A parser by recursive descent, one function for each kind of phrase.  The six levels of binary
operators are one function with the level as its argument.  Each function takes the tokens that are
left and gives back what it read and what is left then; `fuel` bounds the depth of the recursion,
and `parseTokens` starts with more than any expression of that many tokens can use.
-/

namespace MarkupQuery.XPath

/-- The levels of binary operators, from the loosest to the tightest. -/
inductive Level where
  | or
  | and
  | equality
  | relational
  | additive
  | multiplicative
  deriving DecidableEq, Repr

namespace Level

/-- The next tighter level, if the operands of this one are not unary expressions yet. -/
def next? : Level → Option Level
  | or => some and
  | and => some equality
  | equality => some relational
  | relational => some additive
  | additive => some multiplicative
  | multiplicative => none

/-- The operator of a level that a token stands for. -/
def operator? : Level → Token → Option BinaryOp
  | or, .or => some .or
  | and, .and => some .and
  | equality, .equal => some (.relation .equal)
  | equality, .notEqual => some (.relation .notEqual)
  | relational, .less => some (.relation .less)
  | relational, .lessEqual => some (.relation .lessEqual)
  | relational, .greater => some (.relation .greater)
  | relational, .greaterEqual => some (.relation .greaterEqual)
  | additive, .plus => some (.arithmetic .add)
  | additive, .minus => some (.arithmetic .subtract)
  | multiplicative, .multiply => some (.arithmetic .multiply)
  | multiplicative, .div => some (.arithmetic .div)
  | multiplicative, .mod => some (.arithmetic .mod)
  | _, _ => none

end Level

/-- Why no phrase was read: a syntax error at the first of the tokens `rest`, another error, or an
exhausted bound on the recursion. -/
inductive Failure where
  | syntaxFault (fault : SyntaxFault) (rest : List Token)
  | refused (error : Error)
  | outOfFuel

/-- Fails at the first of the given tokens for want of something. -/
def missing {α : Type} (what : Expectation) (rest : List Token) : Except Failure α :=
  .error (.syntaxFault (.expected what) rest)

/-- Whether a location step can start with these tokens. -/
def startsStep : List Token → Bool
  | .dot :: _ | .dotDot :: _ | .atSign :: _ | .axis _ :: _ | .name _ :: _ | .wildcard :: _
  | .nodeType _ :: _ => true
  | _ => false

/-- Reads the closing parenthesis of a node type, and for processing instructions a target before
it. -/
def parseNodeType (type : NodeType) (tokens : List Token) :
    Except Failure (NodeTest × List Token) :=
  let (test, tokens) : NodeTest × List Token :=
    match type, tokens with
    | .node, _ => (.node, tokens)
    | .text, _ => (.text, tokens)
    | .comment, _ => (.comment, tokens)
    | .instruction, .literal target :: rest => (.instruction (some target), rest)
    | .instruction, _ => (.instruction none, tokens)
  match tokens with
  | .rightParen :: rest => .ok (test, rest)
  | _ => missing .rightParen tokens

/-- Reads a node test. -/
def parseNodeTest : List Token → Except Failure (NodeTest × List Token)
  | .wildcard :: rest => .ok (.anyName, rest)
  | .name name :: rest => .ok (.name name, rest)
  | .nodeType type :: .leftParen :: rest => parseNodeType type rest
  | .nodeType _ :: rest => missing .leftParen rest
  | tokens => missing .nodeTest tokens

/-- Reads the axis of a step: a name before `::`, the short form of the attribute axis, or nothing,
which is the child axis. -/
def parseAxis (tokens : List Token) : Except Failure (Axis × List Token) :=
  match tokens with
  | .atSign :: rest => .ok (.attribute, rest)
  | .axis name :: rest =>
    match Axis.ofName? name with
    | none =>
      if name == "namespace" then .error (.refused (.unsupported .namespaceAxis))
      else .error (.syntaxFault (.unknownAxis name) tokens)
    | some axis =>
      match rest with
      | .colonColon :: rest => .ok (axis, rest)
      | _ => missing .colonColon rest
  | _ => .ok (.child, tokens)

mutual

/-- Reads an expression. -/
def parseExpr (fuel : Nat) (tokens : List Token) : Except Failure (Expr × List Token) :=
  match fuel with
  | 0 => .error .outOfFuel
  | fuel + 1 => parseLevel fuel .or tokens

/-- Reads operands of a level and the operators between them. -/
def parseLevel (fuel : Nat) (level : Level) (tokens : List Token) :
    Except Failure (Expr × List Token) :=
  match fuel with
  | 0 => .error .outOfFuel
  | fuel + 1 => do
    let (left, rest) ← parseOperand fuel level tokens
    parseOperators fuel level left rest

/-- Reads an operand of a level. -/
def parseOperand (fuel : Nat) (level : Level) (tokens : List Token) :
    Except Failure (Expr × List Token) :=
  match fuel with
  | 0 => .error .outOfFuel
  | fuel + 1 =>
    match level.next? with
    | some tighter => parseLevel fuel tighter tokens
    | none => parseUnary fuel tokens

/-- Reads the operators of a level behind an operand, each with its right operand; they group to
the left. -/
def parseOperators (fuel : Nat) (level : Level) (left : Expr) (tokens : List Token) :
    Except Failure (Expr × List Token) :=
  match fuel with
  | 0 => .error .outOfFuel
  | fuel + 1 =>
    match tokens with
    | [] => .ok (left, [])
    | token :: rest =>
      match level.operator? token with
      | none => .ok (left, tokens)
      | some op => do
        let (right, rest) ← parseOperand fuel level rest
        parseOperators fuel level (.binary op left right) rest

/-- Reads a union behind any number of minus signs. -/
def parseUnary (fuel : Nat) (tokens : List Token) : Except Failure (Expr × List Token) :=
  match fuel with
  | 0 => .error .outOfFuel
  | fuel + 1 =>
    match tokens with
    | .minus :: rest => do
      let (operand, rest) ← parseUnary fuel rest
      return (.negate operand, rest)
    | _ => do
      let (left, rest) ← parsePath fuel tokens
      parseUnion fuel left rest

/-- Reads the further members of a union; they group to the left. -/
def parseUnion (fuel : Nat) (left : Expr) (tokens : List Token) :
    Except Failure (Expr × List Token) :=
  match fuel with
  | 0 => .error .outOfFuel
  | fuel + 1 =>
    match tokens with
    | .pipe :: rest => do
      let (right, rest) ← parsePath fuel rest
      parseUnion fuel (.union left right) rest
    | _ => .ok (left, tokens)

/-- Reads a location path or a primary expression with what belongs to it. -/
def parsePath (fuel : Nat) (tokens : List Token) : Except Failure (Expr × List Token) :=
  match fuel with
  | 0 => .error .outOfFuel
  | fuel + 1 =>
    match tokens with
    | [] => .error (.syntaxFault .unexpectedEnd [])
    | token :: rest =>
      match token with
      | .leftParen | .literal _ | .number _ | .function _ | .variableRef _ =>
        parseFilter fuel tokens
      | .slash =>
        if startsStep rest then do
          let (steps, rest) ← parseSteps fuel rest
          return (.path true steps, rest)
        else .ok (.path true [], rest)
      | .doubleSlash => do
        let (steps, rest) ← parseSteps fuel rest
        return (.path true (.anywhere :: steps), rest)
      | _ =>
        if startsStep tokens then do
          let (steps, rest) ← parseSteps fuel tokens
          return (.path false steps, rest)
        else .error (.syntaxFault (.unexpectedToken token) tokens)

/-- Reads a primary expression, its predicates, and the relative path behind them. -/
def parseFilter (fuel : Nat) (tokens : List Token) : Except Failure (Expr × List Token) :=
  match fuel with
  | 0 => .error .outOfFuel
  | fuel + 1 => do
    let (primary, rest) ← parsePrimary fuel tokens
    let (predicates, rest) ← parsePredicates fuel rest
    match rest with
    | .slash :: rest => do
      let (steps, rest) ← parseSteps fuel rest
      return (.filter primary predicates steps, rest)
    | .doubleSlash :: rest => do
      let (steps, rest) ← parseSteps fuel rest
      return (.filter primary predicates (.anywhere :: steps), rest)
    | _ => return (if predicates.isEmpty then primary else .filter primary predicates [], rest)

/-- Reads an expression in parentheses, a literal, a number or a call. -/
def parsePrimary (fuel : Nat) (tokens : List Token) : Except Failure (Expr × List Token) :=
  match fuel with
  | 0 => .error .outOfFuel
  | fuel + 1 =>
    match tokens with
    | .leftParen :: rest => do
      let (inner, rest) ← parseExpr fuel rest
      match rest with
      | .rightParen :: rest => return (inner, rest)
      | _ => missing .rightParen rest
    | .literal text :: rest => .ok (.literal text, rest)
    | .number value :: rest => .ok (.number value, rest)
    | .function name :: rest => parseCall fuel name rest
    | .variableRef name :: _ => .error (.refused (.unsupported (.variableReference name)))
    | token :: _ => .error (.syntaxFault (.unexpectedToken token) tokens)
    | [] => .error (.syntaxFault .unexpectedEnd [])

/-- Reads the arguments of a call, and checks their number. -/
def parseCall (fuel : Nat) (name : String) (tokens : List Token) :
    Except Failure (Expr × List Token) :=
  match fuel with
  | 0 => .error .outOfFuel
  | fuel + 1 =>
    match Function.ofName? name with
    | none => .error (.refused (.unknownFunction name))
    | some function =>
      match tokens with
      | .leftParen :: rest => do
        let (arguments, rest) ←
          match rest with
          | .rightParen :: rest => pure ([], rest)
          | _ => parseArguments fuel rest
        if function.arity.admits arguments.length then return (.call function arguments, rest)
        else .error (.refused (.arity name function.arity.text arguments.length))
      | _ => missing .leftParen tokens

/-- Reads arguments with commas between them, and the closing parenthesis. -/
def parseArguments (fuel : Nat) (tokens : List Token) : Except Failure (List Expr × List Token) :=
  match fuel with
  | 0 => .error .outOfFuel
  | fuel + 1 => do
    let (first, rest) ← parseExpr fuel tokens
    match rest with
    | .comma :: rest => do
      let (others, rest) ← parseArguments fuel rest
      return (first :: others, rest)
    | .rightParen :: rest => return ([first], rest)
    | _ => missing .commaOrRightParen rest

/-- Reads any number of predicates. -/
def parsePredicates (fuel : Nat) (tokens : List Token) : Except Failure (List Expr × List Token) :=
  match fuel with
  | 0 => .error .outOfFuel
  | fuel + 1 =>
    match tokens with
    | .leftBracket :: rest => do
      let (first, rest) ← parseExpr fuel rest
      match rest with
      | .rightBracket :: rest => do
        let (others, rest) ← parsePredicates fuel rest
        return (first :: others, rest)
      | _ => missing .rightBracket rest
    | _ => .ok ([], tokens)

/-- Reads a relative path: steps with single or double slashes between them. -/
def parseSteps (fuel : Nat) (tokens : List Token) : Except Failure (List Step × List Token) :=
  match fuel with
  | 0 => .error .outOfFuel
  | fuel + 1 => do
    let (first, rest) ← parseStep fuel tokens
    match rest with
    | .slash :: rest => do
      let (others, rest) ← parseSteps fuel rest
      return (first :: others, rest)
    | .doubleSlash :: rest => do
      let (others, rest) ← parseSteps fuel rest
      return (first :: .anywhere :: others, rest)
    | _ => return ([first], rest)

/-- Reads one step. -/
def parseStep (fuel : Nat) (tokens : List Token) : Except Failure (Step × List Token) :=
  match fuel with
  | 0 => .error .outOfFuel
  | fuel + 1 =>
    match tokens with
    | .dot :: rest => .ok (.mk .self .node [], rest)
    | .dotDot :: rest => .ok (.mk .parent .node [], rest)
    | _ => do
      let (axis, rest) ← parseAxis tokens
      let (test, rest) ← parseNodeTest rest
      let (predicates, rest) ← parsePredicates fuel rest
      return (.mk axis test predicates, rest)

end

/-- Reads a whole list of tokens as one expression.  Between two tokens the recursion goes down
through at most the six levels, an operand each, and the phrases below them. -/
def parseTokens (tokens : List Token) : Except Failure Expr := do
  let (expr, rest) ← parseExpr (24 * (tokens.length + 1)) tokens
  match rest with
  | [] => return expr
  | token :: _ => .error (.syntaxFault (.unexpectedToken token) rest)

/-- Reads the text of an expression. -/
def parse (source : String) : Except Error Expr := do
  let lexemes ← scan source
  match parseTokens (lexemes.map Lexeme.token) with
  | .ok expr => return expr
  | .error (.refused error) => .error error
  | .error (.syntaxFault fault rest) =>
    let place := lexemes[lexemes.length - rest.length]?
    .error (.syntaxError fault ((place.map Lexeme.offset).getD source.utf8ByteSize))
  | .error .outOfFuel => .error (.syntaxError .unexpectedEnd source.utf8ByteSize)

end MarkupQuery.XPath
