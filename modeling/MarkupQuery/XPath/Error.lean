import MarkupQuery.XPath.Token

/-!
# Errors of path expressions

Why an expression is rejected, or why it has no value.
-/

namespace MarkupQuery.XPath

/-- What is missing at the place of a syntax error. -/
inductive Expectation where
  | leftParen
  | rightParen
  | rightBracket
  | commaOrRightParen
  | colonColon
  | nodeTest
  deriving DecidableEq, Repr

def Expectation.text : Expectation → String
  | leftParen => "'('"
  | rightParen => "')'"
  | rightBracket => "']'"
  | commaOrRightParen => "',' or ')'"
  | colonColon => "'::'"
  | nodeTest => "node test"

/-- The causes of a syntax error. -/
inductive SyntaxFault where
  | unexpectedCharacter (c : Char)
  | unterminatedLiteral
  | missingVariableName
  | unexpectedToken (token : Token)
  | unexpectedEnd
  | unknownAxis (name : String)
  | expected (what : Expectation)

def SyntaxFault.message : SyntaxFault → String
  | unexpectedCharacter c => "unexpected character '" ++ c.toString ++ "'"
  | unterminatedLiteral => "unterminated string literal"
  | missingVariableName => "expected variable name after '$'"
  | unexpectedToken token => "unexpected token " ++ token.describe
  | unexpectedEnd => "unexpected end of expression"
  | unknownAxis name => "unknown axis '" ++ name ++ "'"
  | expected what => "expected " ++ what.text

/-- Constructs of the language that are recognised and refused. -/
inductive Unsupported where
  | variableReference (name : String)
  | namespaceAxis
  deriving DecidableEq, Repr

def Unsupported.text : Unsupported → String
  | variableReference name => "variable reference $" ++ name
  | namespaceAxis => "namespace axis"

inductive Error where
  /-- The offset counts the bytes of the expression in UTF-8 before the fault. -/
  | syntaxError (fault : SyntaxFault) (offset : Nat)
  | unknownFunction (name : String)
  /-- `expected` says in words how many arguments the function takes. -/
  | arity (name expected : String) (found : Nat)
  | notANodeSet
  | unsupported (construct : Unsupported)

def Error.message : Error → String
  | syntaxError fault offset => s!"syntax error at offset {offset}: {fault.message}"
  | unknownFunction name => s!"unknown function: {name}()"
  | arity name expected found => s!"{name}() takes {expected} argument(s), {found} given"
  | notANodeSet => "expression does not evaluate to a node-set"
  | unsupported construct => s!"unsupported construct: {construct.text}"

end MarkupQuery.XPath
