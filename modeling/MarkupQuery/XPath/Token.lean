import MarkupQuery.Decimal.Notation
import MarkupQuery.Text.Quoted

/-!
# Tokens of path expressions

The words of the expression language.  A star and the words `and`, `or`, `div` and `mod` are each
two tokens in one spelling; which one is meant depends on the token before, through
`Token.endsOperand`.
-/

namespace MarkupQuery.XPath

/-- The kinds of node that a node test can ask for by type. -/
inductive NodeType where
  | node
  | text
  | comment
  | instruction
  deriving DecidableEq, Repr

def NodeType.name : NodeType → String
  | node => "node"
  | text => "text"
  | comment => "comment"
  | instruction => "processing-instruction"

def NodeType.ofName? (name : String) : Option NodeType :=
  [node, text, comment, instruction].find? (·.name == name)

inductive Token where
  | leftParen
  | rightParen
  | leftBracket
  | rightBracket
  | dot
  | dotDot
  | atSign
  | comma
  | colonColon
  | slash
  | doubleSlash
  | pipe
  | plus
  | minus
  /-- A star between two operands. -/
  | multiply
  | equal
  | notEqual
  | less
  | lessEqual
  | greater
  | greaterEqual
  | and
  | or
  | div
  | mod
  | number (value : Float)
  | literal (text : String)
  /-- A star that stands for any name. -/
  | wildcard
  | name (text : String)
  /-- A name before an opening parenthesis. -/
  | function (name : String)
  | nodeType (type : NodeType)
  /-- A name before `::`. -/
  | axis (name : String)
  | variableRef (name : String)

namespace Token

/-- Whether an operand can end with this token, so that an operator may follow. -/
def endsOperand : Token → Bool
  | rightParen | rightBracket | dot | dotDot | number _ | literal _ | wildcard | name _
  | variableRef _ => true
  | _ => false

/-- The name of a token in messages, with what it holds. -/
def describe : Token → String
  | leftParen => "LeftParen"
  | rightParen => "RightParen"
  | leftBracket => "LeftBracket"
  | rightBracket => "RightBracket"
  | dot => "Dot"
  | dotDot => "DotDot"
  | atSign => "At"
  | comma => "Comma"
  | colonColon => "ColonColon"
  | slash => "Slash"
  | doubleSlash => "DoubleSlash"
  | pipe => "Pipe"
  | plus => "Plus"
  | minus => "Minus"
  | multiply => "Multiply"
  | equal => "Equal"
  | notEqual => "NotEqual"
  | less => "Less"
  | lessEqual => "LessEqual"
  | greater => "Greater"
  | greaterEqual => "GreaterEqual"
  | and => "And"
  | or => "Or"
  | div => "Div"
  | mod => "Mod"
  | number value => "Number(" ++ Decimal.Layout.diagnostic.write value ++ ")"
  | literal text => "Literal(" ++ Text.quoted text ++ ")"
  | wildcard => "Wildcard"
  | name text => "Name(" ++ Text.quoted text ++ ")"
  | function called => "FunctionName(" ++ Text.quoted called ++ ")"
  | nodeType type => "NodeType(" ++ Text.quoted type.name ++ ")"
  | axis called => "AxisName(" ++ Text.quoted called ++ ")"
  | variableRef called => "Variable(" ++ Text.quoted called ++ ")"

end Token

end MarkupQuery.XPath
