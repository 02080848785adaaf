set_option autoImplicit false

namespace TypedStyle

/-- A byte offset in a file; offsets are counted modulo 2 ^ 32. -/
structure Position where
  offset : UInt32
  file : String
  deriving Repr, DecidableEq

structure Span where
  start : Position
  stop : Position
  deriving Repr, DecidableEq

inductive Token.Kind where
  | eof
  | pixelSize
  | percentage
  | scalar
  | color
  | trueWord
  | falseWord
  | idName
  | className
  /-- a tag or a property -/
  | lowerName
  /-- a variable -/
  | capitalName
  | openBracket
  | closeBracket
  | openCurly
  | closeCurly
  | assign
  | colon
  | semicolon
  | comma
  | plus
  | minus
  | times
  | ifWord
  | elseWord
  deriving Repr, DecidableEq

namespace Token.Kind

def all : List Kind :=
  [.eof, .pixelSize, .percentage, .scalar, .color, .trueWord, .falseWord, .idName, .className,
   .lowerName, .capitalName, .openBracket, .closeBracket, .openCurly, .closeCurly, .assign,
   .colon, .semicolon, .comma, .plus, .minus, .times, .ifWord, .elseWord]

theorem mem_all (kind : Kind) : kind ∈ all := by
  cases kind <;> decide

def name : Kind → String
  | .eof => "EOF"
  | .pixelSize => "PixelSize"
  | .percentage => "Percentage"
  | .scalar => "Scalar"
  | .color => "Color"
  | .trueWord => "True"
  | .falseWord => "False"
  | .idName => "IdIdent"
  | .className => "ClassIdent"
  | .lowerName => "LowerIdent"
  | .capitalName => "CapitalIdent"
  | .openBracket => "OpenBracket"
  | .closeBracket => "CloseBracket"
  | .openCurly => "OpenCurly"
  | .closeCurly => "CloseCurly"
  | .assign => "AssignmentOperator"
  | .colon => "Colon"
  | .semicolon => "Semicolon"
  | .comma => "Comma"
  | .plus => "Plus"
  | .minus => "Min"
  | .times => "Mul"
  | .ifWord => "If"
  | .elseWord => "Else"

end Token.Kind

structure Token where
  kind : Token.Kind
  value : String
  span : Span
  deriving Repr, DecidableEq

namespace Token

def reservedWords : List (String × Kind) :=
  [("if", .ifWord), ("else", .elseWord), ("TRUE", .trueWord), ("true", .trueWord),
   ("FALSE", .falseWord), ("false", .falseWord)]

def reserved? (word : String) : Option Kind :=
  reservedWords.lookup word

/-- The token that closes every stream; it covers no text. -/
def eof (position : Position) : Token :=
  ⟨.eof, "EOF", ⟨position, position⟩⟩

def text (token : Token) : String :=
  "Token \x7b\nkind: " ++ token.kind.name ++ ",\nvalue: " ++ token.value ++ "\x7d"

end Token

end TypedStyle
