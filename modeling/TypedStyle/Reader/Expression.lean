import TypedStyle.Reader
import TypedStyle.Sheet

set_option autoImplicit false

namespace TypedStyle.Reader

def number? (measure : Measure) (text : String) : Option Int64 := do
  let value ← Text.signed? (Text.dropEnding measure.ending.toList text.toList)
  int64? value

def number (measure : Measure) (token : Token) : Read Expr :=
  match number? measure token.value with
  | some value => return .literal (.number measure value)
  | none => throw ⟨.numberParseError token.value, some token.span.start⟩

/-- A number that cannot be read is not passed. -/
def operand : Read Expr := do
  let token := (← get).current
  let expr ← match token.kind with
    | .pixelSize => number .pixel token
    | .percentage => number .percentage token
    | .scalar => number .scalar token
    | .color => pure (.literal (.color token.value))
    | .trueWord => pure (.literal (.bool true))
    | .falseWord => pure (.literal (.bool false))
    | .capitalName => pure (.reference token.value)
    | _ => throw ⟨.unexpectedToken token.value, some token.span.start⟩
  let _ ← advance
  return expr

def leading : Read Expr := do
  let reader ← get
  if reader.grammar.isOperand reader.current.kind then operand
  else throw (reader.unexpectedWith "expected a literal or variable")

/-- The token is passed even if it is no operator. -/
def operator : Read Operator := do
  let token ← advance
  match token.kind with
  | .plus => return .add
  | .minus => return .subtract
  | .times => return .multiply
  | _ => throw ⟨.unexpectedToken token.value, some token.span.start⟩

/-- Extends an expression by the operations that bind tighter than a floor. With as much fuel as
there are tokens ahead, none is left out: no token ahead means that nothing follows. -/
def extend : Nat → Power → Expr → Read Expr
  | 0, _, left => return left
  | fuel + 1, floor, left => do
    let reader ← get
    let kind := reader.current.kind
    match reader.grammar.power? kind with
    | none => return left
    | some power =>
      if power ≤ floor then return left
      else if (reader.grammar.operator? kind).isNone then
        throw (reader.unexpectedWith "expected an operator or `;`")
      else
        let op ← operator
        let right ← leading
        let right ← extend fuel power right
        extend fuel floor (.operation op left right)

def expression (floor : Power) : Read Expr := do
  let left ← leading
  extend (← get).budget floor left

def operation (left : Expr) (power : Power) : Read Expr := do
  let op ← operator
  let right ← expression power
  return .operation op left right

end TypedStyle.Reader
