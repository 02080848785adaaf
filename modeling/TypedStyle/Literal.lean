set_option autoImplicit false

namespace TypedStyle

inductive Measure where
  | pixel
  | percentage
  | scalar
  deriving Repr, DecidableEq

def Measure.ending : Measure → String
  | .pixel => "px"
  | .percentage => "%"
  | .scalar => ""

inductive ValueType where
  | bool
  | color
  | number (measure : Measure)
  /-- the type of everything that a fault has made meaningless -/
  | undefined
  deriving Repr, DecidableEq

namespace ValueType

def all : List ValueType :=
  [.bool, .color, .number .pixel, .number .percentage, .number .scalar, .undefined]

theorem mem_all (type : ValueType) : type ∈ all := by
  cases type with
  | number measure => cases measure <;> decide
  | _ => decide

def name : ValueType → String
  | .bool => "BOOL"
  | .color => "COLOR"
  | .number .pixel => "PIXEL"
  | .number .percentage => "PERCENTAGE"
  | .number .scalar => "SCALAR"
  | .undefined => "UNDEFINED"

end ValueType

inductive Literal where
  | bool (value : Bool)
  | color (value : String)
  | number (measure : Measure) (value : Int64)
  deriving Repr, DecidableEq

inductive Operator where
  | add
  | subtract
  | multiply
  deriving Repr, DecidableEq

namespace Operator

def symbol : Operator → String
  | .add => "+"
  | .subtract => "-"
  | .multiply => "*"

/-- Sums and differences stay within one measure; a product needs a scalar and takes the measure
of its other factor. -/
def measure? : Operator → Measure → Measure → Option Measure
  | .multiply, .scalar, right => some right
  | .multiply, left, .scalar => some left
  | .multiply, _, _ => none
  | .add, left, right | .subtract, left, right => if left = right then some left else none

def compute : Operator → Int → Int → Int
  | .add, left, right => left + right
  | .subtract, left, right => left - right
  | .multiply, left, right => left * right

end Operator

def int64? (value : Int) : Option Int64 :=
  if Int64.minValue.toInt ≤ value ∧ value ≤ Int64.maxValue.toInt then some (Int64.ofInt value)
  else none

namespace Literal

def type : Literal → ValueType
  | .bool _ => .bool
  | .color _ => .color
  | .number measure _ => .number measure

def text : Literal → String
  | .bool true => "TRUE"
  | .bool false => "FALSE"
  | .color value => value
  | .number measure value => toString value.toInt ++ measure.ending

def isOperand : Literal → Bool
  | .number _ _ => true
  | _ => false

/-- No result where the measures do not fit or the number leaves the range. -/
def operate? (op : Operator) : Literal → Literal → Option Literal
  | .number left l, .number right r => do
    let measure ← op.measure? left right
    let value ← int64? (op.compute l.toInt r.toInt)
    return .number measure value
  | _, _ => none

end Literal

end TypedStyle
