import TypedStyle.Token

set_option autoImplicit false

namespace TypedStyle.Reader

inductive Power where
  | base
  | additive
  | multiplicative
  | primary
  deriving Repr, DecidableEq

def Power.rank : Power → Nat
  | .base => 0
  | .additive => 1
  | .multiplicative => 2
  | .primary => 3

instance : LE Power := ⟨fun p q => p.rank ≤ q.rank⟩

instance (p q : Power) : Decidable (p ≤ q) :=
  inferInstanceAs (Decidable (p.rank ≤ q.rank))

inductive Form where
  | declaration
  | assignment
  | branch
  deriving Repr, DecidableEq

structure Grammar where
  operator? : Token.Kind → Option Power
  isOperand : Token.Kind → Bool
  form? : Token.Kind → Option Form

namespace Grammar

def empty : Grammar where
  operator? _ := none
  isOperand _ := false
  form? _ := none

def standard : Grammar where
  operator?
    | .plus | .minus => some .additive
    | .times => some .multiplicative
    | _ => none
  isOperand
    | .pixelSize | .percentage | .scalar | .color | .trueWord | .falseWord | .capitalName => true
    | _ => false
  form?
    | .lowerName => some .declaration
    | .capitalName => some .assignment
    | .ifWord => some .branch
    | _ => none

/-- A token that starts an item binds as loosely as none, also where it can be an operand. -/
def power? (grammar : Grammar) (kind : Token.Kind) : Option Power :=
  if (grammar.form? kind).isSome then some .base
  else if grammar.isOperand kind then some .primary
  else grammar.operator? kind

end Grammar

end TypedStyle.Reader
