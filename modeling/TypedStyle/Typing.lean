import TypedStyle.Scope
import TypedStyle.Sheet

set_option autoImplicit false

namespace TypedStyle

inductive Property where
  | backgroundColor
  | color
  | width
  | height
  deriving Repr, DecidableEq

namespace Property

def all : List Property :=
  [.backgroundColor, .color, .width, .height]

def name : Property → String
  | .backgroundColor => "background-color"
  | .color => "color"
  | .width => "width"
  | .height => "height"

def ofName? (name : String) : Option Property :=
  all.find? (·.name == name)

theorem ofName?_name (property : Property) : ofName? property.name = some property := by
  cases property <;> decide

def allowedTypes : Property → List ValueType
  | .backgroundColor | .color => [.color]
  | .width | .height => [.number .pixel, .number .percentage]

def accepts (property : Property) (type : ValueType) : Bool :=
  property.allowedTypes.contains type

def expectation (property : Property) : String :=
  " or ".intercalate (property.allowedTypes.map ValueType.name)

end Property

namespace Expr

/-- A fault that is found takes the slot over; otherwise the slot keeps what it holds. -/
def mark (found : Option Fault) : Expr → Expr
  | .literal value fault => .literal value (found.or fault)
  | .reference name fault => .reference name (found.or fault)
  | .operation op left right fault => .operation op left right (found.or fault)

/-- What is wrong with an operand before its type is known: a colour or a truth value as such. -/
def operandFault? : Expr → Option Fault
  | .literal value _ => if value.isOperand then none else some (.illegalOperand value.text)
  | _ => none

def illegalSide (side : Expr) (type : ValueType) : Fault :=
  .illegalOperand (side.text ++ " of type " ++ type.name)

/-- The type of an operation by the types of its sides; an undefined side makes it undefined
without a fault of its own. -/
def operationType (op : Operator) (left right : Expr) :
    ValueType → ValueType → Except Fault ValueType
  | .undefined, _ | _, .undefined => .ok .undefined
  | .number l, .number r =>
    match op.measure? l r with
    | some measure => .ok (.number measure)
    | none =>
      match op with
      | .multiply => .error (.invalidMultiply (.number l) (.number r))
      | _ => .error (.operandTypeMismatch (.number l) (.number r))
  | .number _, r => .error (illegalSide right r)
  | l, _ => .error (illegalSide left l)

def check (scope : Scope ValueType) : Expr → Expr × ValueType
  | .literal value fault => (.literal value fault, value.type)
  | .reference name fault =>
    match scope.resolve? name with
    | some type => (.reference name fault, type)
    | none => (.reference name (some (.undefinedVariable name)), .undefined)
  | .operation op left right fault =>
    if left.operandFault?.isSome || right.operandFault?.isSome then
      (.operation op (left.mark left.operandFault?) (right.mark right.operandFault?) fault,
        .undefined)
    else
      let l := left.check scope
      let r := right.check scope
      match operationType op left right l.2 r.2 with
      | .ok type => (.operation op l.1 r.1 fault, type)
      | .error found => (.operation op l.1 r.1 (some found), .undefined)

end Expr

namespace Declaration

def fault? (property : String) (type : ValueType) : Option Fault :=
  match Property.ofName? property with
  | none => some (.unknownProperty property)
  | some known =>
    if type = .undefined ∨ known.accepts type then none
    else some (.typeMismatch property known.expectation type)

def check (scope : Scope ValueType) (declaration : Declaration) : Declaration :=
  let value := declaration.value.check scope
  { declaration with
    value := value.1
    fault := (fault? declaration.property value.2).or declaration.fault }

end Declaration

/-- The name gets the type of its value, also an undefined one, so that later references to it
stay silent. -/
def Assignment.check (scope : Scope ValueType) (assignment : Assignment) :
    Assignment × Scope ValueType :=
  let value := assignment.value.check scope
  ({ assignment with value := value.1 }, scope.declare assignment.name value.2)

def conditionFault? : ValueType → Option Fault
  | .undefined | .bool => none
  | type => some (.invalidConditional type)

mutual

/-- The condition and the body of a branch share a frame, and the alternative has its own. -/
def Item.check (scope : Scope ValueType) : Item → Item × Scope ValueType
  | .declaration d => (.declaration (d.check scope), scope)
  | .assignment a => (.assignment (a.check scope).1, (a.check scope).2)
  | .branch condition body alternative fault =>
    let condition := condition.check scope.push
    let body := checkItems scope.push body
    let alternative := checkElse body.2.pop alternative
    (.branch condition.1 body.1 alternative.1 ((conditionFault? condition.2).or fault),
      alternative.2)

def checkItems (scope : Scope ValueType) : List Item → List Item × Scope ValueType
  | [] => ([], scope)
  | item :: items =>
    let first := item.check scope
    let rest := checkItems first.2 items
    (first.1 :: rest.1, rest.2)

def checkElse (scope : Scope ValueType) :
    Option (List Item) → Option (List Item) × Scope ValueType
  | none => (none, scope)
  | some body =>
    let body := checkItems scope.push body
    (some body.1, body.2.pop)

end

def Rule.check (scope : Scope ValueType) (rule : Rule) : Rule × Scope ValueType :=
  let body := checkItems scope.push rule.body
  ({ rule with body := body.1 }, body.2.pop)

def Member.check (scope : Scope ValueType) : Member → Member × Scope ValueType
  | .rule r => (.rule (r.check scope).1, (r.check scope).2)
  | .assignment a => (.assignment (a.check scope).1, (a.check scope).2)

def checkMembers (scope : Scope ValueType) : List Member → List Member × Scope ValueType
  | [] => ([], scope)
  | member :: members =>
    let first := member.check scope
    let rest := checkMembers first.2 members
    (first.1 :: rest.1, rest.2)

def Sheet.checkIn (scope : Scope ValueType) (sheet : Sheet) : Sheet × Scope ValueType :=
  let members := checkMembers scope.push sheet.members
  (⟨members.1⟩, members.2.pop)

def Sheet.check (sheet : Sheet) : Sheet :=
  (sheet.checkIn .empty).1

end TypedStyle
