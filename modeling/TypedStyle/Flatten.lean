import TypedStyle.Failure
import TypedStyle.Scope
import TypedStyle.Sheet

/-!
Flattening: values for expressions, and the declarations of the chosen branches for the branches.
-/

set_option autoImplicit false

namespace TypedStyle

def Expr.eval? (scope : Scope Literal) : Expr → Option Literal
  | .literal value _ => some value
  | .reference name _ => scope.resolve? name
  | .operation op left right _ => do
    let l ← left.eval? scope
    let r ← right.eval? scope
    Literal.operate? op l r

abbrev Flatten := EStateM Failure (Scope Literal)

namespace Flatten

/-- A step in a frame of its own, which is left on a failure too. -/
def inFrame {α : Type} (step : Flatten α) : Flatten α := fun scope =>
  match step scope.push with
  | .ok result inner => .ok result inner.pop
  | .error failure inner => .error failure inner.pop

def value (expr : Expr) : Flatten Literal := do
  match expr.eval? (← get) with
  | some value => return value
  | none => throw ⟨.unresolvedExpression expr.text, none⟩

def truth (condition : Expr) : Flatten Bool := do
  match condition.eval? (← get) with
  | some (.bool truth) => return truth
  | _ => throw ⟨.nonBooleanCondition condition.text, none⟩

def bind (assignment : Assignment) : Flatten Unit := do
  let literal ← value assignment.value
  modify (·.declare assignment.name literal)

end Flatten

/-- The declarations of a body: its own, and those that its branches contribute. -/
structure Yield where
  own : List Declaration
  chosen : List Declaration
  deriving Repr, DecidableEq

namespace Yield

def empty : Yield :=
  ⟨[], []⟩

def append (first second : Yield) : Yield :=
  ⟨first.own ++ second.own, first.chosen ++ second.chosen⟩

/-- What the branches contribute comes last, wherever they stand. -/
def all (yield : Yield) : List Declaration :=
  yield.own ++ yield.chosen

end Yield

mutual

def Item.flatten : Item → Flatten Yield
  | .declaration d => do
    let value ← Flatten.value d.value
    return ⟨[{ d with value := .literal value }], []⟩
  | .assignment a => do
    Flatten.bind a
    return .empty
  | .branch condition body alternative _ => do
    if ← Flatten.truth condition then
      return ⟨[], ← Flatten.inFrame (Yield.all <$> flattenItems body)⟩
    else
      return ⟨[], ← flattenElse alternative⟩

def flattenItems : List Item → Flatten Yield
  | [] => return .empty
  | item :: items => do
    let first ← item.flatten
    let rest ← flattenItems items
    return first.append rest

def flattenElse : Option (List Item) → Flatten (List Declaration)
  | none => return []
  | some body => Flatten.inFrame (Yield.all <$> flattenItems body)

end

def flattenBody (body : List Item) : Flatten (List Declaration) :=
  Flatten.inFrame (Yield.all <$> flattenItems body)

def Member.flatten : Member → Flatten (List Member)
  | .rule r => do
    let declarations ← flattenBody r.body
    return [.rule { r with body := declarations.map .declaration }]
  | .assignment a => do
    Flatten.bind a
    return []

structure Flattening where
  sheet : Sheet
  failure : Option Failure
  deriving Repr

/-- On a failure the failing member and all later ones stay as they are. -/
def flattenMembers (scope : Scope Literal) : List Member → Flattening × Scope Literal
  | [] => (⟨⟨[]⟩, none⟩, scope)
  | member :: members =>
    match member.flatten scope with
    | .error failure scope => (⟨⟨member :: members⟩, some failure⟩, scope)
    | .ok kept scope =>
      let rest := flattenMembers scope members
      (⟨⟨kept ++ rest.1.sheet.members⟩, rest.1.failure⟩, rest.2)

def Sheet.flattenIn (scope : Scope Literal) (sheet : Sheet) : Flattening × Scope Literal :=
  let members := flattenMembers scope.push sheet.members
  (members.1, members.2.pop)

def Sheet.flatten (sheet : Sheet) : Flattening :=
  (sheet.flattenIn .empty).1

end TypedStyle
