import TypedStyle.Sheet

set_option autoImplicit false

namespace TypedStyle

inductive Outline where
  | node (label : String) (fault : Option Fault) (parts : List Outline)
  deriving Repr

namespace Outline

structure Visit where
  depth : Nat
  label : String
  fault : Option Fault
  deriving Repr, DecidableEq

mutual

def walk (depth : Nat) : Outline → List Visit
  | .node label fault parts => ⟨depth, label, fault⟩ :: walkAll (depth + 1) parts

def walkAll (depth : Nat) : List Outline → List Visit
  | [] => []
  | part :: parts => part.walk depth ++ walkAll depth parts

end

end Outline

def Expr.outline : Expr → Outline
  | .literal value fault => .node ("Literal (" ++ value.text ++ ")") fault []
  | .reference name fault => .node ("VariableReference (" ++ name ++ ")") fault []
  | .operation op left right fault =>
    .node ("Operation (" ++ op.symbol ++ ")") fault [left.outline, right.outline]

def Selector.outline : Selector → Outline
  | .tag name => .node ("TagSelector (" ++ name ++ ")") none []
  | .className name => .node ("ClassSelector (" ++ name ++ ")") none []
  | .idName name => .node ("IdSelector (" ++ name ++ ")") none []

def Declaration.outline (declaration : Declaration) : Outline :=
  .node ("Declaration (" ++ declaration.property ++ ")") declaration.fault
    [declaration.value.outline]

def Assignment.outline (assignment : Assignment) : Outline :=
  .node ("VariableAssignment (" ++ assignment.name ++ ")") none [assignment.value.outline]

mutual

def Item.outline : Item → Outline
  | .declaration d => d.outline
  | .assignment a => a.outline
  | .branch condition body alternative fault =>
    .node "IfClause" fault (condition.outline :: outlineItems body ++ outlineElse alternative)

def outlineItems : List Item → List Outline
  | [] => []
  | item :: items => item.outline :: outlineItems items

/-- An alternative is a node of its own, even an empty one. -/
def outlineElse : Option (List Item) → List Outline
  | none => []
  | some body => [.node "ElseClause" none (outlineItems body)]

end

def Rule.outline (rule : Rule) : Outline :=
  .node "Stylerule" none (rule.selectors.map Selector.outline ++ outlineItems rule.body)

def Member.outline : Member → Outline
  | .rule r => r.outline
  | .assignment a => a.outline

def Sheet.outline (sheet : Sheet) : Outline :=
  .node "Stylesheet" none (sheet.members.map Member.outline)

structure Diagnostic where
  node : String
  fault : Fault
  deriving Repr, DecidableEq

def Diagnostic.message (diagnostic : Diagnostic) : String :=
  diagnostic.node ++ ": " ++ diagnostic.fault.message

def Outline.Visit.diagnostic? (visit : Visit) : Option Diagnostic :=
  visit.fault.map (⟨visit.label, ·⟩)

def Sheet.diagnostics (sheet : Sheet) : List Diagnostic :=
  (sheet.outline.walk 0).filterMap Outline.Visit.diagnostic?

def Sheet.hasFaults (sheet : Sheet) : Bool :=
  !sheet.diagnostics.isEmpty

end TypedStyle
