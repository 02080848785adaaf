import TypedStyle.Literal
import TypedStyle.Text.Quoted

set_option autoImplicit false

namespace TypedStyle

inductive Fault where
  | unknownProperty (property : String)
  | typeMismatch (property expected : String) (received : ValueType)
  | illegalOperand (operand : String)
  | operandTypeMismatch (left right : ValueType)
  | invalidMultiply (left right : ValueType)
  | undefinedVariable (name : String)
  | invalidConditional (received : ValueType)
  deriving Repr, DecidableEq

namespace Fault

def name : Fault → String
  | .unknownProperty _ => "UnknownProperty"
  | .typeMismatch _ _ _ => "TypeMismatch"
  | .illegalOperand _ => "IllegalOperand"
  | .operandTypeMismatch _ _ => "OperandTypeMismatch"
  | .invalidMultiply _ _ => "InvalidMultiply"
  | .undefinedVariable _ => "UndefinedVariable"
  | .invalidConditional _ => "InvalidConditional"

def message : Fault → String
  | .unknownProperty property => "unknown property " ++ Text.quote property
  | .typeMismatch property expected received =>
    "property " ++ Text.quote property ++ " expects " ++ expected ++ ", received " ++ received.name
  | .illegalOperand operand => operand ++ " cannot be used in an operation"
  | .operandTypeMismatch left right =>
    "operand types do not match: " ++ left.name ++ " and " ++ right.name
  | .invalidMultiply left right =>
    "multiplication needs a scalar operand, received " ++ left.name ++ " and " ++ right.name
  | .undefinedVariable name => "variable " ++ Text.quote name ++ " not defined"
  | .invalidConditional received => "if condition must be a boolean, received " ++ received.name

end Fault

/-- Each node has a slot for the fault that the checker finds on it. -/
inductive Expr where
  | literal (value : Literal) (fault : Option Fault := none)
  | reference (name : String) (fault : Option Fault := none)
  | operation (op : Operator) (left right : Expr) (fault : Option Fault := none)
  deriving Repr, DecidableEq

namespace Expr

def text : Expr → String
  | .literal value _ => value.text
  | .reference name _ => name
  | .operation op left right _ => "(" ++ left.text ++ " " ++ op.symbol ++ " " ++ right.text ++ ")"

def literal? : Expr → Option Literal
  | .literal value _ => some value
  | _ => none

end Expr

/-- The names of classes and ids keep their first mark. -/
inductive Selector where
  | tag (name : String)
  | className (name : String)
  | idName (name : String)
  deriving Repr, DecidableEq

def Selector.name : Selector → String
  | .tag name => name
  | .className name => name
  | .idName name => name

structure Declaration where
  property : String
  value : Expr
  fault : Option Fault := none
  deriving Repr, DecidableEq

structure Assignment where
  name : String
  value : Expr
  deriving Repr, DecidableEq

inductive Item where
  | declaration (declaration : Declaration)
  | assignment (assignment : Assignment)
  /-- the body counts if the condition holds, and the alternative otherwise -/
  | branch (condition : Expr) (body : List Item) (alternative : Option (List Item))
      (fault : Option Fault := none)
  deriving Repr

structure Rule where
  selectors : List Selector
  body : List Item
  deriving Repr

inductive Member where
  | rule (rule : Rule)
  | assignment (assignment : Assignment)
  deriving Repr

structure Sheet where
  members : List Member
  deriving Repr

/-- A declaration without a literal value has no line. -/
def Declaration.css (indent : Nat) (declaration : Declaration) : String :=
  match declaration.value.literal? with
  | none => ""
  | some value =>
    String.ofList (List.replicate indent ' ') ++ declaration.property ++ ": " ++ value.text ++ ";\n"

def Item.css (indent : Nat) : Item → String
  | .declaration d => d.css indent
  | _ => ""

def Rule.css (indent : Nat) (rule : Rule) : String :=
  ", ".intercalate (rule.selectors.map Selector.name) ++ " \x7b\n" ++
    String.join (rule.body.map (Item.css indent)) ++ "\x7d\n"

def Member.rule? : Member → Option Rule
  | .rule r => some r
  | .assignment _ => none

/-- A blank line stands between two rules, and assignments leave no trace. -/
def Sheet.css (indent : Nat) (sheet : Sheet) : String :=
  "\n".intercalate ((sheet.members.filterMap Member.rule?).map (Rule.css indent))

end TypedStyle
