import TypedStyle.Text.Quoted
import TypedStyle.Token

set_option autoImplicit false

namespace TypedStyle

inductive Cause where
  | unrecognisedToken (token : String)
  | unexpectedToken (token : String)
  | unexpectedTokenDetailed (token message : String)
  | numberParseError (token : String)
  | unresolvedExpression (expression : String)
  | nonBooleanCondition (condition : String)
  deriving Repr, DecidableEq

namespace Cause

def name : Cause → String
  | .unrecognisedToken _ => "UnrecognisedToken"
  | .unexpectedToken _ => "UnexpectedToken"
  | .unexpectedTokenDetailed _ _ => "UnexpectedTokenDetailed"
  | .numberParseError _ => "NumberParseError"
  | .unresolvedExpression _ => "UnresolvedExpression"
  | .nonBooleanCondition _ => "NonBooleanCondition"

def message : Cause → String
  | .unrecognisedToken token => "unrecognised token: " ++ Text.quote token
  | .unexpectedToken token => "unexpected token: " ++ Text.quote token
  | .unexpectedTokenDetailed token message =>
    "unexpected token (" ++ Text.quote message ++ "): " ++ Text.quote token
  | .numberParseError token => "error parsing number: " ++ Text.quote token
  | .unresolvedExpression expression =>
    "expression " ++ expression ++ " cannot be evaluated to a literal"
  | .nonBooleanCondition condition => "condition " ++ condition ++ " is not a boolean"

def tip? : Cause → Option String
  | .unrecognisedToken _ => none
  | .unexpectedToken token =>
    some ("Unexpected token: `" ++ token ++ "`, did you miss a semicolon?")
  | .unexpectedTokenDetailed token message =>
    some ("Unexpected token: `" ++ token ++ "`, " ++ message)
  | .numberParseError token =>
    some ("Invalid number: `" ++ token ++ "`, is it above the integer limit?")
  | .unresolvedExpression expression =>
    some ("Expression `" ++ expression ++
      "` could not be folded to a literal, was the stylesheet checked?")
  | .nonBooleanCondition condition =>
    some ("Condition `" ++ condition ++ "` did not evaluate to TRUE or FALSE")

end Cause

/-- Only failures of the scanner and the reader have a position. -/
structure Failure where
  cause : Cause
  position : Option Position
  deriving Repr, DecidableEq

def Failure.message (failure : Failure) : String :=
  match failure.position with
  | none => failure.cause.message
  | some position =>
    failure.cause.message ++ " at " ++ position.file ++ ":" ++ toString position.offset.toNat

end TypedStyle

namespace TypedStyle.Report

def padLeft (width : Nat) (fill : Char) (text : List Char) : List Char :=
  List.replicate (width - text.length) fill ++ text

def isMargin (c : Char) : Bool :=
  c = ' ' || c = '\t'

def header (cause : Cause) : String :=
  match cause.tip? with
  | none => "Error: " ++ cause.name ++ "\n"
  | some tip => "Error: " ++ cause.name ++ " (" ++ tip ++ ")\n"

/-- The line without its margin. The caret is as many columns into it as the failure is bytes
into the line, less the margin. -/
def excerpt (line : Text.Line) : String :=
  let number := toString line.number
  let text := line.text.toList
  let margin := (text.takeWhile isMargin).length
  let rule := String.ofList (padLeft (number.length + 2) ' ' ['|'])
  let shown := String.ofList (Text.trimEnd (text.drop margin))
  let pointer := String.ofList (padLeft (line.offset - margin + 1) '-' ['^'])
  rule ++ "\n" ++ number ++ " | " ++ shown ++ "\n" ++ rule ++ " " ++ pointer ++ "\n"

def render (failure : Failure) (source : String) (file : String) : String :=
  let line? := failure.position.bind fun position =>
    Text.lineAt? source position.offset.toNat
  match line? with
  | none => header failure.cause ++ failure.message ++ "\n"
  | some line => header failure.cause ++ "-> " ++ file ++ "\n" ++ excerpt line

end TypedStyle.Report
