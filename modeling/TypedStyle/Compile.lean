import TypedStyle.Flatten
import TypedStyle.Outline
import TypedStyle.Reader.Sheet
import TypedStyle.Token.Scan
import TypedStyle.Typing

set_option autoImplicit false

namespace TypedStyle

structure CompileOptions where
  file : String := "shell"
  indent : Nat := 2
  deriving Repr, DecidableEq

inductive CompileError where
  | malformed (failure : Failure)
  | faulty (diagnostics : List Diagnostic)
  | unevaluable (failure : Failure)
  deriving Repr, DecidableEq

def CompileError.message : CompileError → String
  | .malformed failure => "syntax error: " ++ failure.message
  | .faulty diagnostics => toString diagnostics.length ++ " semantic error(s) found"
  | .unevaluable failure => "evaluation error: " ++ failure.message

def readSheet (source : String) (file : String) : Except Failure Sheet := do
  let tokens ← tokenize source file
  Sheet.ofTokens tokens file

/-- The checked sheet, if the checker left it without faults. -/
def checkSource (source : String) (options : CompileOptions) : Except CompileError Sheet :=
  match readSheet source options.file with
  | .error failure => .error (.malformed failure)
  | .ok sheet =>
    let checked := sheet.check
    match checked.diagnostics with
    | [] => .ok checked
    | diagnostics => .error (.faulty diagnostics)

def compileSource (source : String) (options : CompileOptions) : Except CompileError String := do
  let sheet ← checkSource source options
  match sheet.flatten with
  | ⟨flat, none⟩ => return flat.css options.indent
  | ⟨_, some failure⟩ => throw (.unevaluable failure)

end TypedStyle
