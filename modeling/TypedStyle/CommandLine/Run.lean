import TypedStyle.CommandLine.Arguments
import TypedStyle.CommandLine.Files
import TypedStyle.Compile

set_option autoImplicit false

namespace TypedStyle.CommandLine

structure Outcome where
  exit : UInt8
  output : String
  log : String
  deriving Repr, DecidableEq

namespace Outcome

def success (output : String) : Outcome :=
  ⟨0, output, ""⟩

def failure (log : String) : Outcome :=
  ⟨1, "", log⟩

def misuse : Outcome :=
  ⟨2, "", "Usage: icss [OPTIONS] <INPUT>\n\nFor more information, try '--help'.\n"⟩

end Outcome

def helpText : String :=
  "Compiles ICSS stylesheets to CSS.\n\n" ++
  "Usage: icss [OPTIONS] <INPUT>\n\n" ++
  "Arguments:\n" ++
  "  <INPUT>  ICSS source file\n\n" ++
  "Options:\n" ++
  "  -o, --output <OUTPUT>  Write the CSS here instead of stdout\n" ++
  "      --check            Stop after semantic checking\n" ++
  "      --indent <INDENT>  Spaces before each declaration [default: 2]\n" ++
  "  -h, --help             Print help\n" ++
  "  -V, --version          Print version\n"

def versionText : String :=
  "icss 0.1.0\n"

def fileName (path : String) : String :=
  match ((Directory.parts path).filter fun part => part ≠ "" ∧ part ≠ ".").getLast? with
  | none | some ".." => "shell"
  | some name => name

def fileFailure (action : String) (error : FileError) (path : String) : Outcome :=
  .failure ("ERROR icss: failed to " ++ action ++ ": " ++ error.message ++ " path=" ++ path ++ "\n")

def errorLog (job : Job) (source : String) : CompileError → String
  | .faulty diagnostics =>
    String.join (diagnostics.map fun diagnostic =>
      fileName job.input ++ ": " ++ diagnostic.message ++ "\n") ++
      (CompileError.faulty diagnostics).message ++ "\n"
  | .malformed failure | .unevaluable failure => Report.render failure source job.input

/-- The text to deliver, or none if the job is only to check. -/
def process (job : Job) (source : String) : Except CompileError (Option String) :=
  let options : CompileOptions := ⟨fileName job.input, job.indent⟩
  if job.checkOnly then (checkSource source options).map fun _ => none
  else (compileSource source options).map some

variable {m : Type → Type} [Monad m]

def deliver (files : Files m) (job : Job) (css : String) : m Outcome := do
  match job.output with
  | none => return .success css
  | some path =>
    match ← files.write path css.toUTF8 with
    | .ok () => return .success ""
    | .error error => return fileFailure "write output" error path

def compileFile (files : Files m) (job : Job) : m Outcome := do
  match ← files.read job.input with
  | .error error => return fileFailure "read input" error job.input
  | .ok bytes =>
    match String.fromUTF8? bytes with
    | none => return fileFailure "read input" .undecodable job.input
    | some source =>
      match process job source with
      | .error error => return .failure (errorLog job source error)
      | .ok none => return .success ""
      | .ok (some css) => deliver files job css

def run (files : Files m) (arguments : List String) : m Outcome :=
  match parseArguments {} arguments with
  | none => return .misuse
  | some .help => return .success helpText
  | some .version => return .success versionText
  | some (.compile job) => compileFile files job

end TypedStyle.CommandLine
