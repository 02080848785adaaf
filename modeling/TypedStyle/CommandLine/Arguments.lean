import TypedStyle.Text

set_option autoImplicit false

namespace TypedStyle.CommandLine

structure Job where
  input : String
  /-- where the result goes; standard output if absent -/
  output : Option String
  checkOnly : Bool
  indent : Nat
  deriving Repr, DecidableEq

inductive Command where
  | help
  | version
  | compile (job : Job)
  deriving Repr, DecidableEq

inductive Flag where
  | output
  | check
  | indent
  | help
  | version
  deriving Repr, DecidableEq

namespace Flag

def ofLong? : String → Option Flag
  | "output" => some .output
  | "check" => some .check
  | "indent" => some .indent
  | "help" => some .help
  | "version" => some .version
  | _ => none

def ofShort? : Char → Option Flag
  | 'o' => some .output
  | 'h' => some .help
  | 'V' => some .version
  | _ => none

def takesValue : Flag → Bool
  | .output | .indent => true
  | _ => false

end Flag

/-- The arguments met so far; none of them may come twice. -/
structure Given where
  input : Option String := none
  output : Option String := none
  check : Bool := false
  indent : Option Nat := none
  deriving Repr, DecidableEq

namespace Given

def addInput (given : Given) (path : String) : Option Given :=
  if given.input.isNone ∧ path ≠ "" then some { given with input := some path } else none

def addOutput (given : Given) (path : String) : Option Given :=
  if given.output.isNone ∧ path ≠ "" then some { given with output := some path } else none

def addCheck (given : Given) : Option Given :=
  if given.check then none else some { given with check := true }

def addIndent (given : Given) (text : String) : Option Given := do
  let indent ← Text.unsigned? text.toList
  if given.indent.isNone ∧ indent < UInt64.size then some { given with indent := some indent }
  else none

def addValue (given : Given) (flag : Flag) (value : String) : Option Given :=
  match flag with
  | .output => given.addOutput value
  | .indent => given.addIndent value
  | _ => none

def command (given : Given) : Option Command :=
  given.input.map fun input =>
    .compile ⟨input, given.output, given.check, given.indent.getD 2⟩

end Given

inductive Argument where
  | plain (text : String)
  | terminator
  | flag (flag : Flag) (value : Option String)
  | unknown
  deriving Repr, DecidableEq

namespace Argument

def longValue? (text : List Char) : Option String :=
  match text.dropWhile (· ≠ '=') with
  | [] => none
  | _ :: value => some (String.ofList value)

def shortValue? : List Char → Option String
  | [] => none
  | '=' :: value => some (String.ofList value)
  | value => some (String.ofList value)

/-- A lone dash is plain. Letters behind one that takes no value are never looked at, since such a
letter asks for help or the version. -/
def ofText (text : String) : Argument :=
  match text.toList with
  | ['-', '-'] => .terminator
  | '-' :: '-' :: long =>
    match Flag.ofLong? (String.ofList (long.takeWhile (· ≠ '='))) with
    | some known => .flag known (longValue? long)
    | none => .unknown
  | '-' :: letter :: rest =>
    match Flag.ofShort? letter with
    | some known => .flag known (if known.takesValue then shortValue? rest else none)
    | none => .unknown
  | _ => .plain text

end Argument

def plainArguments (given : Given) : List String → Option Command
  | [] => given.command
  | text :: rest => do
    plainArguments (← given.addInput text) rest

/-- The command that arguments ask for, if they follow the usage. They are taken in order, so help
and version are given only if nothing before them is wrong. -/
def parseArguments (given : Given) : List String → Option Command
  | [] => given.command
  | text :: rest =>
    match Argument.ofText text with
    | .plain text => do parseArguments (← given.addInput text) rest
    | .terminator => plainArguments given rest
    | .unknown => none
    | .flag flag (some value) => do parseArguments (← given.addValue flag value) rest
    | .flag .help none => some .help
    | .flag .version none => some .version
    | .flag .check none => do parseArguments (← given.addCheck) rest
    | .flag flag none =>
      match rest with
      | [] => none
      | value :: rest =>
        match Argument.ofText value with
        | .plain value => do parseArguments (← given.addValue flag value) rest
        | _ => none

end TypedStyle.CommandLine
