import TypedStyle.Reader.Sheet

/-!
Reading against a clock, which goes down with every call and every turn of a loop. A run whose clock
has run out gives nothing, whatever it has read so far. So a run ends if there is a clock with which
it gives something; no loop ends for want of fuel.
-/

set_option autoImplicit false

namespace TypedStyle

/-- A step of a reader that gives `none` when its clock has run out. -/
abbrev Attempt := ExceptT Failure (StateT Reader Option)

namespace Attempt

variable {α β : Type} {attempt : Attempt α} {next : α → Attempt β} {reader after : Reader}

def expired : Attempt α := fun _ => none

def ending : EStateM.Result Failure Reader α → Except Failure α × Reader
  | .ok result reader => (.ok result, reader)
  | .error failure reader => (.error failure, reader)

instance : MonadLift Read Attempt where
  monadLift step := fun reader => some (ending (step reader))

theorem bind_of_ok {result : α} (h : attempt reader = some (.ok result, after)) :
    (attempt >>= next) reader = next result after := by
  show ((attempt reader).bind fun found => ExceptT.bindCont next found.1 found.2) = _
  rw [h]
  rfl

theorem bind_of_error {failure : Failure} (h : attempt reader = some (.error failure, after)) :
    (attempt >>= next) reader = some (.error failure, after) := by
  show ((attempt reader).bind fun found => ExceptT.bindCont next found.1 found.2) = _
  rw [h]
  rfl

end Attempt

namespace Reader.Clocked

mutual

def expression : Nat → Power → Attempt Expr
  | 0, _ => .expired
  | clock + 1, floor => do
    let left ← leading
    extend clock floor left

def extend : Nat → Power → Expr → Attempt Expr
  | 0, _, _ => .expired
  | clock + 1, floor, left => do
    let reader ← get
    let kind := reader.current.kind
    match reader.grammar.power? kind with
    | none => return left
    | some power =>
      if power ≤ floor then return left
      else if (reader.grammar.operator? kind).isNone then
        throw (reader.unexpectedWith "expected an operator or `;`")
      else
        let left ← operation clock left power
        extend clock floor left

def operation : Nat → Expr → Power → Attempt Expr
  | 0, _, _ => .expired
  | clock + 1, left, power => do
    let op ← operator
    let right ← expression clock power
    return .operation op left right

end

def framed {α : Type} (first second third : Read Token) (finish : Token → Expr → α)
    (clock : Nat) : Attempt α := do
  let token ← first
  let _ ← second
  let value ← expression clock .base
  let _ ← third
  return finish token value

def declaration : Nat → Attempt Declaration :=
  framed (expect .lowerName) (expectWith .colon "expected `:` after property name")
    (expect .semicolon) fun property value => { property := property.value, value }

def assignment : Nat → Attempt Assignment :=
  framed (expect .capitalName) (expectWith .assign "expected `:=` after variable name")
    (expect .semicolon) fun name value => { name := name.value, value }

mutual

def block : Nat → Attempt (List Item)
  | 0 => .expired
  | clock + 1 => do
    let _ ← expect .openCurly
    let body ← items clock
    let _ ← expect .closeCurly
    return body

def items : Nat → Attempt (List Item)
  | 0 => .expired
  | clock + 1 => do
    let reader ← get
    if reader.hasTokens && reader.current.kind != .closeCurly then
      let first ← item clock
      let rest ← items clock
      return first :: rest
    else
      return []

def item : Nat → Attempt Item
  | 0 => .expired
  | clock + 1 => do
    let reader ← get
    match reader.grammar.form? reader.current.kind with
    | some .declaration => .declaration <$> declaration clock
    | some .assignment => .assignment <$> assignment clock
    | some .branch => branch clock
    | none => throw reader.unexpected

def branch : Nat → Attempt Item
  | 0 => .expired
  | clock + 1 => do
    let condition ← framed (expect .ifWord)
      (expectWith .openBracket "expected `[` before condition")
      (expectWith .closeBracket "expected `]` after condition") (fun _ condition => condition) clock
    let body ← block clock
    if (← get).current.kind = .elseWord then
      let _ ← advance
      let alternative ← block clock
      return .branch condition body (some alternative)
    else
      return .branch condition body none

end

def furtherSelectors : Nat → Attempt (List Selector)
  | 0 => .expired
  | clock + 1 => do
    if (← get).current.kind = .openCurly then
      return []
    else
      optionalComma
      let first ← selector
      let rest ← furtherSelectors clock
      return first :: rest

def rule (clock : Nat) : Attempt Rule := do
  let first ← selector
  let rest ← furtherSelectors clock
  let body ← block clock
  return ⟨first :: rest, body⟩

def member (clock : Nat) : Attempt Member := do
  if (← get).current.kind = .capitalName then
    .assignment <$> assignment clock
  else
    .rule <$> rule clock

def members : Nat → Attempt (List Member)
  | 0 => .expired
  | clock + 1 => do
    if (← get).hasTokens then
      let first ← member clock
      let rest ← members clock
      return first :: rest
    else
      return []

def sheet (clock : Nat) : Attempt Sheet := do
  return ⟨← members clock⟩

end Reader.Clocked

end TypedStyle
