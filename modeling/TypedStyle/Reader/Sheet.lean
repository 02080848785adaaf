import TypedStyle.Reader.Expression

set_option autoImplicit false

namespace TypedStyle.Reader

def declaration : Read Declaration := do
  let property ← expect .lowerName
  let _ ← expectWith .colon "expected `:` after property name"
  let value ← expression .base
  let _ ← expect .semicolon
  return { property := property.value, value }

def assignment : Read Assignment := do
  let name ← expect .capitalName
  let _ ← expectWith .assign "expected `:=` after variable name"
  let value ← expression .base
  let _ ← expect .semicolon
  return { name := name.value, value }

def branchOf (block : Read (List Item)) : Read Item := do
  let _ ← expect .ifWord
  let _ ← expectWith .openBracket "expected `[` before condition"
  let condition ← expression .base
  let _ ← expectWith .closeBracket "expected `]` after condition"
  let body ← block
  if (← get).current.kind = .elseWord then
    let _ ← advance
    let alternative ← block
    return .branch condition body (some alternative)
  else
    return .branch condition body none

def itemOf (block : Read (List Item)) : Read Item := do
  let reader ← get
  match reader.grammar.form? reader.current.kind with
  | some .declaration => .declaration <$> declaration
  | some .assignment => .assignment <$> assignment
  | some .branch => branchOf block
  | none => throw reader.unexpected

def itemsOf (item : Read Item) : Nat → Read (List Item)
  | 0 => return []
  | fuel + 1 => do
    let reader ← get
    if reader.hasTokens && reader.current.kind != .closeCurly then
      let first ← item
      let rest ← itemsOf item fuel
      return first :: rest
    else
      return []

def braced (items : Read (List Item)) : Read (List Item) := do
  let _ ← expect .openCurly
  let body ← items
  let _ ← expect .closeCurly
  return body

/-- Items in braces. A block nests no deeper than it has tokens, and holds no more items. -/
def blockWithin : Nat → Read (List Item)
  | 0 => braced (return [])
  | fuel + 1 => braced (itemsOf (itemOf (blockWithin fuel)) fuel)

def block : Read (List Item) := do
  blockWithin (← get).budget

def branch : Read Item :=
  branchOf block

def item : Read Item :=
  itemOf block

/-- An id of six hexadecimal digits has been scanned as a colour. -/
def selector : Read Selector := do
  let reader ← get
  let token := reader.current
  let selector ← match token.kind with
    | .lowerName => pure (.tag token.value)
    | .className => pure (.className token.value)
    | .idName | .color => pure (.idName token.value)
    | _ => throw (reader.unexpectedWith "expected a selector")
  let _ ← advance
  return selector

def optionalComma : Read Unit := do
  if (← get).current.kind = .comma then
    let _ ← advance

def furtherSelectors : Nat → Read (List Selector)
  | 0 => return []
  | fuel + 1 => do
    if (← get).current.kind = .openCurly then
      return []
    else
      optionalComma
      let first ← selector
      let rest ← furtherSelectors fuel
      return first :: rest

def rule : Read Rule := do
  let first ← selector
  let rest ← furtherSelectors ((← get).budget + 1)
  let body ← block
  return ⟨first :: rest, body⟩

def member : Read Member := do
  if (← get).current.kind = .capitalName then
    .assignment <$> assignment
  else
    .rule <$> rule

def membersWithin : Nat → Read (List Member)
  | 0 => return []
  | fuel + 1 => do
    if (← get).hasTokens then
      let first ← member
      let rest ← membersWithin fuel
      return first :: rest
    else
      return []

def sheet : Read Sheet := do
  return ⟨← membersWithin (← get).budget⟩

end Reader

def Sheet.ofTokens (tokens : List Token) (file : String) : Except Failure Sheet :=
  match Reader.sheet (Reader.ofTokens tokens file) with
  | .ok sheet _ => .ok sheet
  | .error failure _ => .error failure

end TypedStyle
