import TypedStyle.Failure
import TypedStyle.Reader.Grammar

/-!
A reader of tokens, which never moves back and stays on the last token, an end of file.
-/

set_option autoImplicit false

namespace TypedStyle

structure Reader where
  file : String
  grammar : Reader.Grammar
  /-- the tokens not yet passed, without the last one -/
  ahead : List Token
  last : Token
  last_eof : last.kind = .eof
  /-- how many tokens a loop can pass at most -/
  budget : Nat
  length_ahead_le : ahead.length ≤ budget

/-- A step of a reader; a failure leaves the reader where it arose. -/
abbrev Read := EStateM Failure Reader

namespace Reader

/-- An end of file is put behind tokens that do not end in one, at the place where they end. -/
def ofTokens (tokens : List Token) (file : String) (grammar : Grammar := .standard) : Reader :=
  match tokens.getLast? with
  | none => ⟨file, grammar, [], .eof ⟨0, file⟩, rfl, 0, Nat.le_refl 0⟩
  | some token =>
    if h : token.kind = .eof then
      ⟨file, grammar, tokens.dropLast, token, h, tokens.length, by simp⟩
    else ⟨file, grammar, tokens, .eof token.span.stop, rfl, tokens.length, Nat.le_refl _⟩

def current (reader : Reader) : Token :=
  reader.ahead.head?.getD reader.last

/-- An end of file in the middle ends the tokens as well. -/
def hasTokens (reader : Reader) : Bool :=
  reader.current.kind != .eof

def unexpected (reader : Reader) : Failure :=
  ⟨.unexpectedToken reader.current.value, some reader.current.span.start⟩

def unexpectedWith (reader : Reader) (message : String) : Failure :=
  ⟨.unexpectedTokenDetailed reader.current.value message, some reader.current.span.start⟩

/-- The current token, which is passed unless it is the last one. -/
def advance : Read Token := fun reader =>
  .ok reader.current { reader with
    ahead := reader.ahead.tail
    length_ahead_le := by
      have := reader.length_ahead_le
      rw [List.length_tail]
      omega }

def expect (kind : Token.Kind) : Read Token := do
  let reader ← get
  if reader.current.kind = kind then advance else throw reader.unexpected

def expectWith (kind : Token.Kind) (message : String) : Read Token := do
  let reader ← get
  if reader.current.kind = kind then advance else throw (reader.unexpectedWith message)

end Reader

end TypedStyle
