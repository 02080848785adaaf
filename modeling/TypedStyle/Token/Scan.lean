import TypedStyle.Failure
import TypedStyle.Token.Pattern

set_option autoImplicit false

namespace TypedStyle.Token

structure Cursor where
  file : String
  offset : Nat
  /-- the characters that are not passed with all their bytes -/
  rest : List Char
  /-- the bytes passed of the first character of the rest -/
  inside : Nat
  deriving Repr, DecidableEq

namespace Cursor

def start (source file : String) : Cursor :=
  ⟨file, 0, source.toList, 0⟩

def advance (cursor : Cursor) (bytes : Nat) : Cursor :=
  let left := Text.passBytes (bytes + cursor.inside) cursor.rest
  { cursor with offset := cursor.offset + bytes, rest := left.2, inside := left.1 }

def atEnd (cursor : Cursor) : Bool :=
  cursor.rest.isEmpty

def peek? (cursor : Cursor) : Option Char :=
  cursor.rest.head?

def position (cursor : Cursor) : Position :=
  ⟨UInt32.ofNat cursor.offset, cursor.file⟩

def span (cursor : Cursor) (bytes : Nat) : Span :=
  ⟨cursor.position, (cursor.advance bytes).position⟩

theorem advance_byteLength {cursor : Cursor} {lexeme rest : List Char}
    (h : cursor.rest = lexeme ++ rest) (hi : cursor.inside = 0) :
    cursor.advance (Text.byteLength lexeme) =
      ⟨cursor.file, cursor.offset + Text.byteLength lexeme, rest, 0⟩ := by
  simp only [advance, h, hi, Text.passBytes_append, Text.passBytes_zero]

theorem length_rest_advance_le {cursor : Cursor} {lexeme rest : List Char}
    (h : cursor.rest = lexeme ++ rest) :
    (cursor.advance (Text.byteLength lexeme)).rest.length ≤ rest.length := by
  simp only [advance, h, Text.passBytes_append]
  exact Text.length_passBytes_le _ _

end Cursor

def Pattern.token? (pattern : Pattern) (lexeme : List Char) (span : Span) : Option Token :=
  (pattern.kind? lexeme).map fun kind => ⟨kind, String.ofList lexeme, span⟩

theorem Cursor.length_rest_advance_lt {cursor : Cursor} {pattern : Pattern} {lexeme : List Char}
    (h : Pattern.first? cursor.rest = some (pattern, lexeme)) :
    (cursor.advance (Text.byteLength lexeme)).rest.length < cursor.rest.length := by
  have hl := Pattern.first?_eq_some h
  obtain ⟨rest, hr⟩ := Pattern.isPrefix_of_lexeme? pattern _ _ hl
  have hn := List.length_pos_iff.2 (Pattern.ne_nil_of_lexeme? pattern _ _ hl)
  have ha := Cursor.length_rest_advance_le hr.symm
  rw [← hr, List.length_append]
  omega

def Cursor.scan (cursor : Cursor) : Except Failure (List Token) :=
  match cursor.peek? with
  | none => .ok [eof cursor.position]
  | some c =>
    match _h : Pattern.first? cursor.rest with
    | none => .error ⟨.unrecognisedToken (String.singleton c), some cursor.position⟩
    | some (pattern, lexeme) =>
      let bytes := Text.byteLength lexeme
      (cursor.advance bytes).scan.map
        ((pattern.token? lexeme (cursor.span bytes)).toList ++ ·)
termination_by cursor.rest.length
decreasing_by exact Cursor.length_rest_advance_lt _h

end Token

def tokenize (source : String) (file : String) : Except Failure (List Token) :=
  (Token.Cursor.start source file).scan

end TypedStyle
