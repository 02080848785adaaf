import TypedStyle.Text.Word
import TypedStyle.Token

/-!
The shapes that a piece of source text can have, in the order in which they are tried.
-/

set_option autoImplicit false

namespace TypedStyle.Token

inductive Pattern where
  | blanks
  | blockComment
  | lineComment
  | pixelSize
  | percentage
  | scalar
  | color
  | idName
  | className
  | capitalName
  | lowerName
  /-- a punctuation mark, given by its first character and the rest of it -/
  | mark (head : Char) (tail : List Char) (kind : Kind)
  deriving Repr, DecidableEq

def isHexDigit (c : Char) : Bool :=
  c.isDigit || ('a' ≤ c && c ≤ 'f') || ('A' ≤ c && c ≤ 'F')

def isNameChar (c : Char) : Bool :=
  c.isLower || c.isDigit || c == '-'

def isVariableChar (c : Char) : Bool :=
  c.isAlphanum || c == '_'

namespace Pattern

/-- The patterns from first to last; the first that finds something decides. -/
def table : List Pattern :=
  [.blanks, .blockComment, .lineComment, .pixelSize, .percentage, .scalar, .color, .idName,
   .className, .capitalName, .lowerName, .mark ':' ['='] .assign, .mark ':' [] .colon,
   .mark ';' [] .semicolon, .mark ',' [] .comma, .mark '\x7b' [] .openCurly,
   .mark '\x7d' [] .closeCurly, .mark '[' [] .openBracket, .mark ']' [] .closeBracket,
   .mark '+' [] .plus, .mark '-' [] .minus, .mark '*' [] .times]

def run? (p : Char → Bool) (cs : List Char) : Option (List Char) :=
  match cs.takeWhile p with
  | [] => none
  | run => some run

def exactly? (text cs : List Char) : Option (List Char) :=
  if text.isPrefixOf cs then some text else none

def followedBy (first second : List Char → Option (List Char)) (cs : List Char) :
    Option (List Char) := do
  let head ← first cs
  let tail ← second (cs.drop head.length)
  return head ++ tail

/-- Everything up to and including the first end of a comment. -/
def throughClose? : List Char → Option (List Char)
  | [] => none
  | c :: cs =>
    if c = '*' ∧ cs.head? = some '/' then some ['*', '/']
    else (throughClose? cs).map (c :: ·)

/-- Six hexadecimal digits that no word character follows. -/
def sixHexDigits? (cs : List Char) : Option (List Char) :=
  let digits := cs.take 6
  if digits.length = 6 ∧ digits.all isHexDigit ∧ ¬ (cs.drop 6).head?.any Text.isWord then
    some digits
  else none

def runOrNone? (p : Char → Bool) (cs : List Char) : Option (List Char) :=
  some (cs.takeWhile p)

def lexeme? : Pattern → List Char → Option (List Char)
  | .blanks => run? Text.isBlank
  | .blockComment => followedBy (exactly? ['/', '*']) throughClose?
  | .lineComment => followedBy (exactly? ['/', '/']) (runOrNone? (· ≠ '\n'))
  | .pixelSize => followedBy (run? Char.isDigit) (exactly? ['p', 'x'])
  | .percentage => followedBy (run? Char.isDigit) (exactly? ['%'])
  | .scalar => run? Char.isDigit
  | .color => followedBy (exactly? ['#']) sixHexDigits?
  | .idName => followedBy (exactly? ['#']) (run? isNameChar)
  | .className => followedBy (exactly? ['.']) (run? isNameChar)
  | .capitalName => fun cs => if cs.head?.any Char.isUpper then run? isVariableChar cs else none
  | .lowerName => fun cs => if cs.head?.any Char.isLower then run? isNameChar cs else none
  | .mark head tail _ => exactly? (head :: tail)

/-- Blanks and comments make no token, and a reserved word is no name. -/
def kind? (lexeme : List Char) : Pattern → Option Kind
  | .blanks | .blockComment | .lineComment => none
  | .pixelSize => some .pixelSize
  | .percentage => some .percentage
  | .scalar => some .scalar
  | .color => some .color
  | .idName => some .idName
  | .className => some .className
  | .capitalName => some ((reserved? (String.ofList lexeme)).getD .capitalName)
  | .lowerName => some ((reserved? (String.ofList lexeme)).getD .lowerName)
  | .mark _ _ kind => some kind

def first? (cs : List Char) : Option (Pattern × List Char) :=
  table.findSome? fun pattern => (pattern.lexeme? cs).map (pattern, ·)

def Initial (shape : List Char → Option (List Char)) : Prop :=
  ∀ cs lexeme, shape cs = some lexeme → lexeme <+: cs

theorem initial_exactly? (text : List Char) : Initial (exactly? text) := by
  intro cs lexeme h
  simp only [exactly?, Option.ite_none_right_eq_some, Option.some.injEq] at h
  exact h.2 ▸ List.isPrefixOf_iff_prefix.1 h.1

theorem run?_eq_some_iff {p : Char → Bool} {cs lexeme : List Char} :
    run? p cs = some lexeme ↔ cs.takeWhile p = lexeme ∧ lexeme ≠ [] := by
  unfold run?
  cases cs.takeWhile p with
  | nil =>
    constructor
    · intro h; cases h
    · rintro ⟨rfl, h⟩; exact absurd rfl h
  | cons c rest =>
    constructor
    · intro h; cases h; exact ⟨rfl, List.cons_ne_nil c rest⟩
    · rintro ⟨rfl, _⟩; rfl

theorem initial_run? (p : Char → Bool) : Initial (run? p) := by
  intro cs lexeme h
  exact (run?_eq_some_iff.1 h).1 ▸ List.takeWhile_prefix p

theorem initial_runOrNone? (p : Char → Bool) : Initial (runOrNone? p) := by
  intro cs lexeme h
  cases h
  exact List.takeWhile_prefix p

theorem initial_throughClose? : Initial throughClose? := by
  intro cs
  induction cs with
  | nil => intro lexeme h; simp [throughClose?] at h
  | cons c cs ih =>
    intro lexeme h
    rw [throughClose?] at h
    split at h
    · rename_i hc
      obtain ⟨rfl, hs⟩ := hc
      obtain ⟨rest, rfl⟩ := List.head?_eq_some_iff.1 hs
      cases h
      exact ⟨rest, rfl⟩
    · obtain ⟨found, hf, rfl⟩ := Option.map_eq_some_iff.1 h
      exact List.cons_prefix_cons.2 ⟨rfl, ih found hf⟩

theorem initial_sixHexDigits? : Initial sixHexDigits? := by
  intro cs lexeme h
  simp only [sixHexDigits?, Option.ite_none_right_eq_some, Option.some.injEq] at h
  exact h.2 ▸ List.take_prefix 6 cs

theorem followedBy_eq_some_iff {first second : List Char → Option (List Char)}
    {cs lexeme : List Char} :
    followedBy first second cs = some lexeme ↔
      ∃ head tail, first cs = some head ∧ second (cs.drop head.length) = some tail ∧
        head ++ tail = lexeme := by
  simp [followedBy, Option.bind_eq_some_iff]

theorem Initial.followedBy {first second : List Char → Option (List Char)}
    (h₁ : Initial first) (h₂ : Initial second) : Initial (followedBy first second) := by
  intro cs lexeme h
  obtain ⟨head, tail, hh, ht, rfl⟩ := followedBy_eq_some_iff.1 h
  obtain ⟨rest, rfl⟩ := h₁ cs head hh
  rw [List.drop_left] at ht
  exact (List.prefix_append_right_inj head).2 (h₂ rest tail ht)

theorem isPrefix_of_lexeme? (pattern : Pattern) : Initial pattern.lexeme? := by
  cases pattern with
  | blanks => exact initial_run? _
  | blockComment => exact (initial_exactly? _).followedBy initial_throughClose?
  | lineComment => exact (initial_exactly? _).followedBy (initial_runOrNone? _)
  | pixelSize => exact (initial_run? _).followedBy (initial_exactly? _)
  | percentage => exact (initial_run? _).followedBy (initial_exactly? _)
  | scalar => exact initial_run? _
  | color => exact (initial_exactly? _).followedBy initial_sixHexDigits?
  | idName => exact (initial_exactly? _).followedBy (initial_run? _)
  | className => exact (initial_exactly? _).followedBy (initial_run? _)
  | capitalName =>
    intro cs lexeme h
    simp only [lexeme?, Option.ite_none_right_eq_some] at h
    exact initial_run? _ cs lexeme h.2
  | lowerName =>
    intro cs lexeme h
    simp only [lexeme?, Option.ite_none_right_eq_some] at h
    exact initial_run? _ cs lexeme h.2
  | mark head tail kind => exact initial_exactly? _

def Proper (shape : List Char → Option (List Char)) : Prop :=
  ∀ cs lexeme, shape cs = some lexeme → lexeme ≠ []

theorem proper_exactly? (head : Char) (tail : List Char) : Proper (exactly? (head :: tail)) := by
  intro cs lexeme h
  simp only [exactly?, Option.ite_none_right_eq_some, Option.some.injEq] at h
  simp [← h.2]

theorem proper_run? (p : Char → Bool) : Proper (run? p) :=
  fun _ _ h => (run?_eq_some_iff.1 h).2

theorem Proper.followedBy {first second : List Char → Option (List Char)}
    (h : Proper first) : Proper (followedBy first second) := by
  intro cs lexeme hl
  obtain ⟨head, tail, hh, _, rfl⟩ := followedBy_eq_some_iff.1 hl
  simp [h cs head hh]

theorem ne_nil_of_lexeme? (pattern : Pattern) : Proper pattern.lexeme? := by
  cases pattern with
  | blanks => exact proper_run? _
  | blockComment => exact (proper_exactly? _ _).followedBy
  | lineComment => exact (proper_exactly? _ _).followedBy
  | pixelSize => exact (proper_run? _).followedBy
  | percentage => exact (proper_run? _).followedBy
  | scalar => exact proper_run? _
  | color => exact (proper_exactly? _ _).followedBy
  | idName => exact (proper_exactly? _ _).followedBy
  | className => exact (proper_exactly? _ _).followedBy
  | capitalName =>
    intro cs lexeme h
    simp only [lexeme?, Option.ite_none_right_eq_some] at h
    exact proper_run? _ cs lexeme h.2
  | lowerName =>
    intro cs lexeme h
    simp only [lexeme?, Option.ite_none_right_eq_some] at h
    exact proper_run? _ cs lexeme h.2
  | mark head tail kind => exact proper_exactly? _ _

theorem first?_eq_some {cs lexeme : List Char} {pattern : Pattern}
    (h : first? cs = some (pattern, lexeme)) : pattern.lexeme? cs = some lexeme := by
  obtain ⟨found, _, hf⟩ := List.exists_of_findSome?_eq_some h
  obtain ⟨text, ht, he⟩ := Option.map_eq_some_iff.1 hf
  cases he
  exact ht

end Pattern

end TypedStyle.Token
