import TypedStyle.Proofs.Lexable

set_option autoImplicit false

namespace TypedStyle.Token

def DigitRun (text : List Char) : Prop :=
  text ≠ [] ∧ ∀ c ∈ text, c.isDigit = true

def Initialled (initial further : Char → Bool) (text : List Char) : Prop :=
  ∃ c cs, text = c :: cs ∧ initial c = true ∧ cs.all further = true

/-- A comment that ends where its mark of the end stands for the first time. -/
def BlockComment (text : List Char) : Prop :=
  ∃ body, text = '/' :: '*' :: (body ++ ['*', '/']) ∧ ¬['*', '/'] <:+: body

def LineComment (text : List Char) : Prop :=
  ∃ body, text = '/' :: '/' :: body ∧ '\n' ∉ body

namespace Pattern

def Shape : Pattern → List Char → Prop
  | .blanks, text => ∀ c ∈ text, Text.isBlank c = true
  | .blockComment, text => BlockComment text
  | .lineComment, text => LineComment text
  | .pixelSize, text => ∃ digits, DigitRun digits ∧ text = digits ++ ['p', 'x']
  | .percentage, text => ∃ digits, DigitRun digits ∧ text = digits ++ ['%']
  | .scalar, text => DigitRun text
  | .color, text => Lexeme.color text = true
  | .idName, text => ∃ name, text = '#' :: name ∧ name ≠ [] ∧ name.all isNameChar = true
  | .className, text => Lexeme.className text = true
  | .capitalName, text => Initialled Char.isUpper isVariableChar text
  | .lowerName, text => Initialled Char.isLower isNameChar text
  | .mark head tail _, text => text = head :: tail

section Shape

variable {cs text lexeme : List Char}

theorem body_of_throughClose? (h : throughClose? cs = some lexeme) :
    ∃ body, lexeme = body ++ ['*', '/'] ∧ ¬['*', '/'] <:+: body := by
  induction cs generalizing lexeme with
  | nil => cases h
  | cons c cs ih =>
    rw [throughClose?] at h
    by_cases hc : c = '*' ∧ cs.head? = some '/'
    · rw [if_pos hc] at h
      cases h
      exact ⟨[], rfl, by simp⟩
    · rw [if_neg hc] at h
      obtain ⟨found, hf, rfl⟩ := Option.map_eq_some_iff.mp h
      obtain ⟨rest, hr⟩ := initial_throughClose? cs found hf
      obtain ⟨body, rfl, hb⟩ := ih hf
      refine ⟨c :: body, rfl, fun hi => ?_⟩
      rcases List.infix_cons_iff.mp hi with hp | hi
      · -- the mark would stand where the search has already been
        obtain ⟨hstar, more, rfl⟩ := List.cons_prefix_cons.mp hp
        exact hc ⟨hstar.symm, by rw [← hr]; rfl⟩
      · exact hb hi

theorem digits_of_followedBy {ending : List Char}
    (h : followedBy (run? Char.isDigit) (exactly? ending) cs = some text) :
    ∃ digits, DigitRun digits ∧ text = digits ++ ending := by
  obtain ⟨digits, tail, hd, ht, rfl⟩ := followedBy_eq_some_iff.mp h
  obtain ⟨hne, hall⟩ := of_run? hd
  simp only [exactly?, Option.ite_none_right_eq_some, Option.some.injEq] at ht
  exact ⟨digits, ⟨hne, List.all_eq_true.mp hall⟩, by rw [ht.2]⟩

theorem initialled_of_run? {initial further : Char → Bool} (hh : cs.head?.any initial = true)
    (h : run? further cs = some text) : Initialled initial further text := by
  obtain ⟨hne, hall⟩ := of_run? h
  obtain ⟨more, rfl⟩ := initial_run? _ _ _ h
  obtain ⟨c, rest, rfl⟩ := List.exists_cons_of_ne_nil hne
  rw [List.all_cons, Bool.and_eq_true] at hall
  exact ⟨c, rest, rfl, by simpa using hh, hall.2⟩

theorem shape_of_lexeme? {pattern : Pattern} (h : pattern.lexeme? cs = some text) :
    pattern.Shape text := by
  cases pattern with
  | blanks => exact List.all_eq_true.mp (of_run? h).2
  | blockComment =>
    obtain ⟨head, tail, hh, ht, rfl⟩ := followedBy_eq_some_iff.mp h
    simp only [exactly?, Option.ite_none_right_eq_some, Option.some.injEq] at hh
    obtain ⟨body, rfl, hb⟩ := body_of_throughClose? ht
    exact ⟨body, by rw [← hh.2]; rfl, hb⟩
  | lineComment =>
    obtain ⟨head, tail, hh, ht, rfl⟩ := followedBy_eq_some_iff.mp h
    simp only [exactly?, Option.ite_none_right_eq_some, Option.some.injEq] at hh
    cases ht
    refine ⟨_, by rw [← hh.2]; rfl, fun hm => ?_⟩
    simpa using List.all_eq_true.mp List.all_takeWhile _ hm
  | pixelSize => exact digits_of_followedBy h
  | percentage => exact digits_of_followedBy h
  | scalar =>
    obtain ⟨hne, hall⟩ := of_run? h
    exact ⟨hne, List.all_eq_true.mp hall⟩
  | color => exact lexable_color h
  | idName =>
    obtain ⟨rest, name, rfl, hs, rfl⟩ := of_followedBy_exactly? h
    exact ⟨name, rfl, of_run? hs⟩
  | className => exact lexable_className h
  | capitalName =>
    simp only [lexeme?, Option.ite_none_right_eq_some] at h
    exact initialled_of_run? h.1 h.2
  | lowerName =>
    simp only [lexeme?, Option.ite_none_right_eq_some] at h
    exact initialled_of_run? h.1 h.2
  | mark head tail kind =>
    simp only [lexeme?, exactly?, Option.ite_none_right_eq_some, Option.some.injEq] at h
    exact h.2.symm

end Shape

end Pattern

def VariableName (text : List Char) : Prop :=
  Initialled Char.isUpper isVariableChar text ∧ String.ofList text ∉ ["TRUE", "FALSE"]

def Kind.Fits (value : String) : Kind → Prop
  | .eof => False
  | .pixelSize => ∃ digits, DigitRun digits ∧ value.toList = digits ++ ['p', 'x']
  | .percentage => ∃ digits, DigitRun digits ∧ value.toList = digits ++ ['%']
  | .scalar => DigitRun value.toList
  | .color => Lexeme.color value.toList = true
  | .trueWord => value = "TRUE" ∨ value = "true"
  | .falseWord => value = "FALSE" ∨ value = "false"
  | .idName => Lexeme.idName value.toList = true
  | .className => Lexeme.className value.toList = true
  | .lowerName => Lexeme.name value.toList = true
  | .capitalName => VariableName value.toList
  | .openBracket => value = "["
  | .closeBracket => value = "]"
  | .openCurly => value = "\x7b"
  | .closeCurly => value = "\x7d"
  | .assign => value = ":="
  | .colon => value = ":"
  | .semicolon => value = ";"
  | .comma => value = ","
  | .plus => value = "+"
  | .minus => value = "-"
  | .times => value = "*"
  | .ifWord => value = "if"
  | .elseWord => value = "else"

section Fits

open Pattern

variable {cs text : List Char} {pattern : Pattern} {kind : Kind}

theorem fits_reserved {word : String} (h : reserved? word = some kind) : kind.Fits word := by
  have hm := mem_reservedWords h
  simp only [reservedWords, List.mem_cons, Prod.mk.injEq, List.not_mem_nil, or_false] at hm
  rcases hm with ⟨rfl, rfl⟩ | ⟨rfl, rfl⟩ | ⟨rfl, rfl⟩ | ⟨rfl, rfl⟩ | ⟨rfl, rfl⟩ | ⟨rfl, rfl⟩ <;>
    simp [Kind.Fits]

theorem fits_mark {head : Char} {tail : List Char} (h : .mark head tail kind ∈ table) :
    kind.Fits (String.ofList (head :: tail)) := by
  simp only [table, List.mem_cons, reduceCtorEq, Pattern.mark.injEq, List.not_mem_nil, or_false,
    false_or] at h
  rcases h with ⟨rfl, rfl, rfl⟩ | ⟨rfl, rfl, rfl⟩ | ⟨rfl, rfl, rfl⟩ | ⟨rfl, rfl, rfl⟩ |
    ⟨rfl, rfl, rfl⟩ | ⟨rfl, rfl, rfl⟩ | ⟨rfl, rfl, rfl⟩ | ⟨rfl, rfl, rfl⟩ | ⟨rfl, rfl, rfl⟩ |
    ⟨rfl, rfl, rfl⟩ | ⟨rfl, rfl, rfl⟩ <;> rfl

theorem fits_of_first? (h : first? cs = some (pattern, text))
    (hk : pattern.kind? text = some kind) : kind.Fits (String.ofList text) := by
  have hl := first?_eq_some h
  have hs := shape_of_lexeme? hl
  cases pattern with
  | capitalName =>
    rcases reserved_or_default hk with hr | ⟨hr, rfl⟩
    · exact fits_reserved hr
    · have hreserved : ∀ word ∈ ["TRUE", "FALSE"], reserved? word ≠ none := by decide
      rw [Kind.Fits, String.toList_ofList]
      exact ⟨hs, fun hm => hreserved _ hm hr⟩
  | lowerName =>
    rcases reserved_or_default hk with hr | ⟨hr, rfl⟩
    · exact fits_reserved hr
    · simpa [Kind.Fits] using lexable_name hl hr
  | mark head tail mark =>
    cases hk
    obtain rfl : text = head :: tail := hs
    exact fits_mark (mem_table_of_first? h)
  | idName =>
    cases hk
    simpa [Kind.Fits] using lexable_idName h
  | blanks | blockComment | lineComment => cases hk
  | _ =>
    cases hk
    simp only [Kind.Fits, String.toList_ofList]
    exact hs

end Fits

end TypedStyle.Token
