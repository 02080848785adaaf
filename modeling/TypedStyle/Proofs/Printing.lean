import TypedStyle.Proofs.Lexable
import TypedStyle.Proofs.Spelling

set_option autoImplicit false

namespace TypedStyle

def Selector.Lexable : Selector → Prop
  | .tag name => Lexeme.name name.toList = true
  | .className name => Lexeme.className name.toList = true
  | .idName name => Lexeme.idName name.toList = true

def Literal.Lexable : Literal → Prop
  | .bool _ => True
  | .color value => Lexeme.color value.toList = true
  | .number _ value => 0 ≤ value.toInt

instance (selector : Selector) : Decidable selector.Lexable :=
  match selector with
  | .tag name => inferInstanceAs (Decidable (Lexeme.name name.toList = true))
  | .className name => inferInstanceAs (Decidable (Lexeme.className name.toList = true))
  | .idName name => inferInstanceAs (Decidable (Lexeme.idName name.toList = true))

instance (value : Literal) : Decidable value.Lexable :=
  match value with
  | .bool _ => inferInstanceAs (Decidable True)
  | .color value => inferInstanceAs (Decidable (Lexeme.color value.toList = true))
  | .number _ value => inferInstanceAs (Decidable (0 ≤ value.toInt))

structure Declaration.Lexable (declaration : Declaration) : Prop where
  property : Lexeme.name declaration.property.toList = true
  value : ∃ value, declaration.value = .literal value none ∧ value.Lexable
  fault : declaration.fault = none

def Item.Lexable (item : Item) : Prop :=
  ∃ declaration : Declaration, item = .declaration declaration ∧ declaration.Lexable

structure Rule.Lexable (rule : Rule) : Prop where
  selectors_ne_nil : rule.selectors ≠ []
  selectors : ∀ selector ∈ rule.selectors, selector.Lexable
  body : ∀ item ∈ rule.body, item.Lexable

/-- A flat sheet, with rules of declarations only, of names and values that can be written. -/
def Sheet.Lexable (sheet : Sheet) : Prop :=
  ∀ member ∈ sheet.members, ∃ rule : Rule, member = .rule rule ∧ rule.Lexable

def Selector.kind : Selector → Token.Kind
  | .tag _ => .lowerName
  | .className _ => .className
  | .idName name => if Lexeme.color name.toList then .color else .idName

def Selector.word (selector : Selector) : Token.Word :=
  (selector.kind, selector.name)

def Literal.kind : Literal → Token.Kind
  | .bool true => .trueWord
  | .bool false => .falseWord
  | .color _ => .color
  | .number measure _ => measure.kind

def Literal.word (value : Literal) : Token.Word :=
  (value.kind, value.text)

def selectorWords : List Selector → List Token.Word
  | [] => []
  | first :: others => first.word :: others.flatMap fun other => [(.comma, ","), other.word]

def Declaration.words (declaration : Declaration) : List Token.Word :=
  match declaration.value.literal? with
  | none => []
  | some value =>
    [(.lowerName, declaration.property), (.colon, ":"), value.word, (.semicolon, ";")]

def Item.words : Item → List Token.Word
  | .declaration d => d.words
  | _ => []

def Rule.words (rule : Rule) : List Token.Word :=
  selectorWords rule.selectors ++
    ((.openCurly, "\x7b") :: rule.body.flatMap Item.words ++ [(.closeCurly, "\x7d")])

namespace Token

section Marks

theorem writes_comma : Word.Writes (.comma, ",") :=
  ⟨_, Found.mark (by decide), rfl⟩

theorem writes_colon : Word.Writes (.colon, ":") :=
  ⟨_, Found.colon, rfl⟩

theorem writes_semicolon : Word.Writes (.semicolon, ";") :=
  ⟨_, Found.mark (by decide), rfl⟩

theorem writes_openCurly : Word.Writes (.openCurly, "\x7b") :=
  ⟨_, Found.mark (by decide), rfl⟩

theorem writes_closeCurly : Word.Writes (.closeCurly, "\x7d") :=
  ⟨_, Found.mark (by decide), rfl⟩

end Marks

theorem reserved?_of_lexable {name : String} (h : Lexeme.name name.toList = true) :
    reserved? name = none := by
  have hwords : ∀ entry ∈ reservedWords, Lexeme.name entry.1.toList = false := by decide
  cases hr : reserved? name with
  | none => rfl
  | some kind =>
    rw [hwords _ (mem_reservedWords hr)] at h
    cases h

theorem writes_lowerName {name : String} (h : Lexeme.name name.toList = true) :
    Word.Writes (.lowerName, name) := by
  refine ⟨_, Found.name h, ?_⟩
  simp [Pattern.kind?, reserved?_of_lexable h]

end Token

theorem Selector.writes {selector : Selector} (h : selector.Lexable) : selector.word.Writes := by
  cases selector with
  | tag name => exact Token.writes_lowerName h
  | className name => exact ⟨_, Token.Found.className h, rfl⟩
  | idName name =>
    rw [word, kind]
    split
    · next hc => exact ⟨_, Token.Found.color hc, rfl⟩
    · next hc => exact ⟨_, Token.Found.idName h (Bool.not_eq_true _ ▸ hc), rfl⟩

theorem Literal.toList_text_number {measure : Measure} {value : Int64} (h : 0 ≤ value.toInt) :
    (Literal.number measure value).text.toList =
      Nat.toDigits 10 value.toInt.toNat ++ measure.ending.toList := by
  obtain ⟨n, hn⟩ := Int.eq_ofNat_of_zero_le h
  rw [text, String.toList_append, hn]
  show (n.repr).toList ++ _ = _
  rw [Nat.toList_repr, Int.toNat_natCast]

theorem isDigit_of_mem_decimal {n : Nat} {c : Char} (h : c ∈ Nat.toDigits 10 n) :
    c.isDigit = true :=
  Nat.isDigit_of_mem_toDigits (by decide) (by decide) h

theorem Literal.writes {value : Literal} (h : value.Lexable) : value.word.Writes := by
  cases value with
  | bool truth =>
    cases truth with
    | true => exact ⟨_, Token.Found.capitals (by decide) (by decide), by decide⟩
    | false => exact ⟨_, Token.Found.capitals (by decide) (by decide), by decide⟩
  | color value => exact ⟨_, Token.Found.color h, rfl⟩
  | number measure value =>
    have hne : Nat.toDigits 10 value.toInt.toNat ≠ [] := Nat.toDigits_ne_nil
    have hd : ∀ c ∈ Nat.toDigits 10 value.toInt.toNat, c.isDigit = true := fun _ =>
      isDigit_of_mem_decimal
    rw [Token.Word.Writes, word, toList_text_number h]
    cases measure with
    | pixel => exact ⟨_, Token.Found.pixelSize hne hd, rfl⟩
    | percentage => exact ⟨_, Token.Found.percentage hne hd, rfl⟩
    | scalar => exact ⟨_, by simpa [Measure.ending] using Token.Found.scalar hne hd, rfl⟩

section Lexes

variable {rest : List Char} {words : List Token.Word}

theorem Lexes.space (h : Lexes rest words) : Lexes ([' '] ++ rest) words :=
  h.blanks (List.forall_mem_singleton.mpr (by decide))

theorem Lexes.line (h : Lexes rest words) : Lexes (['\n'] ++ rest) words :=
  h.blanks (List.forall_mem_singleton.mpr (by decide))

theorem Declaration.Lexable.lexes {declaration : Declaration} (h : declaration.Lexable)
    (indent : Nat) (hw : Lexes rest words) :
    Lexes ((declaration.css indent).toList ++ rest) (declaration.words ++ words) := by
  obtain ⟨value, hv, hl⟩ := h.value
  have hblanks : ∀ c ∈ List.replicate indent ' ', Text.isBlank c = true := by
    intro c hc
    rw [List.eq_of_mem_replicate hc]
    decide
  rw [Declaration.css, Declaration.words, hv]
  simp only [Expr.literal?, String.toList_append, String.toList_ofList, List.append_assoc]
  refine Lexes.blanks ?_ hblanks
  refine (Token.writes_lowerName h.property).lexes (Token.apart_cons (by decide) _) ?_
  refine Token.writes_colon.lexes (Token.apart_cons (c := ' ') (by decide) _) ?_
  refine .space ?_
  refine (Literal.writes hl).lexes (Token.apart_cons (by decide) _) ?_
  exact Token.writes_semicolon.lexes (Token.apart_cons (c := '\n') (by decide) _) hw.line

theorem Item.lexes_all {body : List Item} (h : ∀ item ∈ body, item.Lexable) (indent : Nat)
    (hw : Lexes rest words) :
    Lexes (body.flatMap (fun item => (item.css indent).toList) ++ rest)
      (body.flatMap Item.words ++ words) := by
  induction body with
  | nil => exact hw
  | cons item body ih =>
    obtain ⟨⟨declaration, rfl, hd⟩, hbody⟩ := List.forall_mem_cons.mp h
    rw [List.flatMap_cons, List.flatMap_cons, List.append_assoc, List.append_assoc]
    exact hd.lexes indent (ih hbody)

theorem Selector.lexes_all {first : Selector} {others : List Selector}
    (h : ∀ selector ∈ first :: others, selector.Lexable) (hr : Token.Apart rest)
    (hw : Lexes rest words) :
    Lexes ((", ".intercalate ((first :: others).map Selector.name)).toList ++ rest)
      (selectorWords (first :: others) ++ words) := by
  induction others generalizing first with
  | nil =>
    have hfirst := (Selector.writes (h first List.mem_cons_self)).lexes hr hw
    simpa [selectorWords, Selector.word] using hfirst
  | cons second others ih =>
    obtain ⟨hfirst, hothers⟩ := List.forall_mem_cons.mp h
    have hs := ih hothers
    rw [String.toList_intercalate] at hs ⊢
    simp only [List.map_cons, List.intercalate_cons_cons, List.append_assoc] at hs ⊢
    refine (Selector.writes hfirst).lexes (Token.apart_cons (c := ',') (by decide) _) ?_
    exact Token.writes_comma.lexes (Token.apart_cons (c := ' ') (by decide) _) hs.space

theorem Rule.Lexable.lexes {rule : Rule} (h : rule.Lexable) (indent : Nat) (hw : Lexes rest words) :
    Lexes ((rule.css indent).toList ++ rest) (rule.words ++ words) := by
  obtain ⟨first, others, hs⟩ := List.exists_cons_of_ne_nil h.selectors_ne_nil
  have hselectors := hs ▸ h.selectors
  rw [Rule.css, Rule.words, hs]
  simp only [String.toList_append, String.toList_join, List.flatMap_map, List.append_assoc,
    List.cons_append]
  refine Selector.lexes_all hselectors (Token.apart_cons (c := ' ') (by decide) _) ?_
  refine .space (Token.writes_openCurly.lexes (Token.apart_cons (c := '\n') (by decide) _) ?_)
  refine .line (Item.lexes_all h.body indent ?_)
  exact Token.writes_closeCurly.lexes (Token.apart_cons (c := '\n') (by decide) _) hw.line

theorem Rule.lexes_all {rules : List Rule} (h : ∀ rule ∈ rules, rule.Lexable) (indent : Nat) :
    Lexes ("\n".intercalate (rules.map (Rule.css indent))).toList (rules.flatMap Rule.words) := by
  rw [String.toList_intercalate]
  induction rules with
  | nil => exact .nil
  | cons rule rules ih =>
    obtain ⟨hrule, hrules⟩ := List.forall_mem_cons.mp h
    have ih := ih hrules
    cases rules with
    | nil => simpa using hrule.lexes indent .nil
    | cons other rules =>
      simp only [List.map_cons, List.intercalate_cons_cons, List.append_assoc] at ih ⊢
      exact hrule.lexes indent ih.line

end Lexes

theorem Literal.spells {value : Literal} (h : value.Lexable) :
    Phrase.Operand (Token.bare value.word) (.literal value) := by
  cases value with
  | bool truth =>
    cases truth with
    | true => exact .yes rfl
    | false => exact .no rfl
  | color value => exact .color rfl
  | number measure value =>
    have hdigits := Text.Digits.intro Nat.toDigits_ne_nil fun _ => isDigit_of_mem_decimal
      (n := value.toInt.toNat)
    rw [Nat.ofDigitChars_toDigits (by decide) (by decide)] at hdigits
    have hnumeral := Text.Numeral.bare hdigits
    rw [Int.toNat_of_nonneg h] at hnumeral
    refine .number rfl ⟨_, ?_, hnumeral⟩
    show Text.Stem _ (Literal.number measure value).text.toList _
    rw [toList_text_number h]
    exact .cut _

theorem Selector.spells (selector : Selector) :
    Phrase.Selector (Token.bare selector.word) selector := by
  cases selector with
  | tag name => exact .tag rfl
  | className name => exact .className rfl
  | idName name =>
    by_cases hc : Lexeme.color name.toList = true
    · exact .color (if_pos hc)
    · exact .idName (if_neg hc)

theorem Declaration.Lexable.spells {declaration : Declaration} (h : declaration.Lexable) :
    Phrase.Item (declaration.words.map Token.bare) (.declaration declaration) := by
  obtain ⟨property, expr, fault⟩ := declaration
  obtain ⟨-, ⟨value, rfl, hl⟩, rfl⟩ := h
  exact .declaration (.intro rfl rfl (.operand (Literal.spells hl)) rfl)

theorem Item.spells_all {body : List Item} (h : ∀ item ∈ body, item.Lexable) :
    Phrase.Many Phrase.Item ((body.flatMap Item.words).map Token.bare) body := by
  induction body with
  | nil => exact .nil
  | cons item body ih =>
    obtain ⟨⟨declaration, rfl, hd⟩, hbody⟩ := List.forall_mem_cons.mp h
    rw [List.flatMap_cons, List.map_append]
    exact .cons hd.spells (ih hbody)

theorem Selector.spells_all (others : List Selector) :
    Phrase.Many Phrase.Further
      ((others.flatMap fun other => [(.comma, ","), other.word]).map Token.bare) others := by
  induction others with
  | nil => exact .nil
  | cons other others ih =>
    exact .cons (.comma (c := Token.bare (.comma, ",")) rfl other.spells) ih

theorem Rule.Lexable.spells {rule : Rule} (h : rule.Lexable) :
    Phrase.Member (rule.words.map Token.bare) (.rule rule) := by
  obtain ⟨selectors, body⟩ := rule
  obtain ⟨first, others, rfl⟩ := List.exists_cons_of_ne_nil h.selectors_ne_nil
  have hblock : Phrase.Block _ body := .braces (o := Token.bare (.openCurly, "\x7b"))
    (c := Token.bare (.closeCurly, "\x7d")) rfl (Item.spells_all h.body) rfl
  have hmember := Phrase.Member.rule first.spells (Selector.spells_all others) hblock
  simpa [words, selectorWords] using hmember

theorem Sheet.Lexable.exists_rules {members : List Member}
    (h : Sheet.Lexable ⟨members⟩) : ∃ rules : List Rule, members = rules.map .rule ∧
      ∀ rule ∈ rules, rule.Lexable := by
  induction members with
  | nil => exact ⟨[], rfl, by simp⟩
  | cons member members ih =>
    obtain ⟨⟨rule, rfl, hr⟩, hmembers⟩ := List.forall_mem_cons.mp h
    obtain ⟨rules, rfl, hrules⟩ := ih hmembers
    exact ⟨rule :: rules, rfl, List.forall_mem_cons.mpr ⟨hr, hrules⟩⟩

theorem Sheet.spells_rules {rules : List Rule} (h : ∀ rule ∈ rules, rule.Lexable) :
    Spells (rules.flatMap Rule.words) ⟨rules.map .rule⟩ := by
  induction rules with
  | nil => exact Phrase.Many.nil
  | cons rule rules ih =>
    obtain ⟨hrule, hrules⟩ := List.forall_mem_cons.mp h
    rw [Spells, List.flatMap_cons, List.map_append]
    exact Phrase.Many.cons hrule.spells (ih hrules)

theorem Sheet.Lexable.exists_words {sheet : Sheet} (h : sheet.Lexable) (indent : Nat) :
    ∃ words, Lexes (sheet.css indent).toList words ∧ Spells words sheet := by
  obtain ⟨members⟩ := sheet
  obtain ⟨rules, rfl, hr⟩ := h.exists_rules
  have hrules : (rules.map Member.rule).filterMap Member.rule? = rules := by
    rw [List.filterMap_map]
    exact List.filterMap_some
  refine ⟨_, ?_, spells_rules hr⟩
  rw [css, hrules]
  exact Rule.lexes_all hr indent

theorem Sheet.readSheet_css {sheet : Sheet} (h : sheet.Lexable) (indent : Nat) (file : String) :
    readSheet (sheet.css indent) file = .ok sheet :=
  readSheet_eq_ok_iff.mpr (h.exists_words indent)

/-- A colour, an id that looks like one, an id that only starts like one, and the largest number. -/
theorem Sheet.readSheet_css_lookalikes :
    let declarations : List Declaration := [⟨"color", .literal (.color "#12aBcD"), none⟩,
      ⟨"width", .literal (.number .pixel 9223372036854775807), none⟩]
    let selectors : List Selector :=
      [.idName "#12aBcD", .tag "a", .className ".if", .idName "#abcdef1-"]
    let sheet : Sheet := ⟨[.rule ⟨selectors, declarations.map .declaration⟩, .rule ⟨selectors, []⟩]⟩
    sheet.Lexable ∧ readSheet (sheet.css 3) "shell" = .ok sheet := by
  intro declarations selectors sheet
  have hselectors : ∀ selector ∈ selectors, selector.Lexable := by decide
  have hdeclarations : ∀ declaration ∈ declarations, declaration.Lexable := by
    intro declaration hm
    simp only [declarations, List.mem_cons, List.not_mem_nil, or_false] at hm
    rcases hm with rfl | rfl
    · exact ⟨by decide, ⟨_, rfl, by decide⟩, rfl⟩
    · exact ⟨by decide, ⟨_, rfl, by decide⟩, rfl⟩
  have hsheet : sheet.Lexable := by
    intro member hm
    simp only [sheet, List.mem_cons, List.not_mem_nil, or_false] at hm
    rcases hm with rfl | rfl
    · refine ⟨_, rfl, List.cons_ne_nil _ _, hselectors, fun item hi => ?_⟩
      obtain ⟨declaration, hd, rfl⟩ := List.mem_map.mp hi
      exact ⟨declaration, rfl, hdeclarations declaration hd⟩
    · exact ⟨_, rfl, List.cons_ne_nil _ _, hselectors, by simp⟩
  exact ⟨hsheet, Sheet.readSheet_css hsheet 3 "shell"⟩

end TypedStyle
