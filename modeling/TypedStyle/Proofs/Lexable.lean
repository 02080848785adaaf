import TypedStyle.Proofs.Seams

/-!
Texts that are words on their own: what names and colours look like, and that each of them, a
number and a mark are found again as one piece where nothing behind them could lengthen them.

Conversely every name and colour among the words of a text looks like one (`Lexes.lexable`).
-/

set_option autoImplicit false

namespace TypedStyle

namespace Lexeme

def color : List Char → Bool
  | '#' :: digits => digits.length == 6 && digits.all Token.isHexDigit
  | _ => false

def name : List Char → Bool
  | [] => false
  | c :: cs => c.isLower && cs.all Token.isNameChar &&
    !(["if", "else", "true", "false"].contains (String.ofList (c :: cs)))

def className : List Char → Bool
  | '.' :: cs => !cs.isEmpty && cs.all Token.isNameChar
  | _ => false

/-- An id may look like a colour, but not like a colour with a dash behind it. -/
def idName : List Char → Bool
  | '#' :: cs => color ('#' :: cs) || !cs.isEmpty && cs.all Token.isNameChar &&
    !(color ('#' :: cs.take 6) && (cs.drop 6).head? == some '-')
  | _ => false

end Lexeme

namespace Token

theorem isWord_of_isAlphanum {c : Char} (h : c.isAlphanum = true) : Text.isWord c = true := by
  rw [Text.isWord, if_pos (lt_of_isAlphanum h), Text.isAsciiWord, h, Bool.true_or]

theorem isAlphanum_of_isHexDigit {c : Char} (h : isHexDigit c = true) : c.isAlphanum = true := by
  simp only [isHexDigit, Bool.or_eq_true, Bool.and_eq_true, decide_eq_true_eq, Char.le_def,
    UInt32.le_iff_toNat_le, Char.toNat_val] at h
  rcases h with (hd | ⟨ha, hf⟩) | ⟨hA, hF⟩
  · exact isAlphanum_iff.mpr (.inr (.inr hd))
  · exact isAlphanum_iff.mpr
      (.inr (.inl (isLower_iff_toNat.mpr ⟨ha, Nat.le_trans hf (by decide)⟩)))
  · exact isAlphanum_iff.mpr (.inl (isUpper_iff_toNat.mpr ⟨hA, Nat.le_trans hF (by decide)⟩))

theorem isAlphanum_of_isNameChar {c : Char} (h : isNameChar c = true) (hd : c ≠ '-') :
    c.isAlphanum = true := by
  simp only [isNameChar, Bool.or_eq_true, beq_iff_eq, hd, or_false] at h
  exact isAlphanum_iff.mpr (.inr h)

/-- Nothing at the start of the text could lengthen a word in front of it. -/
def Apart (rest : List Char) : Prop :=
  ∀ c ∈ rest.head?, Text.isWord c = false ∧ c ≠ '-' ∧ c ≠ '%' ∧ c ≠ '='

section Apart

variable {rest : List Char}

theorem Apart.not_alphanum (h : Apart rest) : ∀ c ∈ rest.head?, c.isAlphanum = false := by
  intro c hc
  by_contra ha
  rw [Bool.not_eq_false] at ha
  exact absurd (isWord_of_isAlphanum ha) (by simp [(h c hc).1])

theorem Apart.not_nameChar (h : Apart rest) : ∀ c ∈ rest.head?, isNameChar c = false := by
  intro c hc
  by_contra hn
  rw [Bool.not_eq_false] at hn
  exact absurd (isAlphanum_of_isNameChar hn (h c hc).2.1) (by simp [h.not_alphanum c hc])

theorem Apart.not_hexDigit (h : Apart rest) : ∀ c ∈ rest.head?, isHexDigit c = false := by
  intro c hc
  by_contra hn
  rw [Bool.not_eq_false] at hn
  exact absurd (isAlphanum_of_isHexDigit hn) (by simp [h.not_alphanum c hc])

theorem Apart.not_digit (h : Apart rest) : ∀ c ∈ rest.head?, c.isDigit = false := by
  intro c hc
  have ha := h.not_alphanum c hc
  simp only [Char.isAlphanum, Bool.or_eq_false_iff] at ha
  exact ha.2

theorem Apart.not_variableChar (h : Apart rest) :
    ∀ c ∈ rest.head?, isVariableChar c = false := by
  intro c hc
  rw [isVariableChar, h.not_alphanum c hc, Bool.false_or, beq_eq_false_iff_ne]
  rintro rfl
  exact absurd (h _ hc).1 (by decide)

end Apart

/-- The pattern finds all of the text, whatever follows at a distance. -/
def Found (pattern : Pattern) (text : List Char) : Prop :=
  ∀ rest, Apart rest → Pattern.first? (text ++ rest) = some (pattern, text)

namespace Found

open Pattern

theorem lower {c : Char} {cs : List Char} (hc : c.isLower = true)
    (hcs : (c :: cs).all isNameChar = true) : Found .lowerName (c :: cs) := by
  intro rest hr
  have hrun := run?_append (List.cons_ne_nil c cs) (List.all_eq_true.mp hcs) hr.not_nameChar
  rw [List.cons_append] at hrun ⊢
  rw [first?_cons, candidates_of_isLower hc]
  simp [lexeme?, hc, hrun]

theorem name {text : List Char} (h : Lexeme.name text = true) : Found .lowerName text := by
  cases text with
  | nil => cases h
  | cons c cs =>
    simp only [Lexeme.name, Bool.and_eq_true] at h
    obtain ⟨⟨hc, hcs⟩, -⟩ := h
    have hname : isNameChar c = true := by simp [isNameChar, hc]
    exact lower hc (by rw [List.all_cons, hname, hcs, Bool.and_self])

theorem capitals {c : Char} {cs : List Char} (hc : c.isUpper = true)
    (hcs : (c :: cs).all isVariableChar = true) : Found .capitalName (c :: cs) := by
  intro rest hr
  have hrun := run?_append (List.cons_ne_nil c cs) (List.all_eq_true.mp hcs) hr.not_variableChar
  rw [List.cons_append] at hrun ⊢
  rw [first?_cons, candidates_of_isUpper hc]
  simp [lexeme?, hc, hrun]

theorem className {text : List Char} (h : Lexeme.className text = true) :
    Found .className text := by
  intro rest hr
  unfold Lexeme.className at h
  split at h
  · next cs =>
    simp only [Bool.and_eq_true, Bool.not_eq_true', List.isEmpty_eq_false_iff,
      List.all_eq_true] at h
    have hcandidates : candidates '.' = [.className] := by decide
    have hrun := run?_append h.1 h.2 hr.not_nameChar
    have hdot := followedBy_append (exactly?_append ['.'] (cs ++ rest)) (run? isNameChar)
    rw [hrun] at hdot
    rw [List.cons_append, first?_cons, hcandidates]
    simpa [lexeme?] using hdot
  · cases h

theorem candidates_hash : candidates '#' = [.color, .idName] := by
  decide

theorem first?_color {text rest : List Char} (h : Lexeme.color text = true)
    (hr : rest.head?.any Text.isWord = false) :
    first? (text ++ rest) = some (.color, text) := by
  unfold Lexeme.color at h
  split at h
  · next digits =>
    rw [Bool.and_eq_true, beq_iff_eq] at h
    have hsix : sixHexDigits? (digits ++ rest) = some digits := by
      rw [sixHexDigits?, List.take_left' h.1, List.drop_left' h.1, hr]
      simp [h.1, h.2]
    have hhash := followedBy_append (exactly?_append ['#'] (digits ++ rest)) sixHexDigits?
    rw [hsix] at hhash
    rw [List.cons_append, first?_cons, candidates_hash, List.findSome?_cons]
    simp only [lexeme?]
    rw [show '#' :: (digits ++ rest) = ['#'] ++ (digits ++ rest) from rfl, hhash]
    rfl
  · cases h

theorem color {text : List Char} (h : Lexeme.color text = true) : Found .color text := by
  intro rest hr
  have hnot : rest.head?.any Text.isWord = false := by
    cases hh : rest.head? with
    | none => rfl
    | some c => simpa using (hr c hh).1
  exact first?_color h hnot

/-- What cannot be a colour: there are not six digits, or the next character belongs to the name. -/
theorem sixHexDigits?_idName {cs rest : List Char} (hr : Apart rest)
    (hn : ∀ c ∈ cs, isNameChar c = true) (hc : Lexeme.color ('#' :: cs) = false)
    (hd : (Lexeme.color ('#' :: cs.take 6) && (cs.drop 6).head? == some '-') = false) :
    sixHexDigits? (cs ++ rest) = none := by
  rw [sixHexDigits?, if_neg]
  rintro ⟨hlen, hhex, hword⟩
  by_cases hle : 6 ≤ cs.length
  · rw [List.take_append_of_le_length hle] at hlen hhex
    rw [List.drop_append_of_le_length hle] at hword
    have hcolor : Lexeme.color ('#' :: cs.take 6) = true := by
      simp only [Lexeme.color, hlen, hhex, beq_self_eq_true, Bool.and_self]
    rw [hcolor, Bool.true_and, beq_eq_false_iff_ne] at hd
    cases hdrop : cs.drop 6 with
    | nil =>
      have htake : cs.take 6 = cs := by
        rw [List.take_of_length_le (List.drop_eq_nil_iff.mp hdrop)]
      rw [htake, hc] at hcolor
      cases hcolor
    | cons c more =>
      rw [hdrop] at hd hword
      have hmem : c ∈ cs := List.mem_of_mem_drop (hdrop ▸ List.mem_cons_self)
      have halnum := isAlphanum_of_isNameChar (hn c hmem) (by simpa using hd)
      exact hword (by simpa using isWord_of_isAlphanum halnum)
  · -- the sixth digit would stand behind the name
    obtain ⟨n, hlt⟩ : ∃ n, 6 - cs.length = n + 1 := ⟨5 - cs.length, by omega⟩
    rw [List.take_append, hlt] at hlen hhex
    cases rest with
    | nil =>
      simp only [List.take_nil, List.append_nil, List.length_take] at hlen
      omega
    | cons c more =>
      have hhexc := List.all_eq_true.mp hhex c (by simp)
      rw [hr.not_hexDigit c rfl] at hhexc
      cases hhexc

theorem idName {text : List Char} (h : Lexeme.idName text = true)
    (hc : Lexeme.color text = false) : Found .idName text := by
  intro rest hr
  unfold Lexeme.idName at h
  split at h
  · next cs =>
    rw [hc, Bool.false_or] at h
    simp only [Bool.and_eq_true, Bool.not_eq_true', List.isEmpty_eq_false_iff,
      List.all_eq_true] at h
    obtain ⟨⟨hne, hall⟩, hdash⟩ := h
    have hsix := sixHexDigits?_idName hr hall hc hdash
    have hrun := run?_append hne hall hr.not_nameChar
    have hhash : ∀ second, followedBy (exactly? ['#']) second ('#' :: (cs ++ rest)) =
        (second (cs ++ rest)).map ('#' :: ·) :=
      followedBy_append (exactly?_append ['#'] (cs ++ rest))
    rw [List.cons_append, first?_cons, candidates_hash, List.findSome?_cons, List.findSome?_cons]
    simp only [lexeme?, hhash, hsix, hrun]
    rfl
  · cases h

section Number

variable {digits : List Char}

theorem candidates_digits (hne : digits ≠ []) (hd : ∀ c ∈ digits, c.isDigit = true)
    (rest : List Char) : first? (digits ++ rest) =
      [Pattern.pixelSize, .percentage, .scalar].findSome? fun pattern =>
        (pattern.lexeme? (digits ++ rest)).map (pattern, ·) := by
  obtain ⟨c, cs, rfl⟩ := List.exists_cons_of_ne_nil hne
  rw [List.cons_append, first?_cons, candidates_of_isDigit (hd c List.mem_cons_self)]

theorem followedBy_digits {rest : List Char} (hne : digits ≠ [])
    (hd : ∀ c ∈ digits, c.isDigit = true) (hr : ∀ c ∈ rest.head?, c.isDigit = false)
    (second : List Char → Option (List Char)) :
    followedBy (run? Char.isDigit) second (digits ++ rest) =
      (second rest).map (digits ++ ·) :=
  followedBy_append (run?_append hne hd hr) second

theorem exactly?_ne {head : Char} {tail rest : List Char} (h : rest.head? ≠ some head) :
    exactly? (head :: tail) rest = none := by
  cases rest with
  | nil => rfl
  | cons c rest =>
    rw [exactly?, if_neg]
    intro hp
    simp only [List.isPrefixOf, Bool.and_eq_true, beq_iff_eq] at hp
    exact h (by rw [List.head?_cons, hp.1])

theorem pixelSize (hne : digits ≠ []) (hd : ∀ c ∈ digits, c.isDigit = true) :
    Found .pixelSize (digits ++ ['p', 'x']) := by
  intro rest _
  have hr : ∀ c ∈ (['p', 'x'] ++ rest).head?, c.isDigit = false := by simp
  rw [List.append_assoc, candidates_digits hne hd, List.findSome?_cons]
  simp only [lexeme?, followedBy_digits hne hd hr, exactly?_append]
  rfl

theorem percentage (hne : digits ≠ []) (hd : ∀ c ∈ digits, c.isDigit = true) :
    Found .percentage (digits ++ ['%']) := by
  intro rest _
  have hr : ∀ c ∈ (['%'] ++ rest).head?, c.isDigit = false := by simp
  have hp : exactly? ['p', 'x'] (['%'] ++ rest) = none := exactly?_ne (by simp)
  rw [List.append_assoc, candidates_digits hne hd, List.findSome?_cons, List.findSome?_cons]
  simp only [lexeme?, followedBy_digits hne hd hr, exactly?_append, hp]
  rfl

theorem scalar (hne : digits ≠ []) (hd : ∀ c ∈ digits, c.isDigit = true) :
    Found .scalar digits := by
  intro rest hr
  have hp : exactly? ['p', 'x'] rest = none := exactly?_ne fun h =>
    absurd (hr.not_alphanum _ h) (by decide)
  have hs : exactly? ['%'] rest = none := exactly?_ne fun h => (hr _ h).2.2.1 rfl
  rw [candidates_digits hne hd]
  simp only [lexeme?, List.findSome?_cons, followedBy_digits hne hd hr.not_digit, hp, hs,
    run?_append hne hd hr.not_digit]
  rfl

end Number

theorem mark {c : Char} {kind : Kind} (h : candidates c = [.mark c [] kind]) :
    Found (.mark c [] kind) [c] := by
  intro rest _
  rw [List.singleton_append, first?_cons, h]
  simp [lexeme?, exactly?]

theorem colon : Found (.mark ':' [] .colon) [':'] := by
  intro rest hr
  have hcandidates : candidates ':' = [.mark ':' ['='] .assign, .mark ':' [] .colon] := by decide
  have hassign : exactly? [':', '='] (':' :: rest) = none := by
    cases rest with
    | nil => rfl
    | cons c rest =>
      have hc := (hr c rfl).2.2.2
      simp [exactly?, List.isPrefixOf, Ne.symm hc]
  rw [List.singleton_append, first?_cons, hcandidates, List.findSome?_cons, List.findSome?_cons]
  simp only [lexeme?, hassign]
  simp [exactly?]

theorem assign : Found (.mark ':' ['='] .assign) [':', '='] := by
  intro rest _
  have hcandidates : candidates ':' = [.mark ':' ['='] .assign, .mark ':' [] .colon] := by decide
  rw [List.cons_append, first?_cons, hcandidates, List.findSome?_cons]
  simp [lexeme?, exactly?, List.isPrefixOf]

end Found

def Word.Writes (word : Word) : Prop :=
  ∃ pattern : Pattern, Found pattern word.2.toList ∧
    pattern.kind? word.2.toList = some word.1

theorem Word.Writes.lexes {word : Word} (h : word.Writes) {rest : List Char} {words : List Word}
    (hr : Apart rest) (hw : Lexes rest words) :
    Lexes (word.2.toList ++ rest) (word :: words) := by
  obtain ⟨pattern, hf, hk⟩ := h
  have hl := Lexes.cons (hf rest hr) hk hw
  rwa [String.ofList_toList] at hl

theorem apart_cons {c : Char} (h : Text.isWord c = false ∧ c ≠ '-' ∧ c ≠ '%' ∧ c ≠ '=')
    (rest : List Char) : Apart (c :: rest) := by
  intro d hd
  cases hd
  exact h

/-- A name or a colour looks like one; nothing is asked of other words. -/
def Word.lexable : Word → Bool
  | (.lowerName, text) => Lexeme.name text.toList
  | (.className, text) => Lexeme.className text.toList
  | (.idName, text) => Lexeme.idName text.toList
  | (.color, text) => Lexeme.color text.toList
  | _ => true

section Words

open Pattern

variable {cs text : List Char}

theorem of_followedBy_exactly? {head : Char} {second : List Char → Option (List Char)}
    (h : followedBy (exactly? [head]) second cs = some text) :
    ∃ rest tail, cs = head :: rest ∧ second rest = some tail ∧ text = head :: tail := by
  obtain ⟨front, tail, hf, ht, rfl⟩ := followedBy_eq_some_iff.mp h
  obtain ⟨rest, rfl⟩ := initial_exactly? _ _ _ hf
  simp only [exactly?, Option.ite_none_right_eq_some, Option.some.injEq] at hf
  obtain ⟨-, rfl⟩ := hf
  exact ⟨rest, tail, rfl, by simpa using ht, rfl⟩

theorem of_run? {p : Char → Bool} (h : run? p cs = some text) :
    text ≠ [] ∧ text.all p = true := by
  obtain ⟨rfl, hne⟩ := run?_eq_some_iff.mp h
  exact ⟨hne, List.all_takeWhile⟩

theorem lexable_name (h : Pattern.lowerName.lexeme? cs = some text)
    (hr : reserved? (String.ofList text) = none) : Lexeme.name text = true := by
  simp only [lexeme?, Option.ite_none_right_eq_some] at h
  obtain ⟨hhead, hrun⟩ := h
  obtain ⟨hne, hall⟩ := of_run? hrun
  obtain ⟨more, rfl⟩ := initial_run? _ _ _ hrun
  obtain ⟨c, rest, rfl⟩ := List.exists_cons_of_ne_nil hne
  have hreserved : ∀ word ∈ ["if", "else", "true", "false"], reserved? word ≠ none := by decide
  simp only [Lexeme.name, Bool.and_eq_true, Bool.not_eq_true', List.contains_eq_mem,
    decide_eq_false_iff_not]
  refine ⟨⟨by simpa using hhead, ?_⟩, fun hm => hreserved _ hm hr⟩
  rw [List.all_cons, Bool.and_eq_true] at hall
  exact hall.2

theorem lexable_color (h : Pattern.color.lexeme? cs = some text) : Lexeme.color text = true := by
  obtain ⟨rest, digits, rfl, hs, rfl⟩ := of_followedBy_exactly? h
  simp only [sixHexDigits?, Option.ite_none_right_eq_some, Option.some.injEq] at hs
  obtain ⟨⟨hlen, hhex, -⟩, rfl⟩ := hs
  simp only [Lexeme.color, hlen, hhex, beq_self_eq_true, Bool.and_self]

theorem lexable_className (h : Pattern.className.lexeme? cs = some text) :
    Lexeme.className text = true := by
  obtain ⟨rest, name, rfl, hs, rfl⟩ := of_followedBy_exactly? h
  obtain ⟨hne, hall⟩ := of_run? hs
  simp [Lexeme.className, hne, hall]

theorem sixHexDigits?_of_idName (h : first? ('#' :: cs) = some (.idName, text)) :
    sixHexDigits? cs = none := by
  have hhash := followedBy_append (exactly?_append ['#'] cs) sixHexDigits?
  rw [first?_cons, Found.candidates_hash, List.findSome?_cons] at h
  cases hs : sixHexDigits? cs with
  | none => rfl
  | some digits =>
    rw [hs] at hhash
    rw [show Pattern.color.lexeme? ('#' :: cs) = some ('#' :: digits) from hhash] at h
    cases h

theorem lexable_idName (h : first? cs = some (.idName, text)) : Lexeme.idName text = true := by
  obtain ⟨rest, name, rfl, hs, rfl⟩ := of_followedBy_exactly? (first?_eq_some h)
  obtain ⟨hne, hall⟩ := of_run? hs
  obtain ⟨more, rfl⟩ := initial_run? _ _ _ hs
  have hsix := sixHexDigits?_of_idName h
  simp only [Lexeme.idName, Bool.or_eq_true, Bool.and_eq_true, Bool.not_eq_true',
    List.isEmpty_eq_false_iff]
  refine .inr ⟨⟨hne, hall⟩, ?_⟩
  rw [Bool.and_eq_false_iff]
  by_contra hboth
  simp only [not_or, Bool.not_eq_false, beq_iff_eq] at hboth
  obtain ⟨hcolor, hdash⟩ := hboth
  obtain ⟨others, hothers⟩ := List.head?_eq_some_iff.mp hdash
  have hle : 6 ≤ name.length := by
    by_contra hlt
    rw [List.drop_eq_nil_of_le (by omega)] at hothers
    cases hothers
  simp only [Lexeme.color, Bool.and_eq_true, beq_iff_eq] at hcolor
  have hdash' : Text.isWord '-' = false := by decide
  rw [sixHexDigits?, List.take_append_of_le_length hle, List.drop_append_of_le_length hle,
    hothers, List.cons_append, if_pos ⟨hcolor.1, hcolor.2, by simp [hdash']⟩] at hsix
  cases hsix

theorem lexable_of_kind {kind : Kind} (h : kind ∉ [.lowerName, .className, .idName, .color])
    (value : String) : Word.lexable (kind, value) = true := by
  cases kind <;> first | rfl | exact absurd h (by decide)

theorem lexable_reserved {word : String} {kind : Kind} (h : reserved? word = some kind)
    (value : String) : Word.lexable (kind, value) = true := by
  have hkinds : ∀ entry ∈ reservedWords,
      entry.2 ∉ [Kind.lowerName, .className, .idName, .color] := by decide
  exact lexable_of_kind (hkinds _ (mem_reservedWords h)) value

theorem lexable_mark {head : Char} {tail : List Char} {kind : Kind}
    (h : .mark head tail kind ∈ table) (value : String) : Word.lexable (kind, value) = true := by
  have hmarks : ∀ pattern ∈ table, (match pattern with
      | .mark _ _ kind => decide (kind ∉ [.lowerName, .className, .idName, .color])
      | _ => true) = true := by decide
  exact lexable_of_kind (of_decide_eq_true (hmarks _ h)) value

theorem reserved_or_default {word : String} {default kind : Kind}
    (h : some ((reserved? word).getD default) = some kind) :
    reserved? word = some kind ∨ reserved? word = none ∧ default = kind := by
  cases hr : reserved? word with
  | none =>
    rw [hr] at h
    exact .inr ⟨rfl, Option.some.inj h⟩
  | some reserved =>
    rw [hr] at h
    exact .inl h

theorem lexable_of_first? {pattern : Pattern} {kind : Kind} (h : first? cs = some (pattern, text))
    (hk : pattern.kind? text = some kind) : Word.lexable (kind, String.ofList text) = true := by
  have hl := first?_eq_some h
  cases pattern with
  | color =>
    cases hk
    simpa [Word.lexable] using lexable_color hl
  | idName =>
    cases hk
    simpa [Word.lexable] using lexable_idName h
  | className =>
    cases hk
    simpa [Word.lexable] using lexable_className hl
  | capitalName =>
    rcases reserved_or_default hk with hr | ⟨-, rfl⟩
    · exact lexable_reserved hr _
    · exact lexable_of_kind (by decide) _
  | lowerName =>
    rcases reserved_or_default hk with hr | ⟨hr, rfl⟩
    · exact lexable_reserved hr _
    · simpa [Word.lexable] using lexable_name hl hr
  | mark head tail mark =>
    cases hk
    exact lexable_mark (mem_table_of_first? h) _
  | _ =>
    cases hk
    all_goals exact lexable_of_kind (by decide) _

end Words

end Token

theorem Lexes.lexable {text : List Char} {words : List Token.Word} (h : Lexes text words) :
    ∀ word ∈ words, word.lexable = true := by
  obtain ⟨pieces, hc, rfl⟩ := h
  generalize ([] : List Char) = left at hc
  induction hc with
  | done => simp [Token.words]
  | @piece pattern lexeme rest left pieces hf _ ih =>
    cases hk : pattern.kind? lexeme with
    | none => rwa [Token.words_cons_of_none hk]
    | some kind =>
      rw [Token.words_cons_of_some hk]
      exact List.forall_mem_cons.mpr ⟨Token.lexable_of_first? hf hk, ih⟩

end TypedStyle
