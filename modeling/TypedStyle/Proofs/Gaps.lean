import TypedStyle.Proofs.Shapes

set_option autoImplicit false

namespace TypedStyle

namespace Token

/-- Blanks and comments. The line break that ends a line comment belongs to the gap. -/
inductive Gap : List Char → Prop
  | nil : Gap []
  | blank {c : Char} {rest : List Char} : Text.isBlank c = true → Gap rest → Gap (c :: rest)
  | block {comment rest : List Char} : BlockComment comment → Gap rest → Gap (comment ++ rest)
  | line {comment rest : List Char} : LineComment comment → Gap rest →
      Gap (comment ++ '\n' :: rest)

/-- A gap, or a gap with a line comment behind it that no line break ends. -/
def LastGap (text : List Char) : Prop :=
  ∃ gap comment, text = gap ++ comment ∧ Gap gap ∧ (comment = [] ∨ LineComment comment)

section Blank

theorem isBlank_ofNat : ∀ n < 128, Text.isBlank (Char.ofNat n) = true →
    Text.isAsciiWord (Char.ofNat n) = false ∧ Char.ofNat n ∉ ['-', '%', '='] := by
  decide

theorem disjoint_blankRanges : ∀ blank ∈ Text.blankRanges, ∀ word ∈ Text.wordRanges,
    blank.last < word.first ∨ word.last < blank.first := by
  decide +kernel

theorem isWord_of_isBlank {c : Char} (h : Text.isBlank c = true) : Text.isWord c = false := by
  rw [Text.isWord]
  split
  · next hc =>
    have hn := isBlank_ofNat c.toNat hc
    rw [Char.ofNat_toNat] at hn
    exact (hn h).1
  · cases hw : Text.inRanges Text.wordRanges c with
    | false => rfl
    | true =>
      obtain ⟨blank, hb, hblank⟩ := Text.inRanges_iff.mp h
      obtain ⟨word, hm, hword⟩ := Text.inRanges_iff.mp hw
      have := disjoint_blankRanges blank hb word hm
      omega

theorem Gap.head {gap : List Char} (h : Gap gap) :
    ∀ c ∈ gap.head?, Text.isBlank c = true ∨ c = '/' := by
  cases h with
  | nil => simp
  | blank hb => simp [hb]
  | block hc =>
    obtain ⟨body, rfl, -⟩ := hc
    simp
  | line hc =>
    obtain ⟨body, rfl, -⟩ := hc
    simp

theorem Gap.apart {gap rest : List Char} (h : Gap gap) (hr : gap = [] → rest = []) :
    Apart (gap ++ rest) := by
  intro c hc
  have hhead : c ∈ gap.head? := by
    cases gap with
    | nil =>
      rw [hr rfl] at hc
      cases hc
    | cons d gap => exact hc
  rcases h.head c hhead with hb | rfl
  · refine ⟨isWord_of_isBlank hb, ?_, ?_, ?_⟩ <;> (rintro rfl; exact absurd hb (by decide))
  · decide

end Blank

namespace Pattern

variable {rest : List Char}

theorem candidates_slash : candidates '/' = [.blockComment, .lineComment] := by
  decide

theorem throughClose?_of_body {body : List Char} (h : ¬['*', '/'] <:+: body) (rest : List Char) :
    throughClose? (body ++ '*' :: '/' :: rest) = some (body ++ ['*', '/']) := by
  induction body with
  | nil => simp [throughClose?]
  | cons c body ih =>
    rw [List.infix_cons_iff, not_or] at h
    have hc : ¬(c = '*' ∧ (body ++ '*' :: '/' :: rest).head? = some '/') := by
      rintro ⟨rfl, hs⟩
      cases body with
      | nil => cases hs
      | cons d body =>
        obtain rfl : d = '/' := Option.some.inj hs
        exact h.1 (by simp)
    rw [List.cons_append, throughClose?, if_neg hc, ih h.2]
    rfl

theorem first?_blockComment {comment : List Char} (h : BlockComment comment) (rest : List Char) :
    first? (comment ++ rest) = some (.blockComment, comment) := by
  obtain ⟨body, rfl, hb⟩ := h
  have hclose := throughClose?_of_body hb rest
  have hopen := followedBy_append (exactly?_append ['/', '*'] (body ++ '*' :: '/' :: rest))
    throughClose?
  rw [hclose] at hopen
  have htext : '/' :: '*' :: (body ++ ['*', '/']) ++ rest =
      '/' :: ('*' :: (body ++ '*' :: '/' :: rest)) := by simp
  rw [htext, first?_cons, candidates_slash, List.findSome?_cons]
  simp only [lexeme?]
  rw [show '/' :: ('*' :: (body ++ '*' :: '/' :: rest)) =
    ['/', '*'] ++ (body ++ '*' :: '/' :: rest) from rfl, hopen]
  rfl

theorem first?_lineComment {comment : List Char} (h : LineComment comment) (rest : List Char) :
    first? (comment ++ '\n' :: rest) = some (.lineComment, comment) := by
  obtain ⟨body, rfl, hb⟩ := h
  have hall : ∀ c ∈ body, decide (c ≠ '\n') = true := by
    intro c hc
    rw [decide_eq_true_eq]
    rintro rfl
    exact hb hc
  have hrun : runOrNone? (· ≠ '\n') (body ++ '\n' :: rest) = some body := by
    rw [runOrNone?, List.takeWhile_append_of_pos hall]
    simp
  have hopen := followedBy_append (exactly?_append ['/', '/'] (body ++ '\n' :: rest))
    (runOrNone? (· ≠ '\n'))
  rw [hrun] at hopen
  rw [List.cons_append, first?_cons, candidates_slash, List.findSome?_cons, List.findSome?_cons]
  simp only [lexeme?]
  rw [show '/' :: ('/' :: body ++ '\n' :: rest) = ['/', '/'] ++ (body ++ '\n' :: rest) from rfl,
    hopen]
  rfl

end Pattern

end Token

namespace Lexes

variable {text rest : List Char} {words : List Token.Word}

theorem skip {pattern : Token.Pattern}
    (hf : Token.Pattern.first? (text ++ rest) = some (pattern, text))
    (hk : pattern.kind? text = none) (h : Lexes rest words) : Lexes (text ++ rest) words := by
  obtain ⟨pieces, hc, rfl⟩ := h
  exact ⟨_, .piece hf hc, Token.words_cons_of_none hk pieces⟩

end Lexes

theorem Token.Gap.lexes {gap rest : List Char} {words : List Token.Word} (h : Token.Gap gap)
    (hr : Lexes rest words) : Lexes (gap ++ rest) words := by
  induction h with
  | nil => exact hr
  | @blank c gap hb _ ih =>
    show Lexes ([c] ++ (gap ++ rest)) words
    exact ih.blanks (List.forall_mem_singleton.mpr hb)
  | block hc _ ih =>
    rw [List.append_assoc]
    exact .skip (Token.Pattern.first?_blockComment hc _) rfl ih
  | line hc _ ih =>
    rw [List.append_assoc]
    have hbreak : ∀ c ∈ ['\n'], Text.isBlank c = true := List.forall_mem_singleton.mpr (by decide)
    exact .skip (Token.Pattern.first?_lineComment hc _) rfl (ih.blanks hbreak)

namespace Token

theorem Gap.blanks {blanks rest : List Char} (hb : ∀ c ∈ blanks, Text.isBlank c = true)
    (h : Gap rest) : Gap (blanks ++ rest) := by
  induction blanks with
  | nil => exact h
  | cons c blanks ih =>
    obtain ⟨hc, hblanks⟩ := List.forall_mem_cons.mp hb
    exact .blank hc (ih hblanks)

theorem Gap.of_newline {rest : List Char} (h : Gap ('\n' :: rest)) : Gap rest := by
  generalize ht : '\n' :: rest = text at h
  cases h with
  | nil => cases ht
  | blank _ hr =>
    cases ht
    exact hr
  | block hc =>
    obtain ⟨body, rfl, -⟩ := hc
    cases ht
  | line hc =>
    obtain ⟨body, rfl, -⟩ := hc
    cases ht

theorem newline_of_lineComment {comment rest : List Char}
    (h : Pattern.first? (comment ++ rest) = some (.lineComment, comment)) :
    ∀ c ∈ rest.head?, c = '\n' := by
  obtain ⟨head, tail, hh, ht, he⟩ := Pattern.followedBy_eq_some_iff.mp (Pattern.first?_eq_some h)
  rw [← he, List.append_assoc, List.drop_left, Pattern.runOrNone?, Option.some.injEq] at ht
  intro c hc
  simpa using Pattern.head_of_takeWhile ht c hc

theorem Cuts.gap {text left : List Char} {pieces : List Piece} (h : Cuts text pieces left)
    (hw : words pieces = []) (hl : ∀ c ∈ left.head?, Text.isBlank c = false) :
    ∃ gap comment, pieces.flatMap Prod.snd = gap ++ comment ∧ Gap gap ∧
      (comment = [] ∨ left = [] ∧ LineComment comment) := by
  induction h with
  | done => exact ⟨[], [], rfl, .nil, .inl rfl⟩
  | @piece pattern lexeme rest left pieces hf hc ih =>
    cases hk : pattern.kind? lexeme with
    | some kind =>
      rw [words_cons_of_some hk] at hw
      cases hw
    | none =>
      rw [words_cons_of_none hk] at hw
      obtain ⟨gap, comment, he, hg, hcomment⟩ := ih hw hl
      have hshape := Pattern.shape_of_lexeme? (Pattern.first?_eq_some hf)
      have hjoin : ((pattern, lexeme) :: pieces).flatMap Prod.snd = lexeme ++ gap ++ comment := by
        rw [List.flatMap_cons, he, List.append_assoc]
      cases pattern with
      | blanks => exact ⟨lexeme ++ gap, comment, hjoin, hg.blanks hshape, hcomment⟩
      | blockComment => exact ⟨lexeme ++ gap, comment, hjoin, .block hshape hg, hcomment⟩
      | lineComment =>
        have hnewline := newline_of_lineComment hf
        rw [hc.text_eq, he] at hnewline
        cases gap with
        | cons c gap =>
          obtain rfl : c = '\n' := hnewline c rfl
          exact ⟨lexeme ++ '\n' :: gap, comment, hjoin, .line hshape hg.of_newline, hcomment⟩
        | nil =>
          rcases hcomment with rfl | ⟨-, body, rfl, -⟩
          -- the text ends with this comment, since no blank follows the pieces
          · cases left with
            | nil => exact ⟨[], lexeme, by simpa using hjoin, .nil, .inr ⟨rfl, hshape⟩⟩
            | cons c left =>
              obtain rfl : c = '\n' := hnewline c rfl
              exact absurd (hl _ rfl) (by decide)
          · exact absurd (hnewline '/' rfl) (by decide)
      | _ => cases hk

end Token

end TypedStyle
