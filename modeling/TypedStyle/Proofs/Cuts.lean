import TypedStyle.Token.Scan

set_option autoImplicit false

namespace TypedStyle

namespace Token

abbrev Piece := Pattern × List Char

/-- What a token says, wherever it stands. -/
abbrev Word := Kind × String

def word (token : Token) : Word :=
  (token.kind, token.value)

def Piece.word? (piece : Piece) : Option Word :=
  (piece.1.kind? piece.2).map (·, String.ofList piece.2)

/-- Blanks and comments are no words. -/
def words (pieces : List Piece) : List Word :=
  pieces.filterMap Piece.word?

theorem words_cons_of_none {pattern : Pattern} {lexeme : List Char}
    (h : pattern.kind? lexeme = none) (pieces : List Piece) :
    words ((pattern, lexeme) :: pieces) = words pieces := by
  rw [words, List.filterMap_cons, Piece.word?, h]
  rfl

theorem words_cons_of_some {pattern : Pattern} {lexeme : List Char} {kind : Kind}
    (h : pattern.kind? lexeme = some kind) (pieces : List Piece) :
    words ((pattern, lexeme) :: pieces) = (kind, String.ofList lexeme) :: words pieces := by
  rw [words, List.filterMap_cons, Piece.word?, h]
  rfl

def placed (file : String) : Nat → List Piece → List Token
  | _, [] => []
  | offset, (pattern, lexeme) :: pieces =>
    let stop := offset + Text.byteLength lexeme
    (pattern.token? lexeme ⟨⟨.ofNat offset, file⟩, ⟨.ofNat stop, file⟩⟩).toList ++
      placed file stop pieces

theorem map_word_placed (file : String) (pieces : List Piece) (offset : Nat) :
    (placed file offset pieces).map word = words pieces := by
  induction pieces generalizing offset with
  | nil => rfl
  | cons piece pieces ih =>
    obtain ⟨pattern, lexeme⟩ := piece
    rw [placed, List.map_append, ih]
    cases h : pattern.kind? lexeme <;> simp [Pattern.token?, h, word, words, Piece.word?]

/-- From its start on, a text is cut into these pieces, each by the first pattern that finds
anything, and this is left. -/
inductive Cuts : List Char → List Piece → List Char → Prop
  | done (left : List Char) : Cuts left [] left
  | piece {pattern : Pattern} {lexeme rest left : List Char} {pieces : List Piece} :
      Pattern.first? (lexeme ++ rest) = some (pattern, lexeme) → Cuts rest pieces left →
      Cuts (lexeme ++ rest) ((pattern, lexeme) :: pieces) left

theorem Cuts.text_eq {text left : List Char} {pieces : List Piece} (h : Cuts text pieces left) :
    text = pieces.flatMap Prod.snd ++ left := by
  induction h with
  | done left => rfl
  | piece _ _ ih => rw [List.flatMap_cons, List.append_assoc, ← ih]

theorem first?_eq_append {text lexeme : List Char} {pattern : Pattern}
    (h : Pattern.first? text = some (pattern, lexeme)) :
    lexeme ≠ [] ∧ ∃ rest, text = lexeme ++ rest := by
  have hl := Pattern.first?_eq_some h
  obtain ⟨rest, hr⟩ := Pattern.isPrefix_of_lexeme? pattern _ _ hl
  exact ⟨Pattern.ne_nil_of_lexeme? pattern _ _ hl, rest, hr.symm⟩

theorem Pattern.mem_table_of_first? {text lexeme : List Char} {pattern : Pattern}
    (h : first? text = some (pattern, lexeme)) : pattern ∈ table := by
  obtain ⟨found, hm, hf⟩ := List.exists_of_findSome?_eq_some h
  obtain ⟨_, _, he⟩ := Option.map_eq_some_iff.mp hf
  cases he
  exact hm

theorem mem_reservedWords {word : String} {kind : Kind} (h : reserved? word = some kind) :
    (word, kind) ∈ reservedWords := by
  obtain ⟨front, rest, he, _⟩ := List.lookup_eq_some_iff.mp h
  exact he ▸ by simp

theorem exists_cuts (text : List Char) :
    ∃ pieces left, Cuts text pieces left ∧ (left = [] ∨ Pattern.first? left = none) := by
  induction hn : text.length using Nat.strongRecOn generalizing text with
  | ind n ih =>
    cases hf : Pattern.first? text with
    | none => exact ⟨[], text, .done text, .inr hf⟩
    | some found =>
      obtain ⟨pattern, lexeme⟩ := found
      obtain ⟨hne, rest, rfl⟩ := first?_eq_append hf
      have hpos := List.length_pos_iff.mpr hne
      rw [List.length_append] at hn
      obtain ⟨pieces, left, hc, hl⟩ := ih rest.length (by omega) rest rfl
      exact ⟨(pattern, lexeme) :: pieces, left, .piece hf hc, hl⟩

section Scan

variable {file : String} {offset : Nat}

theorem Cursor.scan_nil :
    (Cursor.mk file offset [] 0).scan = .ok [eof ⟨.ofNat offset, file⟩] := by
  rw [Cursor.scan]
  rfl

theorem Cursor.scan_stuck {c : Char} {rest : List Char} (hf : Pattern.first? (c :: rest) = none) :
    (Cursor.mk file offset (c :: rest) 0).scan =
      .error ⟨.unrecognisedToken (String.singleton c), some ⟨.ofNat offset, file⟩⟩ := by
  have hpeek : (Cursor.mk file offset (c :: rest) 0).peek? = some c := rfl
  rw [Cursor.scan, hpeek]
  split
  · next h => cases h
  · next h =>
    cases h
    split
    · rfl
    · next h => rw [hf] at h; cases h

theorem Cursor.scan_piece {lexeme rest : List Char} {pattern : Pattern}
    (hf : Pattern.first? (lexeme ++ rest) = some (pattern, lexeme)) :
    (Cursor.mk file offset (lexeme ++ rest) 0).scan =
      (Cursor.mk file (offset + Text.byteLength lexeme) rest 0).scan.map
        (placed file offset [(pattern, lexeme)] ++ ·) := by
  have hadvance : (Cursor.mk file offset (lexeme ++ rest) 0).advance (Text.byteLength lexeme) =
      ⟨file, offset + Text.byteLength lexeme, rest, 0⟩ := Cursor.advance_byteLength rfl rfl
  obtain ⟨c, cs, hcs⟩ := List.exists_cons_of_ne_nil (first?_eq_append hf).1
  have hpeek : (Cursor.mk file offset (lexeme ++ rest) 0).peek? = some c := by
    rw [hcs]
    rfl
  rw [Cursor.scan, hpeek]
  split
  · next h => cases h
  · split
    · next h => rw [hf] at h; cases h
    · next h =>
      rw [hf] at h
      cases h
      simp [hadvance, placed, Cursor.span, Cursor.position]

theorem Cuts.scan {text left : List Char} {pieces : List Piece} (h : Cuts text pieces left)
    (file : String) (offset : Nat) :
    (Cursor.mk file offset text 0).scan =
      (Cursor.mk file (offset + Text.byteLength (pieces.flatMap Prod.snd)) left 0).scan.map
        (placed file offset pieces ++ ·) := by
  induction h generalizing offset with
  | done left =>
    cases h : (Cursor.mk file offset left 0).scan <;> simp [h, placed, Except.map]
  | @piece pattern lexeme rest left pieces hf _ ih =>
    rw [Cursor.scan_piece hf, ih, List.flatMap_cons, Text.byteLength_append, ← Nat.add_assoc]
    cases (Cursor.mk file (offset + Text.byteLength lexeme +
      Text.byteLength (pieces.flatMap Prod.snd)) left 0).scan <;> simp [Except.map, placed]

theorem Cursor.scan_eq_ok_iff {text : List Char} {tokens : List Token} :
    (Cursor.mk file offset text 0).scan = .ok tokens ↔ ∃ pieces, Cuts text pieces [] ∧
      tokens =
        placed file offset pieces ++ [eof ⟨.ofNat (offset + Text.byteLength text), file⟩] := by
  constructor
  · intro h
    obtain ⟨pieces, left, hc, hl⟩ := exists_cuts text
    cases left with
    | nil =>
      have htext := hc.text_eq
      rw [List.append_nil] at htext
      rw [hc.scan, Cursor.scan_nil, ← htext] at h
      exact ⟨pieces, hc, (Except.ok.inj h).symm⟩
    | cons c left =>
      rw [hc.scan, Cursor.scan_stuck (hl.resolve_left (List.cons_ne_nil c left))] at h
      cases h
  · intro h
    obtain ⟨pieces, hc, rfl⟩ := h
    have htext := hc.text_eq
    rw [List.append_nil] at htext
    rw [hc.scan, Cursor.scan_nil, ← htext]
    rfl

end Scan

end Token

/-- The text is made of these words, with blanks and comments around them. -/
def Lexes (text : List Char) (words : List Token.Word) : Prop :=
  ∃ pieces, Token.Cuts text pieces [] ∧ Token.words pieces = words

namespace Lexes

variable {text rest : List Char} {words : List Token.Word}

theorem nil : Lexes [] [] :=
  ⟨[], .done [], rfl⟩

theorem cons {pattern : Token.Pattern} {kind : Token.Kind}
    (hf : Token.Pattern.first? (text ++ rest) = some (pattern, text))
    (hk : pattern.kind? text = some kind) (h : Lexes rest words) :
    Lexes (text ++ rest) ((kind, String.ofList text) :: words) := by
  obtain ⟨pieces, hc, rfl⟩ := h
  exact ⟨_, .piece hf hc, Token.words_cons_of_some hk pieces⟩

theorem scan (h : Lexes text words) (file : String) (offset : Nat) :
    ∃ tokens last, (Token.Cursor.mk file offset text 0).scan = .ok (tokens ++ [last]) ∧
      tokens.map Token.word = words := by
  obtain ⟨pieces, hc, rfl⟩ := h
  exact ⟨_, _, Token.Cursor.scan_eq_ok_iff.mpr ⟨pieces, hc, rfl⟩, Token.map_word_placed ..⟩

theorem of_scan {file : String} {offset : Nat} {tokens : List Token} {last : Token}
    (h : (Token.Cursor.mk file offset text 0).scan = .ok (tokens ++ [last])) :
    Lexes text (tokens.map Token.word) := by
  obtain ⟨pieces, hc, he⟩ := Token.Cursor.scan_eq_ok_iff.mp h
  rw [(List.append_inj' he rfl).1, Token.map_word_placed]
  exact ⟨pieces, hc, rfl⟩

end Lexes

theorem tokenize_eq_ok_iff {source file : String} {tokens : List Token} :
    tokenize source file = .ok tokens ↔ ∃ pieces, Token.Cuts source.toList pieces [] ∧
      tokens = Token.placed file 0 pieces ++
        [.eof ⟨.ofNat (Text.byteLength source.toList), file⟩] := by
  have h := @Token.Cursor.scan_eq_ok_iff file 0 source.toList tokens
  rw [Nat.zero_add] at h
  exact h

end TypedStyle
