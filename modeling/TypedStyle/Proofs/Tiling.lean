import TypedStyle.Proofs.Gaps
import TypedStyle.Proofs.Spelling
import Mathlib.Algebra.Group.Nat.Defs

/-!
Tokens tile the source: each covers the text that it says, between them there are only blanks and
comments, and the end of file stands behind them.
-/

set_option autoImplicit false

namespace TypedStyle

namespace Token

def start (token : Token) : Nat :=
  token.span.start.offset.toNat

def stop (token : Token) : Nat :=
  token.span.stop.offset.toNat

/-- The part stands in the text from the first of these bytes up to the second. -/
def Slice (text : List Char) (start stop : Nat) (part : List Char) : Prop :=
  ∃ before after, text = before ++ part ++ after ∧ Text.byteLength before = start ∧
    Text.byteLength (before ++ part) = stop

/-- A line comment without a line break ends the text. -/
def GapBetween (text : List Char) (start stop : Nat) : Prop :=
  ∃ gap, Slice text start stop gap ∧ (Gap gap ∨ stop = Text.byteLength text ∧ LastGap gap)

/-- The token covers a part of the text, which it takes as its value and classifies. -/
structure Tile (file : String) (text : List Char) (token : Token) : Prop where
  start_in_file : token.span.start.file = file
  stop_in_file : token.span.stop.file = file
  start_lt_stop : token.start < token.stop
  slice : Slice text token.start token.stop token.value.toList
  fits : token.kind.Fits token.value
  reserved_iff : ∀ kind, reserved? token.value = some kind ↔
    token.kind = kind ∧ kind ∈ reservedWords.map Prod.snd

/-- From the first of these bytes up to the second there are the tokens, one after the other, and
gaps around them. -/
inductive Tiling (file : String) (text : List Char) : Nat → List Token → Nat → Prop
  | done {start stop : Nat} : GapBetween text start stop → Tiling file text start [] stop
  | token {start stop : Nat} {token : Token} {tokens : List Token} :
      GapBetween text start token.start → Tile file text token →
      Tiling file text token.stop tokens stop → Tiling file text start (token :: tokens) stop

structure Tiled (file : String) (text : List Char) (tokens : List Token) (stop : Nat) : Prop where
  none_ends : ∀ token ∈ tokens, token.kind ≠ .eof
  ordered : tokens.Pairwise fun earlier later => earlier.stop ≤ later.start
  tiling : Tiling file text 0 tokens stop

/-- The tokens tile all of the text, and the one end of file stands behind them. -/
def Covers (file : String) (text : List Char) (tokens : List Token) : Prop :=
  ∃ front last, tokens = front ++ [last] ∧ last.kind = .eof ∧
    last.start = Text.byteLength text ∧ last.stop = Text.byteLength text ∧
    Tiled file text front (Text.byteLength text)

/-- The failure names a character where no pattern finds anything, and its place. The tokens of the
pieces in front of it tile the text up to there. -/
def Blames (file : String) (text : List Char) (failure : Failure) : Prop :=
  ∃ before c after pieces position, text = before ++ c :: after ∧
    failure = ⟨.unrecognisedToken (String.singleton c), some position⟩ ∧
    position.file = file ∧ position.offset.toNat = Text.byteLength before ∧
    (∀ pattern ∈ Pattern.table, pattern.lexeme? (c :: after) = none) ∧
    Cuts text pieces (c :: after) ∧ Tiled file text (placed file 0 pieces) (Text.byteLength before)

theorem Slice.le {text part : List Char} {start stop : Nat} (h : Slice text start stop part) :
    start ≤ stop := by
  obtain ⟨before, after, -, rfl, rfl⟩ := h
  rw [Text.byteLength_append]
  omega

namespace Tiling

variable {file : String} {text : List Char} {start stop : Nat} {tokens : List Token}

theorem le_start (h : Tiling file text start tokens stop) :
    ∀ token ∈ tokens, start ≤ token.start := by
  induction h with
  | done => simp
  | @token start stop token tokens hgap htile _ ih =>
    obtain ⟨gap, hslice, -⟩ := hgap
    have hfirst := hslice.le
    have hlt := htile.start_lt_stop
    refine List.forall_mem_cons.mpr ⟨hfirst, fun later hm => ?_⟩
    have := ih later hm
    omega

theorem ordered (h : Tiling file text start tokens stop) :
    tokens.Pairwise fun earlier later => earlier.stop ≤ later.start := by
  induction h with
  | done => exact .nil
  | token _ _ hrest ih => exact .cons hrest.le_start ih

theorem none_ends (h : Tiling file text start tokens stop) :
    ∀ token ∈ tokens, token.kind ≠ .eof := by
  induction h with
  | done => simp
  | @token start stop token tokens _ htile _ ih =>
    refine List.forall_mem_cons.mpr ⟨fun hk => ?_, ih⟩
    have hfits := htile.fits
    rw [hk] at hfits
    exact hfits

end Tiling

section Reserved

open Pattern

variable {cs text : List Char} {pattern : Pattern} {kind other : Kind}

theorem letter_of_reserved : ∀ entry ∈ reservedWords, ∃ c rest,
    entry.1.toList = c :: rest ∧ (c.isLower = true ∨ c.isUpper = true) := by
  simp [reservedWords]

theorem names_of_reserved (h : first? cs = some (pattern, text))
    (hr : reserved? (String.ofList text) = some other) :
    pattern = .lowerName ∨ pattern = .capitalName := by
  obtain ⟨c, rest, hc, hcase⟩ := letter_of_reserved _ (mem_reservedWords hr)
  obtain ⟨-, more, rfl⟩ := first?_eq_append h
  rw [String.toList_ofList] at hc
  subst hc
  rw [List.cons_append, first?_cons] at h
  obtain ⟨found, hm, hf⟩ := List.exists_of_findSome?_eq_some h
  obtain ⟨_, -, he⟩ := Option.map_eq_some_iff.mp hf
  cases he
  rcases hcase with hc | hc
  · rw [candidates_of_isLower hc] at hm
    exact .inl (List.mem_singleton.mp hm)
  · rw [candidates_of_isUpper hc] at hm
    exact .inr (List.mem_singleton.mp hm)

theorem reserved_of_fits {value : String} (h : kind.Fits value)
    (hm : kind ∈ reservedWords.map Prod.snd) : reserved? value = some kind := by
  simp only [reservedWords, List.map_cons, List.map_nil, List.mem_cons, List.not_mem_nil,
    or_false] at hm
  rcases hm with rfl | rfl | rfl | rfl | rfl | rfl
  · obtain rfl : value = "if" := h
    rfl
  · obtain rfl : value = "else" := h
    rfl
  all_goals
    rcases h with rfl | rfl <;> rfl

theorem reserved_iff_of_first? (h : first? cs = some (pattern, text))
    (hk : pattern.kind? text = some kind) (other : Kind) :
    reserved? (String.ofList text) = some other ↔
      kind = other ∧ other ∈ reservedWords.map Prod.snd := by
  constructor
  · intro hr
    have hkind : pattern.kind? text = some other := by
      rcases names_of_reserved h hr with rfl | rfl
      all_goals
        rw [kind?, hr]
        rfl
    rw [hk, Option.some.injEq] at hkind
    exact ⟨hkind, List.mem_map_of_mem (mem_reservedWords hr)⟩
  · rintro ⟨rfl, hm⟩
    exact reserved_of_fits (fits_of_first? h hk) hm

end Reserved

theorem Cuts.append {text middle left : List Char} {pieces others : List Piece}
    (h : Cuts text pieces middle) (ho : Cuts middle others left) :
    Cuts text (pieces ++ others) left := by
  induction h with
  | done => exact ho
  | piece hf _ ih => exact .piece hf (ih ho)

theorem not_isBlank_of_stuck {left : List Char} (h : left = [] ∨ Pattern.first? left = none) :
    ∀ c ∈ left.head?, Text.isBlank c = false := by
  intro c hc
  obtain ⟨rest, rfl⟩ := List.head?_eq_some_iff.mp hc
  rw [← Bool.not_eq_true]
  intro hb
  rw [Pattern.first?_of_isBlank hb] at h
  simp at h

section Tiling

variable {file : String} {source before between : List Char}

theorem Cuts.gapBetween {left : List Char} {skipped : List Piece}
    (h : Cuts (between ++ left) skipped left) (hw : words skipped = [])
    (hl : ∀ c ∈ left.head?, Text.isBlank c = false) (hs : source = before ++ between ++ left) :
    GapBetween source (Text.byteLength before) (Text.byteLength (before ++ between)) := by
  obtain ⟨gap, comment, he, hgap, hcomment⟩ := h.gap hw hl
  obtain rfl : between = gap ++ comment := by
    rw [← he]
    exact List.append_cancel_right h.text_eq
  refine ⟨_, ⟨before, left, hs, rfl, rfl⟩, ?_⟩
  rcases hcomment with rfl | ⟨rfl, hcomment⟩
  · exact .inl (by simpa using hgap)
  · rw [List.append_nil] at hs
    exact .inr ⟨by rw [hs], gap, comment, rfl, hgap, .inr hcomment⟩

theorem tile_of_first? {pattern : Pattern} {kind : Kind} {lexeme rest : List Char} {token : Token}
    (file : String) (hs : source = before ++ (lexeme ++ rest))
    (hlt : Text.byteLength source < 2 ^ 32)
    (hf : Pattern.first? (lexeme ++ rest) = some (pattern, lexeme))
    (hk : pattern.kind? lexeme = some kind)
    (ht : token = ⟨kind, String.ofList lexeme, ⟨.ofNat (Text.byteLength before), file⟩,
      ⟨.ofNat (Text.byteLength (before ++ lexeme)), file⟩⟩) :
    token.start = Text.byteLength before ∧ token.stop = Text.byteLength (before ++ lexeme) ∧
      Tile file source token := by
  have hpos := Text.byteLength_pos (first?_eq_append hf).1
  have happend := Text.byteLength_append before lexeme
  have hlen : Text.byteLength source =
      Text.byteLength (before ++ lexeme) + Text.byteLength rest := by
    rw [hs, ← List.append_assoc, Text.byteLength_append]
  have hstart : token.start = Text.byteLength before := by
    rw [ht]
    exact UInt32.toNat_ofNat_of_lt' (show _ < 2 ^ 32 by omega)
  have hstop : token.stop = Text.byteLength (before ++ lexeme) := by
    rw [ht]
    exact UInt32.toNat_ofNat_of_lt' (show _ < 2 ^ 32 by omega)
  have hslice : Slice source token.start token.stop lexeme :=
    ⟨before, rest, by rw [hs, List.append_assoc], hstart.symm, hstop.symm⟩
  refine ⟨hstart, hstop, ?_⟩
  subst ht
  exact ⟨rfl, rfl, by omega, by simpa using hslice, fits_of_first? hf hk,
    reserved_iff_of_first? hf hk⟩

theorem Cuts.tiling {text left : List Char} {skipped pieces : List Piece}
    (h : Cuts text pieces left) (hskipped : Cuts (between ++ text) skipped text)
    (hw : words skipped = []) (hl : left = [] ∨ Pattern.first? left = none)
    (hs : source = before ++ between ++ text) (hlt : Text.byteLength source < 2 ^ 32) :
    Tiling file source (Text.byteLength before)
      (placed file (Text.byteLength (before ++ between)) pieces)
      (Text.byteLength (before ++ between ++ pieces.flatMap Prod.snd)) := by
  induction h generalizing before between skipped with
  | done left =>
    rw [List.flatMap_nil, List.append_nil]
    exact .done (hskipped.gapBetween hw (not_isBlank_of_stuck hl) hs)
  | @piece pattern lexeme rest left pieces hf _ ih =>
    rw [List.flatMap_cons, placed, ← Text.byteLength_append, ← List.append_assoc]
    cases hk : pattern.kind? lexeme with
    | none =>
      have hsnoc : Cuts (between ++ lexeme ++ rest) (skipped ++ [(pattern, lexeme)]) rest := by
        rw [List.append_assoc]
        exact hskipped.append (.piece hf (.done rest))
      have hwords : words (skipped ++ [(pattern, lexeme)]) = [] := by
        rw [words, List.filterMap_append, ← words, hw]
        simp [Piece.word?, hk]
      have hmore : source = before ++ (between ++ lexeme) ++ rest := by
        rw [hs]
        simp
      have hrest := ih hsnoc hwords hl hmore
      simpa [Pattern.token?, hk] using hrest
    | some kind =>
      have hblank : ∀ c ∈ (lexeme ++ rest).head?, Text.isBlank c = false := by
        intro c hc
        obtain ⟨more, hmore⟩ := List.head?_eq_some_iff.mp hc
        rw [hmore] at hf
        refine Pattern.not_isBlank_of_first? hf ?_
        rintro rfl
        cases hk
      have hgap := hskipped.gapBetween hw hblank hs
      obtain ⟨hstart, hstop, htile⟩ := tile_of_first? file hs hlt hf hk rfl
      have hmore : source = before ++ between ++ lexeme ++ [] ++ rest := by
        rw [hs]
        simp
      have hrest := @ih (before ++ between ++ lexeme) [] [] (.done rest) rfl hl hmore
      simp only [Pattern.token?, hk, Option.map_some, Option.toList_some, List.singleton_append]
      refine .token ?_ htile ?_
      · rw [hstart]
        exact hgap
      · rw [hstop]
        simpa using hrest

theorem Cuts.tiled {left : List Char} {pieces : List Piece} (h : Cuts source pieces left)
    (hl : left = [] ∨ Pattern.first? left = none) (hlt : Text.byteLength source < 2 ^ 32)
    (file : String) : Tiled file source (placed file 0 pieces)
      (Text.byteLength (pieces.flatMap Prod.snd)) := by
  have htiling : Tiling file source 0 (placed file 0 pieces)
      (Text.byteLength (pieces.flatMap Prod.snd)) :=
    @Cuts.tiling file source [] [] source left [] pieces h (.done source) rfl hl rfl hlt
  exact ⟨htiling.none_ends, htiling.ordered, htiling⟩

end Tiling

end Token

/-- The offsets in a shorter source do not wrap around. -/
theorem tokenize_tiles (source file : String) (h : Text.byteLength source.toList < 2 ^ 32) :
    (∀ tokens, tokenize source file = .ok tokens → Token.Covers file source.toList tokens) ∧
    ∀ failure, tokenize source file = .error failure →
      Token.Blames file source.toList failure := by
  obtain ⟨pieces, left, hc, hl⟩ := Token.exists_cuts source.toList
  have htext := hc.text_eq
  have htiled := hc.tiled hl h file
  have hscan := hc.scan file 0
  rw [show (Token.Cursor.mk file 0 source.toList 0).scan = tokenize source file from rfl,
    Nat.zero_add] at hscan
  cases left with
  | nil =>
    rw [List.append_nil] at htext
    rw [← htext] at htiled hscan
    rw [hscan, Token.Cursor.scan_nil]
    refine ⟨fun tokens ht => ?_, fun failure hf => (nomatch hf)⟩
    have hoffset : (UInt32.ofNat (Text.byteLength source.toList)).toNat =
        Text.byteLength source.toList := UInt32.toNat_ofNat_of_lt' h
    exact ⟨_, _, (Except.ok.inj ht).symm, rfl, hoffset, hoffset, htiled⟩
  | cons c after =>
    have hstuck := hl.resolve_left (List.cons_ne_nil c after)
    rw [hscan, Token.Cursor.scan_stuck hstuck]
    refine ⟨fun tokens ht => (nomatch ht), fun failure hf => ?_⟩
    have hle : Text.byteLength (pieces.flatMap Prod.snd) ≤ Text.byteLength source.toList := by
      rw [htext, Text.byteLength_append]
      omega
    refine ⟨_, c, after, pieces, _, htext, (Except.error.inj hf).symm, rfl,
      UInt32.toNat_ofNat_of_lt' (Nat.lt_of_le_of_lt hle h), fun pattern hm => ?_, hc, htiled⟩
    simpa using List.findSome?_eq_none_iff.mp hstuck pattern hm

/-- A comment at the end, with a character of two bytes, and a character that starts no token. -/
theorem tokenize_tiles_two_bytes :
    Text.byteLength "if W:=2px//é".toList < 2 ^ 32 ∧ Text.byteLength "a é".toList < 2 ^ 32 ∧
    (∃ tokens, tokenize "if W:=2px//é" "shell" = .ok tokens ∧
      Token.Covers "shell" "if W:=2px//é".toList tokens) ∧
    ∃ failure, tokenize "a é" "shell" = .error failure ∧
      Token.Blames "shell" "a é".toList failure := by
  have hlong : Text.byteLength "if W:=2px//é".toList < 2 ^ 32 := by decide
  have hshort : Text.byteLength "a é".toList < 2 ^ 32 := by decide
  have ht : tokenize "if W:=2px//é" "shell" = .ok
      [⟨.ifWord, "if", ⟨⟨0, "shell"⟩, ⟨2, "shell"⟩⟩⟩,
        ⟨.capitalName, "W", ⟨⟨3, "shell"⟩, ⟨4, "shell"⟩⟩⟩,
        ⟨.assign, ":=", ⟨⟨4, "shell"⟩, ⟨6, "shell"⟩⟩⟩,
        ⟨.pixelSize, "2px", ⟨⟨6, "shell"⟩, ⟨9, "shell"⟩⟩⟩, .eof ⟨13, "shell"⟩] := by
    decide +kernel
  have hf : tokenize "a é" "shell" = .error ⟨.unrecognisedToken "é", some ⟨2, "shell"⟩⟩ := by
    decide +kernel
  exact ⟨hlong, hshort, ⟨_, ht, (tokenize_tiles _ "shell" hlong).1 _ ht⟩, _, hf,
    (tokenize_tiles _ "shell" hshort).2 _ hf⟩

end TypedStyle
