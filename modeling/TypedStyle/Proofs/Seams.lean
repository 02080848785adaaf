import TypedStyle.Proofs.Cuts
import TypedStyle.Proofs.Openings

set_option autoImplicit false

namespace TypedStyle

namespace Token

namespace Pattern

/-- What the shape finds in a text does not depend on what follows it in a new line. -/
def Stable (shape : List Char → Option (List Char)) : Prop :=
  ∀ cs rest, shape (cs ++ '\n' :: rest) = shape cs

theorem takeWhile_newline {p : Char → Bool} (h : p '\n' = false) (cs rest : List Char) :
    (cs ++ '\n' :: rest).takeWhile p = cs.takeWhile p := by
  induction cs with
  | nil => simp [h]
  | cons c cs ih => simp only [List.cons_append, List.takeWhile_cons, ih]

theorem stable_run? {p : Char → Bool} (h : p '\n' = false) : Stable (run? p) := by
  intro cs rest
  rw [run?, run?, takeWhile_newline h]

theorem stable_runOrNone? {p : Char → Bool} (h : p '\n' = false) : Stable (runOrNone? p) := by
  intro cs rest
  rw [runOrNone?, runOrNone?, takeWhile_newline h]

theorem isPrefixOf_newline {text : List Char} (h : '\n' ∉ text) (cs rest : List Char) :
    text.isPrefixOf (cs ++ '\n' :: rest) = text.isPrefixOf cs := by
  induction text generalizing cs with
  | nil => simp
  | cons t text ih =>
    simp only [List.mem_cons, not_or] at h
    cases cs with
    | nil => simp [List.isPrefixOf, Ne.symm h.1]
    | cons c cs => simp [List.isPrefixOf, ih h.2]

theorem stable_exactly? {text : List Char} (h : '\n' ∉ text) : Stable (exactly? text) := by
  intro cs rest
  rw [exactly?, exactly?, isPrefixOf_newline h]

theorem sixHexDigits?_of_short {cs : List Char} (h : cs.length < 6) : sixHexDigits? cs = none := by
  rw [sixHexDigits?, if_neg]
  intro hd
  have hl := hd.1
  rw [List.length_take] at hl
  omega

theorem stable_sixHexDigits? : Stable sixHexDigits? := by
  intro cs rest
  by_cases hl : cs.length < 6
  · rw [sixHexDigits?_of_short hl, sixHexDigits?, if_neg]
    rintro ⟨-, hall, -⟩
    have hmem : '\n' ∈ (cs ++ '\n' :: rest).take 6 := by
      rw [List.take_append, List.mem_append]
      right
      obtain ⟨n, hn⟩ : ∃ n, 6 - cs.length = n + 1 := ⟨5 - cs.length, by omega⟩
      simp [hn]
    have hhex := List.all_eq_true.mp hall _ hmem
    exact absurd hhex (by decide)
  · have hl : 6 ≤ cs.length := Nat.le_of_not_lt hl
    have hhead : ((cs.drop 6 ++ '\n' :: rest).head?.any Text.isWord) =
        ((cs.drop 6).head?.any Text.isWord) := by
      cases cs.drop 6 with
      | nil => rfl
      | cons c more => rfl
    simp only [sixHexDigits?, List.take_append_of_le_length hl, List.drop_append_of_le_length hl,
      hhead]

theorem Stable.followedBy {first second : List Char → Option (List Char)} (hf : Stable first)
    (hi : Initial first) (hs : Stable second) : Stable (followedBy first second) := by
  intro cs rest
  simp only [Pattern.followedBy, hf cs rest]
  cases h : first cs with
  | none => rfl
  | some head =>
    have hle := (hi cs head h).length_le
    simp only [Option.bind_eq_bind, Option.bind_some, List.drop_append_of_le_length hle, hs _ rest]

theorem newline_not_mem_mark {head : Char} {tail : List Char} {kind : Kind}
    (h : .mark head tail kind ∈ table) : '\n' ∉ head :: tail := by
  have hmarks : ∀ pattern ∈ table, (match pattern with
      | .mark head tail _ => decide ('\n' ∉ head :: tail)
      | _ => true) = true := by decide
  exact of_decide_eq_true (hmarks _ h)

theorem stable_lexeme? {pattern : Pattern} (h : pattern ∈ table) (hb : pattern ≠ .blanks)
    (hc : pattern ≠ .blockComment) : Stable pattern.lexeme? := by
  have hdigits : Stable (run? Char.isDigit) := stable_run? (by decide)
  have hname : Stable (run? isNameChar) := stable_run? (by decide)
  have htext : ∀ {text}, '\n' ∉ text → Stable (exactly? text) := stable_exactly?
  cases pattern with
  | blanks => exact absurd rfl hb
  | blockComment => exact absurd rfl hc
  | lineComment =>
    exact (htext (by decide)).followedBy (initial_exactly? _) (stable_runOrNone? (by decide))
  | pixelSize => exact hdigits.followedBy (initial_run? _) (htext (by decide))
  | percentage => exact hdigits.followedBy (initial_run? _) (htext (by decide))
  | scalar => exact hdigits
  | color => exact (htext (by decide)).followedBy (initial_exactly? _) stable_sixHexDigits?
  | idName => exact (htext (by decide)).followedBy (initial_exactly? _) hname
  | className => exact (htext (by decide)).followedBy (initial_exactly? _) hname
  | capitalName =>
    intro cs rest
    have hrun := stable_run? (p := isVariableChar) (by decide) cs rest
    cases cs with
    | nil => rfl
    | cons c cs => simp only [lexeme?, hrun]; rfl
  | lowerName =>
    intro cs rest
    have hrun := hname cs rest
    cases cs with
    | nil => rfl
    | cons c cs => simp only [lexeme?, hrun]; rfl
  | mark head tail kind => exact htext (newline_not_mem_mark h)

theorem first?_of_run? {cs blanks : List Char} (h : run? Text.isBlank cs = some blanks) :
    first? cs = some (.blanks, blanks) := by
  simp [first?, table, lexeme?, h]

theorem throughClose?_append {cs lexeme : List Char} (h : throughClose? cs = some lexeme)
    (rest : List Char) : throughClose? (cs ++ rest) = some lexeme := by
  induction cs generalizing lexeme with
  | nil => cases h
  | cons c cs ih =>
    rw [throughClose?] at h
    rw [List.cons_append, throughClose?]
    by_cases hc : c = '*' ∧ cs.head? = some '/'
    · have hr : c = '*' ∧ (cs ++ rest).head? = some '/' := ⟨hc.1, by simp [hc.2]⟩
      rw [if_pos hc] at h
      rwa [if_pos hr]
    · rw [if_neg hc, Option.map_eq_some_iff] at h
      obtain ⟨found, hf, rfl⟩ := h
      -- a star at the end of the text closes nothing, since the text has a close of its own
      have hr : ¬(c = '*' ∧ (cs ++ rest).head? = some '/') := by
        cases cs with
        | nil => cases hf
        | cons => exact hc
      rw [if_neg hr, ih hf]
      rfl

theorem blockComment_append {cs lexeme : List Char}
    (h : Pattern.blockComment.lexeme? cs = some lexeme) (rest : List Char) :
    Pattern.blockComment.lexeme? (cs ++ rest) = some lexeme := by
  obtain ⟨head, tail, hh, ht, rfl⟩ := followedBy_eq_some_iff.mp h
  obtain ⟨more, rfl⟩ := initial_exactly? _ _ _ hh
  have hhead : exactly? ['/', '*'] (head ++ more ++ rest) = some head := by
    simp only [exactly?, Option.ite_none_right_eq_some, Option.some.injEq] at hh ⊢
    obtain ⟨-, rfl⟩ := hh
    simp
  refine followedBy_eq_some_iff.mpr ⟨head, tail, hhead, ?_, rfl⟩
  rw [List.drop_left] at ht
  rw [List.append_assoc, List.drop_left]
  exact throughClose?_append ht rest

section First

variable {c : Char} {cs lexeme : List Char} {pattern : Pattern}

theorem first?_of_isBlank (h : Text.isBlank c = true) :
    first? (c :: cs) = some (.blanks, c :: cs.takeWhile Text.isBlank) := by
  refine first?_of_run? (run?_eq_some_iff.mpr ⟨?_, List.cons_ne_nil _ _⟩)
  rw [List.takeWhile_cons, if_pos h]

theorem not_isBlank_of_first? (h : first? (c :: cs) = some (pattern, lexeme))
    (hb : pattern ≠ .blanks) : Text.isBlank c = false := by
  cases hc : Text.isBlank c with
  | false => rfl
  | true =>
    rw [first?_of_isBlank hc] at h
    cases h
    exact absurd rfl hb

/-- A comment that is not closed is not closed by a later line either, since nothing is found where
it starts. -/
theorem blockComment_newline (h : first? (c :: cs) = some (pattern, lexeme)) (rest : List Char) :
    Pattern.blockComment.lexeme? (c :: cs ++ '\n' :: rest) =
      Pattern.blockComment.lexeme? (c :: cs) := by
  cases hf : Pattern.blockComment.lexeme? (c :: cs) with
  | some found => exact blockComment_append hf _
  | none =>
    have hnot : ¬(c = '/' ∧ cs.head? = some '*') := by
      rintro ⟨rfl, hs⟩
      obtain ⟨others, rfl⟩ := List.head?_eq_some_iff.mp hs
      have hcandidates : candidates '/' = [.blockComment, .lineComment] := by decide
      rw [first?_cons, hcandidates, List.findSome?_cons, hf] at h
      cases h
    cases hl : Pattern.blockComment.lexeme? (c :: cs ++ '\n' :: rest) with
    | none => rfl
    | some found =>
      obtain ⟨head, _, hh, _⟩ := followedBy_eq_some_iff.mp hl
      rw [exactly?, if_neg] at hh
      · cases hh
      · intro hp
        cases cs with
        | nil => simp [List.isPrefixOf] at hp
        | cons d ds =>
          simp only [List.cons_append, List.isPrefixOf, Bool.and_eq_true, beq_iff_eq] at hp
          exact hnot ⟨hp.1.symm, congrArg some hp.2.1.symm⟩

theorem first?_newline (h : first? cs = some (pattern, lexeme)) (hb : pattern ≠ .blanks)
    (rest : List Char) : first? (cs ++ '\n' :: rest) = some (pattern, lexeme) := by
  obtain ⟨hne, more, he⟩ := first?_eq_append h
  have hcs : cs ≠ [] := he ▸ List.append_ne_nil_of_left_ne_nil hne more
  obtain ⟨c, cs, rfl⟩ := List.exists_cons_of_ne_nil hcs
  have hc := not_isBlank_of_first? h hb
  have hsame : ∀ other ∈ table,
      other.lexeme? (c :: cs ++ '\n' :: rest) = other.lexeme? (c :: cs) := by
    intro other hm
    by_cases hob : other = .blanks
    · subst hob
      exact (run?_eq_none hc).trans (run?_eq_none hc).symm
    · by_cases hoc : other = .blockComment
      · exact hoc ▸ blockComment_newline h rest
      · exact stable_lexeme? hm hob hoc _ rest
  rw [← h, first?, first?, ← List.head?_filterMap, ← List.head?_filterMap]
  refine congrArg List.head? (List.filterMap_congr fun other hm => ?_)
  rw [hsame other hm]

end First

end Pattern

namespace Cursor

variable {file : String} {offset : Nat}

theorem scan_run {blanks rest : List Char} (hb : ∀ c ∈ blanks, Text.isBlank c = true)
    (hr : ∀ c ∈ rest.head?, Text.isBlank c = false) :
    (Cursor.mk file offset (blanks ++ rest) 0).scan =
      (Cursor.mk file (offset + Text.byteLength blanks) rest 0).scan := by
  by_cases hne : blanks = []
  · subst hne
    rfl
  · rw [scan_piece (Pattern.first?_of_run? (Pattern.run?_append hne hb hr))]
    cases (Cursor.mk file (offset + Text.byteLength blanks) rest 0).scan <;> rfl

theorem scan_blanks {blanks : List Char} (hb : ∀ c ∈ blanks, Text.isBlank c = true)
    (rest : List Char) : (Cursor.mk file offset (blanks ++ rest) 0).scan =
      (Cursor.mk file (offset + Text.byteLength blanks) rest 0).scan := by
  -- both texts go on behind all the blanks, those of the rest included
  let more := rest.takeWhile Text.isBlank
  let others := rest.dropWhile Text.isBlank
  have hmore : ∀ c ∈ more, Text.isBlank c = true :=
    List.all_eq_true.mp List.all_takeWhile
  have hothers : ∀ c ∈ others.head?, Text.isBlank c = false := by
    intro c hc
    have hnot := List.head?_dropWhile_not Text.isBlank rest
    rw [show rest.dropWhile Text.isBlank = others from rfl, Option.mem_def.mp hc] at hnot
    simpa using hnot
  have hall : ∀ c ∈ blanks ++ more, Text.isBlank c = true := by
    intro c hc
    exact (List.mem_append.mp hc).elim (hb c) (hmore c)
  have hsplit : rest = more ++ others := List.takeWhile_append_dropWhile.symm
  rw [hsplit, ← List.append_assoc, scan_run hall hothers, scan_run hmore hothers,
    Text.byteLength_append, Nat.add_assoc]

end Cursor

theorem Cuts.scan_newline {text : List Char} {pieces : List Piece} (h : Cuts text pieces [])
    (rest : List Char) (file : String) (offset : Nat) :
    (Cursor.mk file offset (text ++ '\n' :: rest) 0).scan =
      (Cursor.mk file (offset + Text.byteLength text + 1) rest 0).scan.map
        (placed file offset pieces ++ ·) := by
  generalize hl : ([] : List Char) = left at h
  induction h generalizing offset with
  | done left =>
    subst hl
    have hbreak : ∀ c ∈ ['\n'], Text.isBlank c = true := List.forall_mem_singleton.mpr (by decide)
    refine (Cursor.scan_blanks hbreak rest).trans ?_
    rw [Text.byteLength_nil, Nat.add_zero]
    show (Cursor.mk file (offset + 1) rest 0).scan = _
    cases (Cursor.mk file (offset + 1) rest 0).scan <;> rfl
  | @piece pattern lexeme more left pieces hf hc ih =>
    have ih := ih (offset + Text.byteLength lexeme) hl
    rw [Nat.add_assoc, Nat.add_assoc, ← Nat.add_assoc _ _ 1, ← Text.byteLength_append] at ih
    rw [List.append_assoc]
    by_cases hb : pattern = .blanks
    · subst hb
      have hrun := (Pattern.run?_eq_some_iff.mp (Pattern.first?_eq_some hf)).1
      have hblank : ∀ c ∈ lexeme, Text.isBlank c = true := by
        rw [← hrun]
        exact List.all_eq_true.mp List.all_takeWhile
      rw [Cursor.scan_blanks hblank, ih]
      rfl
    · have hn := Pattern.first?_newline hf hb rest
      rw [List.append_assoc] at hn
      rw [Cursor.scan_piece hn, ih]
      cases (Cursor.mk file _ rest 0).scan <;> simp [Except.map, placed]

end Token

namespace Lexes

variable {text rest space : List Char} {words others : List Token.Word}

theorem blanks (h : Lexes rest words) (hb : ∀ c ∈ space, Text.isBlank c = true) :
    Lexes (space ++ rest) words := by
  obtain ⟨tokens, last, hs, rfl⟩ := h.scan "" (0 + Text.byteLength space)
  exact of_scan ((Token.Cursor.scan_blanks hb rest).trans hs)

theorem newline (h : Lexes text words) (hr : Lexes rest others) :
    Lexes (text ++ '\n' :: rest) (words ++ others) := by
  obtain ⟨pieces, hc, rfl⟩ := h
  obtain ⟨tokens, last, hs, rfl⟩ := hr.scan "" (0 + Text.byteLength text + 1)
  have hscan := hc.scan_newline rest "" 0
  rw [hs, Except.map, ← List.append_assoc] at hscan
  rw [← Token.map_word_placed "" pieces 0, ← List.map_append]
  exact of_scan hscan

end Lexes

end TypedStyle
