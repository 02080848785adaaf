import TypedStyle.Failure
import TypedStyle.Proofs.Lines
import TypedStyle.Proofs.Places
import Mathlib.Data.List.DropRight

set_option autoImplicit false

namespace TypedStyle

namespace Report

/-- At the end a line is printed, and a caret below it with something in front. -/
def Shows (rendered printed below : List Char) : Prop :=
  ∃ front, rendered = front ++ '\n' :: (printed ++ '\n' :: (below ++ ['^', '\n'])) ∧
    '\n' ∉ printed ∧ '\n' ∉ below

/-- What is printed in front of the character: the number of its line, and the line without its
margin. -/
def printedBefore {text : List Char} (spot : Text.Spot text) : List Char :=
  (toString spot.number ++ " | ").toList ++ spot.inLine.dropWhile isMargin

/-- What is printed in front of the caret: as wide as the number and its bar, and so many dashes. -/
def beforeCaret (number dashes : Nat) : List Char :=
  padLeft ((toString number).length + 2) ' ' ['|'] ++ ' ' :: List.replicate dashes '-'

theorem length_beforeCaret (number dashes : Nat) :
    (beforeCaret number dashes).length = (toString number).length + 3 + dashes := by
  simp only [beforeCaret, padLeft, List.length_append, List.length_cons, List.length_replicate,
    List.length_nil]
  omega

theorem newline_not_mem_beforeCaret (number dashes : Nat) : '\n' ∉ beforeCaret number dashes := by
  simp [beforeCaret, padLeft]

section Excerpt

variable {c : Char}

theorem dropWhile_append_cons {p : Char → Bool} (hc : p c = false) (front tail : List Char) :
    (front ++ c :: tail).dropWhile p = front.dropWhile p ++ c :: tail := by
  rw [List.dropWhile_append, List.dropWhile_cons_of_neg (by simp [hc])]
  split
  · next h => rw [List.isEmpty_iff.mp h, List.nil_append]
  · rfl

theorem takeWhile_append_cons {p : Char → Bool} (hc : p c = false) (front tail : List Char) :
    (front ++ c :: tail).takeWhile p = front.takeWhile p := by
  rw [List.takeWhile_append, List.takeWhile_cons_of_neg (by simp [hc]), List.append_nil]
  split
  · next h => exact (List.takeWhile_prefix p).eq_of_length h |>.symm
  · rfl

theorem trimEnd_append_cons (hc : Text.isBlank c = false) (front tail : List Char) :
    Text.trimEnd (front ++ c :: tail) = front ++ c :: Text.trimEnd tail := by
  rw [Text.trimEnd, List.reverse_append, List.reverse_cons, List.append_assoc,
    List.singleton_append, dropWhile_append_cons hc, List.reverse_append, List.reverse_cons,
    List.reverse_reverse, List.append_assoc, Text.trimEnd]
  rfl

theorem newline_not_mem_trimEnd {body line : List Char} (hb : '\n' ∉ body)
    (h : line = body ∨ line = body ++ ['\n']) : '\n' ∉ Text.trimEnd line := by
  have htrim : '\n' ∉ Text.trimEnd body := fun hm =>
    hb ((List.rdropWhile_prefix Text.isBlank body).subset hm)
  rcases h with rfl | rfl
  · exact htrim
  · rwa [Text.trimEnd, List.reverse_append, List.reverse_singleton, List.singleton_append,
      List.dropWhile_cons_of_pos (by decide)]

theorem not_isMargin_of_not_isBlank (hc : Text.isBlank c = false) : isMargin c = false := by
  rw [isMargin, Bool.or_eq_false_iff, decide_eq_false_iff_not, decide_eq_false_iff_not]
  constructor
  · rintro rfl
    exact absurd hc (by decide)
  · rintro rfl
    exact absurd hc (by decide)

theorem toList_excerpt (line : Text.Line) :
    (excerpt line).toList = padLeft ((toString line.number).length + 2) ' ' ['|'] ++
      '\n' :: ((toString line.number ++ " | ").toList ++
        Text.trimEnd (line.text.toList.dropWhile isMargin) ++
        '\n' :: (beforeCaret line.number
          (line.offset - (line.text.toList.takeWhile isMargin).length) ++ ['^', '\n'])) := by
  have hdrop : line.text.toList.drop (line.text.toList.takeWhile isMargin).length =
      line.text.toList.dropWhile isMargin := by
    have hsplit := List.takeWhile_append_dropWhile (p := isMargin) (l := line.text.toList)
    exact (congrArg (List.drop _) hsplit.symm).trans List.drop_left
  have hpointer (dashes : Nat) :
      padLeft (dashes + 1) '-' ['^'] = List.replicate dashes '-' ++ ['^'] := rfl
  simp only [excerpt, String.toList_ofList, String.toList_append, hdrop, hpointer]
  simp [beforeCaret]

end Excerpt

theorem newline_not_mem_number (number : Nat) : '\n' ∉ (toString number).toList := by
  intro hm
  change '\n' ∈ number.repr.toList at hm
  rw [Nat.toList_repr] at hm
  exact absurd (Nat.isDigit_of_mem_toDigits (by decide) (by decide) hm) (by decide)

section Render

variable {source : String}

theorem newline_not_mem_shown {text line : List Char} (h : line ∈ Text.lines text) :
    '\n' ∉ Text.trimEnd (line.dropWhile isMargin) := by
  obtain ⟨body, hb, hcase⟩ := Text.line_cases h
  have hbody : '\n' ∉ body.dropWhile isMargin := fun hm =>
    hb ((List.dropWhile_suffix isMargin).subset hm)
  refine newline_not_mem_trimEnd hbody ?_
  rcases hcase with rfl | rfl
  · exact .inl rfl
  · exact .inr (dropWhile_append_cons (by decide) body [])

theorem shows_line {failure : Failure} {position : Position} {line : Text.Line}
    (hp : failure.position = some position)
    (hat : Text.lineAt? source position.offset.toNat = some line)
    (hm : line.text.toList ∈ Text.lines source.toList) (file : String) :
    render failure source file =
        header failure.cause ++ "-> " ++ file ++ "\n" ++ excerpt line ∧
      Shows (render failure source file).toList
        ((toString line.number ++ " | ").toList ++
          Text.trimEnd (line.text.toList.dropWhile isMargin))
        (beforeCaret line.number
          (line.offset - (line.text.toList.takeWhile isMargin).length)) := by
  have hrender : render failure source file =
      header failure.cause ++ "-> " ++ file ++ "\n" ++ excerpt line := by
    rw [render, hp, Option.bind_some, hat]
  have hshown := newline_not_mem_shown hm
  refine ⟨hrender, (header failure.cause ++ "-> " ++ file ++ "\n").toList ++
    padLeft ((toString line.number).length + 2) ' ' ['|'], ?_, ?_,
    newline_not_mem_beforeCaret _ _⟩
  · rw [hrender, String.toList_append, toList_excerpt, ← List.append_assoc]
  · rw [String.toList_append, List.mem_append, List.mem_append]
    rintro ((hm | hm) | hm)
    · exact newline_not_mem_number _ hm
    · exact absurd hm (by decide)
    · exact hshown hm

/-- The caret is moved by the bytes of the line in front of the character, but the character only by
their characters. -/
theorem length_beforeCaret_spot (spot : Text.Spot source.toList) :
    (beforeCaret spot.number (Text.byteLength spot.inLine -
        (spot.inLine.takeWhile isMargin).length)).length =
      (printedBefore spot).length + (Text.byteLength spot.inLine - spot.inLine.length) := by
  have hsplit := List.takeWhile_append_dropWhile (p := isMargin) (l := spot.inLine)
  have hlength := congrArg List.length hsplit
  have hbytes := Text.length_le_byteLength spot.inLine
  have hbar : " | ".toList.length = 3 := rfl
  rw [List.length_append] at hlength
  rw [length_beforeCaret, printedBefore, String.toList_append, List.length_append,
    List.length_append, hbar, String.length_toList]
  omega

theorem shows_render (spot : Text.Spot source.toList) (hc : Text.isBlank spot.char = false)
    {failure : Failure} {position : Position} (hp : failure.position = some position)
    (ho : position.offset.toNat = spot.offset) (file : String) :
    ∃ behind below,
      Shows (render failure source file).toList (printedBefore spot ++ spot.char :: behind) below ∧
      below.length =
        (printedBefore spot).length + (Text.byteLength spot.inLine - spot.inLine.length) := by
  obtain ⟨line, more, hmore, hat⟩ := Text.lineAt?_spot spot
  have hlines := Text.lines_closedLines spot.newline_not_mem_earlier
    (spot.inLine ++ spot.char :: spot.after)
  rw [← spot.text_eq, Text.lines_append spot.newline_not_mem_inLine hmore] at hlines
  have hmem : spot.inLine ++ spot.char :: line ∈ Text.lines source.toList := by
    rw [hlines]
    exact List.mem_append_right _ List.mem_cons_self
  rw [← ho] at hat
  have hshows := (shows_line hp hat (by rwa [String.toList_ofList]) file).2
  have hmargin := not_isMargin_of_not_isBlank hc
  simp only [String.toList_ofList, dropWhile_append_cons hmargin, takeWhile_append_cons hmargin,
    trimEnd_append_cons hc, ← List.append_assoc] at hshows
  exact ⟨Text.trimEnd line, _, hshows, length_beforeCaret_spot spot⟩

end Render

end Report

/-- Under a syntax error in front of the end of a source, the caret is as many columns behind the
character at the place of the error as the characters in front of it in its line have bytes beyond
their first. -/
theorem caret_column {source : String} {options : CompileOptions} {failure : Failure}
    {position : Position} (hs : Text.byteLength source.toList < 2 ^ 32)
    (h : checkSource source options = .error (.malformed failure))
    (hp : failure.position = some position)
    (hb : position.offset.toNat < Text.byteLength source.toList) (file : String) :
    ∃ spot : Text.Spot source.toList, spot.offset = position.offset.toNat ∧
      ∃ behind below,
        Report.Shows (Report.render failure source file).toList
          (Report.printedBefore spot ++ spot.char :: behind) below ∧
        below.length = (Report.printedBefore spot).length +
          (Text.byteLength spot.inLine - spot.inLine.length) ∧
        (below.length = (Report.printedBefore spot).length ↔
          ∀ c ∈ spot.inLine, c.utf8Size = 1) := by
  have hstands := readSheet_error_stands (readSheet_of_malformed h)
  rw [Failure.StandsIn, Failure.StandsBehind, hp] at hstands
  rcases hstands with ⟨before, c, cs, after, htext, hblank, -, hposition⟩ | ⟨-, hend⟩
  · cases hposition
    obtain ⟨spot, rfl, hoffset⟩ := Text.exists_spot htext
    have hle : Text.byteLength before ≤ Text.byteLength source.toList := by
      rw [htext, Text.byteLength_append]
      exact Nat.le_add_right _ _
    have ho : (UInt32.ofNat (Text.byteLength before)).toNat = spot.offset := by
      rw [hoffset]
      exact UInt32.toNat_ofNat_of_lt' (show _ < 2 ^ 32 by omega)
    obtain ⟨behind, below, hshows, hlength⟩ := Report.shows_render spot hblank hp ho file
    refine ⟨spot, ho.symm, behind, below, hshows, hlength, ?_⟩
    have hbytes := Text.length_le_byteLength spot.inLine
    rw [hlength, ← Text.byteLength_eq_length_iff]
    omega
  · -- an unexpected end of file stands behind the source
    cases hend
    have hlast : (UInt32.ofNat (Text.byteLength source.toList)).toNat =
        Text.byteLength source.toList := UInt32.toNat_ofNat_of_lt' hs
    exact absurd hlast (Nat.ne_of_lt hb)

theorem tokenize_behind_comment :
    tokenize "/*é*/@" "shell" = .error ⟨.unrecognisedToken "@", some ⟨6, "shell"⟩⟩ := by
  have hf : Token.Pattern.first? ("/*é*/".toList ++ ['@']) =
      some (.blockComment, "/*é*/".toList) := by decide
  have hc : Token.Cuts ("/*é*/".toList ++ ['@']) _ ['@'] := .piece hf (.done ['@'])
  have hscan := hc.scan "shell" 0
  rw [Token.Cursor.scan_stuck (by decide)] at hscan
  exact hscan

theorem caret_column_two_bytes :
    let source := "/*é*/@"
    let failure : Failure := ⟨.unrecognisedToken "@", some ⟨6, "shell"⟩⟩
    Text.byteLength source.toList < 2 ^ 32 ∧
      checkSource source {} = .error (.malformed failure) ∧
      ∃ spot : Text.Spot source.toList, spot.offset = 6 ∧ ∃ behind below,
        Report.Shows (Report.render failure source "shell").toList
          (Report.printedBefore spot ++ spot.char :: behind) below ∧
        below.length = (Report.printedBefore spot).length +
          (Text.byteLength spot.inLine - spot.inLine.length) ∧
        (below.length = (Report.printedBefore spot).length ↔
          ∀ c ∈ spot.inLine, c.utf8Size = 1) := by
  intro source failure
  have hs : Text.byteLength source.toList < 2 ^ 32 := by decide
  have hcheck : checkSource source {} = .error (.malformed failure) :=
    checkSource_of_tokenize_error tokenize_behind_comment
  exact ⟨hs, hcheck, caret_column hs hcheck rfl (by decide) "shell"⟩

/-- The caret is below the column behind the character. -/
theorem caret_not_below : ¬∀ (source : String) (options : CompileOptions) (failure : Failure)
    (position : Position) (spot : Text.Spot source.toList) (behind below : List Char),
    checkSource source options = .error (.malformed failure) →
    failure.position = some position → position.offset.toNat < Text.byteLength source.toList →
    spot.offset = position.offset.toNat →
    Report.Shows (Report.render failure source options.file).toList
      (Report.printedBefore spot ++ spot.char :: behind) below →
    below.length = (Report.printedBefore spot).length := by
  intro h
  have hcolumn := h "/*é*/@" {} ⟨.unrecognisedToken "@", some ⟨6, "shell"⟩⟩ ⟨6, "shell"⟩
    ⟨[], "/*é*/".toList, '@', [], by decide, by simp, by decide⟩ [] "  | ------".toList
    (checkSource_of_tokenize_error tokenize_behind_comment) rfl (by decide) (by decide)
    ⟨"Error: UnrecognisedToken\n-> shell\n  |".toList, by decide, by decide, by decide⟩
  exact absurd hcolumn (by decide)

end TypedStyle
