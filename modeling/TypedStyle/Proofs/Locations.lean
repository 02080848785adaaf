import TypedStyle.Proofs.Carets

set_option autoImplicit false

namespace TypedStyle

theorem Text.exists_trimEnd (cs : List Char) :
    ∃ blanks, cs = Text.trimEnd cs ++ blanks ∧ ∀ c ∈ blanks, Text.isBlank c = true := by
  refine ⟨(cs.reverse.takeWhile Text.isBlank).reverse, ?_, fun c hc => ?_⟩
  · rw [Text.trimEnd, ← List.reverse_append, List.takeWhile_append_dropWhile, List.reverse_reverse]
  · exact List.mem_takeWhile_imp (List.mem_reverse.mp hc)

namespace Report

/-- At the end the line is printed behind its number, without its margin and the blanks at its end,
and a caret below it. -/
def ShowsLine (rendered : List Char) (line : Text.Line) : Prop :=
  ∃ margin shown blanks, line.text.toList = margin ++ (shown ++ blanks) ∧
    (∀ c ∈ margin, isMargin c = true) ∧ (∀ c ∈ blanks, Text.isBlank c = true) ∧
    Shows rendered ((toString line.number ++ " | ").toList ++ shown)
      (beforeCaret line.number (line.offset - margin.length))

theorem showsLine_render {source : String} {failure : Failure} {position : Position}
    {line : Text.Line} (hp : failure.position = some position)
    (hat : Text.lineAt? source position.offset.toNat = some line)
    (hm : line.text.toList ∈ Text.lines source.toList) (file : String) :
    render failure source file =
        header failure.cause ++ "-> " ++ file ++ "\n" ++ excerpt line ∧
      ShowsLine (render failure source file).toList line := by
  obtain ⟨hrender, hshows⟩ := shows_line hp hat hm file
  obtain ⟨blanks, htrim, hblanks⟩ := Text.exists_trimEnd (line.text.toList.dropWhile isMargin)
  refine ⟨hrender, line.text.toList.takeWhile isMargin, _, blanks, ?_, ?_, hblanks, hshows⟩
  · rw [← htrim, List.takeWhile_append_dropWhile]
  · exact fun c hc => List.mem_takeWhile_imp hc

end Report

theorem readSheet_empty (file : String) : readSheet "" file = .ok ⟨[]⟩ := by
  have ht : tokenize "" file = .ok [.eof ⟨0, file⟩] := Token.Cursor.scan_nil
  exact (readSheet_of_tokenize ht).trans rfl

theorem Failure.exists_place {source file : String} {failure : Failure}
    (hs : Text.byteLength source.toList < 2 ^ 32)
    (h : failure.StandsIn source.toList file ∨ failure.StandsBehind source.toList file) :
    ∃ position before after token, failure.position = some position ∧ position.file = file ∧
      source.toList = before ++ after ∧ position.offset.toNat = Text.byteLength before ∧
      failure.cause.token? = some token ∧
      if after = [] then token = "EOF" else token ≠ "" ∧ token.toList <+: after := by
  rcases h with ⟨before, c, cs, after, htext, -, htoken, hposition⟩ | ⟨htoken, hposition⟩
  · have hle := Text.byteLength_append before (c :: (cs ++ after))
    rw [← htext] at hle
    refine ⟨_, before, c :: (cs ++ after), _, hposition, rfl, htext,
      UInt32.toNat_ofNat_of_lt' (show _ < 2 ^ 32 by omega), htoken, ?_⟩
    rw [if_neg (List.cons_ne_nil _ _), String.toList_ofList]
    refine ⟨fun hempty => ?_, after, rfl⟩
    have hnil := congrArg String.toList hempty
    rw [String.toList_ofList] at hnil
    exact absurd hnil (List.cons_ne_nil c cs)
  · exact ⟨_, source.toList, [], _, hposition, rfl, (List.append_nil _).symm,
      UInt32.toNat_ofNat_of_lt' hs, htoken, rfl⟩

/-- The newline at the end of a source starts no line, so the end is in the line of the newline. -/
theorem malformed_shown {source : String} {options : CompileOptions} {failure : Failure}
    (hs : Text.byteLength source.toList < 2 ^ 32)
    (h : checkSource source options = .error (.malformed failure)) (file : String) :
    source ≠ "" ∧ ∃ position before after token line,
      (failure.position = some position ∧ position.file = options.file ∧
        source.toList = before ++ after ∧ position.offset.toNat = Text.byteLength before) ∧
      (failure.cause.token? = some token ∧
        if after = [] then token = "EOF" else token ≠ "" ∧ token.toList <+: after) ∧
      (Text.lineAt? source position.offset.toNat = some line ∧
        (Text.lines source.toList)[line.number - 1]? = some line.text.toList ∧
        line.number = if after = [] ∧ before.getLast? = some '\n'
          then (Text.lines source.toList).length else before.count '\n' + 1) ∧
      Report.render failure source file =
        Report.header failure.cause ++ "-> " ++ file ++ "\n" ++ Report.excerpt line ∧
      Report.ShowsLine (Report.render failure source file).toList line := by
  have hread := readSheet_of_malformed h
  have hempty : source ≠ "" := by
    rintro rfl
    rw [readSheet_empty] at hread
    cases hread
  have hchars : source.toList ≠ [] := fun hnil => hempty (String.toList_eq_nil_iff.mp hnil)
  obtain ⟨position, before, after, token, hposition, hfile, htext, hoffset, htoken, hcase⟩ :=
    Failure.exists_place hs (readSheet_error_stands hread)
  obtain ⟨line, hat, hline, hnumber⟩ := Text.exists_lineAt? htext hchars
  rw [← hoffset] at hat
  refine ⟨hempty, position, before, after, token, line, ⟨hposition, hfile, htext, hoffset⟩,
    ⟨htoken, hcase⟩, ⟨hat, hline, ?_⟩,
    Report.showsLine_render hposition hat (List.mem_of_getElem? hline) file⟩
  rw [hnumber]
  by_cases hafter : after = []
  · subst hafter
    rw [List.append_nil] at htext
    by_cases hlast : before.getLast? = some '\n'
    · rw [if_pos rfl, if_pos ⟨rfl, hlast⟩]
    · rw [if_pos rfl, if_neg (fun hand => hlast hand.2), htext,
        Text.length_lines hlast (htext ▸ hchars)]
  · rw [if_neg hafter, if_neg (fun hand => hafter hand.1)]

/-- The rule ends before its body, and its line with a newline. -/
theorem malformed_shown_at_end :
    let source := "a\n"
    let failure : Failure :=
      ⟨.unexpectedTokenDetailed "EOF" "expected a selector", some ⟨2, "shell"⟩⟩
    Text.byteLength source.toList < 2 ^ 32 ∧
      checkSource source {} = .error (.malformed failure) ∧
      Report.ShowsLine (Report.render failure source "shell").toList ⟨1, source, 1⟩ := by
  intro source failure
  have hs : Text.byteLength source.toList < 2 ^ 32 := by decide
  have ht : tokenize source "shell" = .ok
      [⟨.lowerName, "a", ⟨⟨0, "shell"⟩, ⟨1, "shell"⟩⟩⟩, .eof ⟨2, "shell"⟩] := by decide +kernel
  have hread : readSheet source "shell" = .error failure := (readSheet_of_tokenize ht).trans rfl
  have hcheck : checkSource source {} = .error (.malformed failure) := by
    rw [checkSource, hread]
  obtain ⟨-, position, -, -, -, line, ⟨hposition, -⟩, -, ⟨hat, -⟩, -, hshows⟩ :=
    malformed_shown hs hcheck "shell"
  cases hposition
  have hline : Text.lineAt? source 2 = some ⟨1, source, 1⟩ := by decide
  cases hline.symm.trans hat
  exact ⟨hs, hcheck, hshows⟩

end TypedStyle
