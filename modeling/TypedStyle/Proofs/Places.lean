import TypedStyle.Proofs.Tiling

set_option autoImplicit false

namespace TypedStyle

/-- The failure is about a part of the text that starts with no blank, and stands where the part
starts. -/
def Failure.StandsIn (failure : Failure) (text : List Char) (file : String) : Prop :=
  ∃ before c cs after, text = before ++ (c :: (cs ++ after)) ∧ Text.isBlank c = false ∧
    failure.cause.token? = some (String.ofList (c :: cs)) ∧
    failure.position = some ⟨.ofNat (Text.byteLength before), file⟩

def Failure.StandsBehind (failure : Failure) (text : List Char) (file : String) : Prop :=
  failure.cause.token? = some "EOF" ∧
    failure.position = some ⟨.ofNat (Text.byteLength text), file⟩

namespace Token

variable {text left : List Char} {pieces : List Piece} {file : String} {token : Token}

theorem Cuts.exists_start (h : Cuts text pieces left) {offset : Nat}
    (ht : token ∈ placed file offset pieces) :
    ∃ before c cs after, text = before ++ (c :: (cs ++ after)) ∧ Text.isBlank c = false ∧
      token.value = String.ofList (c :: cs) ∧
      token.span.start = ⟨.ofNat (offset + Text.byteLength before), file⟩ := by
  induction h generalizing offset with
  | done left => cases ht
  | @piece pattern lexeme rest left pieces hf _ ih =>
    rw [placed, List.mem_append] at ht
    rcases ht with ht | ht
    · obtain ⟨c, cs, rfl⟩ := List.exists_cons_of_ne_nil (first?_eq_append hf).1
      obtain ⟨kind, hk, rfl⟩ := Option.map_eq_some_iff.mp (Option.mem_toList.mp ht)
      have hblanks : pattern ≠ .blanks := by
        rintro rfl
        cases hk
      exact ⟨[], c, cs, rest, rfl, Pattern.not_isBlank_of_first? hf hblanks, rfl, rfl⟩
    · obtain ⟨before, c, cs, after, rfl, hc, hv, hs⟩ := ih ht
      refine ⟨lexeme ++ before, c, cs, after, by rw [List.append_assoc], hc, hv, ?_⟩
      rw [hs, Text.byteLength_append, Nat.add_assoc]

theorem closeTokens_eof (tokens : List Token) (position : Position) (file : String) :
    closeTokens (tokens ++ [eof position]) file = tokens ++ [eof position] := by
  simp [closeTokens, eof]

end Token

theorem Sheet.names_of_ofTokens_error {tokens : List Token} {file : String} {failure : Failure}
    (h : Sheet.ofTokens tokens file = .error failure) :
    ∃ token ∈ closeTokens tokens file, failure.Names token := by
  cases Reader.sheet_outcome (closed_closeTokens tokens file) with
  | read ht hr _ =>
    rw [Sheet.ofTokens_of_reads hr ht] at h
    cases h
  | @blame front rest more token stop sheet found ht hb hf hp =>
    rw [Sheet.ofTokens_of_blames hb ht, Except.error.injEq] at h
    exact ⟨token, ht ▸ List.mem_append_right front List.mem_cons_self, h ▸ hf⟩

theorem tokenize_error_stands {source file : String} {failure : Failure}
    (h : tokenize source file = .error failure) : failure.StandsIn source.toList file := by
  obtain ⟨pieces, left, hc, hl⟩ := Token.exists_cuts source.toList
  have hscan : tokenize source file = _ := hc.scan file 0
  rw [h] at hscan
  cases left with
  | nil =>
    rw [Token.Cursor.scan_nil] at hscan
    cases hscan
  | cons c after =>
    have hstuck := hl.resolve_left (List.cons_ne_nil c after)
    rw [Token.Cursor.scan_stuck hstuck] at hscan
    cases hscan
    exact ⟨_, c, [], after, hc.text_eq, Token.not_isBlank_of_stuck hl c rfl, rfl,
      by rw [Nat.zero_add]⟩

theorem readSheet_error_stands {source file : String} {failure : Failure}
    (h : readSheet source file = .error failure) :
    failure.StandsIn source.toList file ∨ failure.StandsBehind source.toList file := by
  cases ht : tokenize source file with
  | error found =>
    rw [readSheet, ht] at h
    cases h
    exact .inl (tokenize_error_stands ht)
  | ok tokens =>
    rw [readSheet_of_tokenize ht] at h
    obtain ⟨pieces, hc, rfl⟩ := tokenize_eq_ok_iff.mp ht
    obtain ⟨token, hm, hcause, hposition⟩ := Sheet.names_of_ofTokens_error h
    rw [Token.closeTokens_eof, List.mem_append, List.mem_singleton] at hm
    rcases hm with hm | rfl
    · obtain ⟨before, c, cs, after, htext, hblank, hv, hs⟩ := hc.exists_start hm
      rw [Nat.zero_add] at hs
      exact .inl ⟨before, c, cs, after, htext, hblank, hv ▸ hcause, hs ▸ hposition⟩
    · exact .inr ⟨hcause, hposition⟩

theorem checkSource_of_tokenize_error {source : String} {options : CompileOptions}
    {failure : Failure} (h : tokenize source options.file = .error failure) :
    checkSource source options = .error (.malformed failure) := by
  have hread : readSheet source options.file = .error failure := by
    rw [readSheet, h]
    rfl
  rw [checkSource, hread]

theorem readSheet_of_malformed {source : String} {options : CompileOptions} {failure : Failure}
    (h : checkSource source options = .error (.malformed failure)) :
    readSheet source options.file = .error failure := by
  rw [checkSource] at h
  cases hr : readSheet source options.file with
  | error found =>
    rw [hr] at h
    cases h
    rfl
  | ok sheet =>
    rw [hr] at h
    dsimp only at h
    split at h <;> cases h

end TypedStyle
