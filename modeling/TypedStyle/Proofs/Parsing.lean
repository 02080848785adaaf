import TypedStyle.Proofs.Sheets

set_option autoImplicit false

namespace TypedStyle

/-- The tokens with an end of file, which is put behind them where they do not have one there. -/
def closeTokens (tokens : List Token) (file : String) : List Token :=
  match tokens.getLast? with
  | none => [.eof ⟨0, file⟩]
  | some last => if last.kind = .eof then tokens else tokens ++ [.eof last.span.stop]

theorem exists_closeTokens_eq (tokens : List Token) (file : String) :
    ∃ last : List Token, closeTokens tokens file = tokens ++ last ∧
      ∀ token ∈ last, token.kind = .eof := by
  rw [closeTokens]
  cases h : tokens.getLast? with
  | none =>
    rw [List.getLast?_eq_none_iff] at h
    exact ⟨[.eof ⟨0, file⟩], by rw [h]; rfl, by simp [Token.eof]⟩
  | some last =>
    by_cases hk : last.kind = .eof
    · exact ⟨[], by simp [hk]⟩
    · exact ⟨[.eof last.span.stop], by simp [hk, Token.eof]⟩

theorem closed_closeTokens (tokens : List Token) (file : String) :
    Closed (closeTokens tokens file) := by
  rw [closeTokens]
  cases h : tokens.getLast? with
  | none => exact ⟨.eof ⟨0, file⟩, by simp, rfl⟩
  | some last =>
    by_cases hk : last.kind = .eof
    · exact ⟨last, by simp [hk, h], hk⟩
    · exact ⟨.eof last.span.stop, by simp [hk], rfl⟩

theorem Reader.stream_ofTokens (tokens : List Token) (file : String) (grammar : Grammar) :
    (Reader.ofTokens tokens file grammar).stream = closeTokens tokens file := by
  rw [closeTokens, Reader.stream, Reader.ofTokens]
  cases h : tokens.getLast? with
  | none => rfl
  | some last =>
    by_cases hk : last.kind = .eof
    · obtain ⟨front, rfl⟩ := List.getLast?_eq_some_iff.mp h
      simp [hk]
    · simp [hk]

theorem Reader.grammar_ofTokens (tokens : List Token) (file : String) (grammar : Grammar) :
    (Reader.ofTokens tokens file grammar).grammar = grammar := by
  rw [Reader.ofTokens]
  split
  · rfl
  · split <;> rfl

theorem Reader.before_ofTokens (tokens : List Token) (file : String) :
    (Reader.ofTokens tokens file).Before
      ⟨(Reader.ofTokens tokens file).budget, (Reader.ofTokens tokens file).budget⟩
      (closeTokens tokens file) := by
  have hl := (Reader.ofTokens tokens file).length_ahead_le
  exact ⟨grammar_ofTokens tokens file .standard, hl, hl, stream_ofTokens tokens file .standard⟩

section Runs

variable {tokens front rest : List Token} {file : String} {stop : Token} {sheet : Sheet}
  {failure : Failure}

theorem Sheet.ofTokens_of_reads (h : Reader.Reads (fun _ => Reader.sheet) front stop sheet)
    (ht : closeTokens tokens file = front ++ stop :: rest) :
    Sheet.ofTokens tokens file = .ok sheet := by
  have hb := Reader.before_ofTokens tokens file
  rw [ht] at hb
  have hr : Reader.sheet (Reader.ofTokens tokens file) = .ok sheet _ := h hb
  rw [Sheet.ofTokens, hr]

theorem Sheet.ofTokens_of_blames (h : Reader.Blames (fun _ => Reader.sheet) front stop failure)
    (ht : closeTokens tokens file = front ++ stop :: rest) :
    Sheet.ofTokens tokens file = .error failure := by
  have hb := Reader.before_ofTokens tokens file
  rw [ht] at hb
  have hr : Reader.sheet (Reader.ofTokens tokens file) = .error failure _ := h hb
  rw [Sheet.ofTokens, hr]

theorem takeWhile_inner (hf : Phrase.Inner front) (hs : stop.kind = .eof) :
    (front ++ stop :: rest).takeWhile (·.kind != .eof) = front := by
  induction front with
  | nil => simp [hs]
  | cons token front ih =>
    obtain ⟨hk, hf⟩ := Phrase.Inner.cons_iff.mp hf
    simp [hk, ih hf]

theorem takeWhile_append_eof {last : List Token} (hk : ∀ token ∈ last, token.kind = .eof)
    (tokens : List Token) :
    (tokens ++ last).takeWhile (·.kind != .eof) = tokens.takeWhile (·.kind != .eof) := by
  induction tokens with
  | nil => cases last <;> simp_all
  | cons token rest ih => by_cases h : token.kind = .eof <;> simp [h, ih]

theorem takeWhile_closeTokens (tokens : List Token) (file : String) :
    (closeTokens tokens file).takeWhile (·.kind != .eof) = tokens.takeWhile (·.kind != .eof) := by
  obtain ⟨last, he, hk⟩ := exists_closeTokens_eq tokens file
  rw [he]
  exact takeWhile_append_eof hk tokens

theorem exists_closeTokens_eq_cons (tokens : List Token) (file : String) :
    ∃ stop rest, stop.kind = .eof ∧
      closeTokens tokens file = tokens.takeWhile (·.kind != .eof) ++ stop :: rest := by
  have hsplit := List.takeWhile_append_dropWhile (p := (·.kind != .eof))
    (l := closeTokens tokens file)
  rw [takeWhile_closeTokens] at hsplit
  cases hd : (closeTokens tokens file).dropWhile (·.kind != .eof) with
  | nil =>
    obtain ⟨last, hl, hk⟩ := closed_closeTokens tokens file
    rw [hd, List.append_nil] at hsplit
    -- the last token is an end of file, so not all tokens can be in front of the first one
    have hall := List.all_eq_true.mp (List.all_takeWhile (p := (·.kind != .eof)) (l := tokens))
    have hlast := hall last (hsplit ▸ List.mem_of_getLast? hl)
    simp [hk] at hlast
  | cons stop rest =>
    have hstop := List.head?_dropWhile_not (·.kind != .eof) (closeTokens tokens file)
    rw [hd] at hstop hsplit
    exact ⟨stop, rest, by simpa using hstop, hsplit.symm⟩

theorem ofTokens_eq_ok_iff : Sheet.ofTokens tokens file = .ok sheet ↔
    Phrase.Sheet (tokens.takeWhile (·.kind != .eof)) sheet := by
  constructor
  · intro h
    cases Reader.sheet_outcome (closed_closeTokens tokens file) with
    | read ht hr hp =>
      have hsheet := Sheet.ofTokens_of_reads hr ht
      rw [h, Except.ok.injEq] at hsheet
      rw [← takeWhile_closeTokens tokens file, ht, takeWhile_inner hp.1.inner hp.2, hsheet]
      exact hp.1
    | blame ht hb _ _ =>
      rw [Sheet.ofTokens_of_blames hb ht] at h
      cases h
  · intro h
    obtain ⟨stop, rest, hs, ht⟩ := exists_closeTokens_eq_cons tokens file
    exact Sheet.ofTokens_of_reads (Reader.sheet_reads h hs) ht

end Runs

theorem exists_eq_append_of_inner {front rest inner others : List Token} {stop token : Token}
    (hi : Phrase.Inner inner) (hs : stop.kind = .eof)
    (h : front ++ stop :: rest = inner ++ token :: others) (more : List Token) :
    ∃ further, front ++ stop :: more = inner ++ token :: further := by
  induction inner generalizing front with
  | nil =>
    cases front with
    | nil => simp_all
    | cons first front => simp_all
  | cons first inner ih =>
    obtain ⟨hk, hi⟩ := Phrase.Inner.cons_iff.mp hi
    cases front with
    | nil =>
      rw [List.nil_append, List.cons_append, List.cons.injEq] at h
      exact absurd (h.1 ▸ hs) hk
    | cons other front =>
      rw [List.cons_append, List.cons_append, List.cons.injEq] at h
      obtain ⟨further, he⟩ := ih hi h.2
      exact ⟨further, by rw [List.cons_append, List.cons_append, h.1, he]⟩

theorem ofTokens_eof_rest (front rest other : List Token) {stop : Token} (hs : stop.kind = .eof)
    (file : String) : Sheet.ofTokens (front ++ stop :: rest) file =
      Sheet.ofTokens (front ++ stop :: other) file := by
  obtain ⟨last, hl, _⟩ := exists_closeTokens_eq (front ++ stop :: rest) file
  obtain ⟨more, hm, _⟩ := exists_closeTokens_eq (front ++ stop :: other) file
  rw [List.append_assoc, List.cons_append] at hl hm
  cases Reader.sheet_outcome (closed_closeTokens (front ++ stop :: rest) file) with
  | @read inner others token sheet ht hr hp =>
    obtain ⟨further, he⟩ := exists_eq_append_of_inner hp.1.inner hs (hl.symm.trans ht)
      (other ++ more)
    rw [Sheet.ofTokens_of_reads hr ht, Sheet.ofTokens_of_reads hr (hm.trans he)]
  | @blame inner others more' token final sheet failure ht hb hf hp =>
    have hi : Phrase.Inner inner := (Phrase.Inner.append_iff.mp hp.1.inner).1
    obtain ⟨further, he⟩ := exists_eq_append_of_inner hi hs (hl.symm.trans ht) (other ++ more)
    rw [Sheet.ofTokens_of_blames hb ht, Sheet.ofTokens_of_blames hb (hm.trans he)]

theorem ofTokens_of_phrase {tokens : List Token} {sheet : Sheet} (h : Phrase.Sheet tokens sheet)
    (file : String) : Sheet.ofTokens tokens file = .ok sheet := by
  have ht : tokens.takeWhile (·.kind != .eof) = tokens := by
    have heof : ∀ token ∈ [Token.blank .eof], token.kind = .eof := by simp [Token.blank]
    rw [← takeWhile_append_eof heof]
    exact takeWhile_inner h.inner rfl
  exact ofTokens_eq_ok_iff.mpr (ht.symm ▸ h)

theorem take_of_closeTokens {tokens front rest : List Token} {file : String} {token : Token}
    (ht : closeTokens tokens file = front ++ token :: rest) (hi : Phrase.Inner front) :
    tokens.take front.length = front := by
  obtain ⟨last, hl, hk⟩ := exists_closeTokens_eq tokens file
  obtain ⟨more, hf, he⟩ | ⟨more, hf, _⟩ := List.append_eq_append_iff.mp (hl.symm.trans ht)
  · have hnil : more = [] := by
      refine List.eq_nil_iff_forall_not_mem.mpr fun mark hm => ?_
      have hmark := hi mark (hf ▸ List.mem_append_right tokens hm)
      exact hmark (hk mark (he ▸ List.mem_append_left _ hm))
    rw [hf, hnil, List.append_nil, List.take_length]
  · rw [hf, List.take_left]

/-- Reading accepts just the grammar and builds the one tree that the tokens spell, without faults;
it is not concerned with what stands behind the first end of file. -/
theorem Sheet.ofTokens_grammar (file : String) :
    (∀ (tokens : List Token) (sheet : Sheet), Sheet.ofTokens tokens file = .ok sheet ↔
      Phrase.Sheet (tokens.takeWhile (·.kind != .eof)) sheet) ∧
    (∀ (tokens : List Token) (sheet other : Sheet), Phrase.Sheet tokens sheet →
      Phrase.Sheet tokens other → sheet = other) ∧
    (∀ (tokens : List Token) (sheet : Sheet), Sheet.ofTokens tokens file = .ok sheet →
      Clean sheet.slots) ∧
    ∀ (front rest other : List Token) (stop : Token), stop.kind = .eof →
      Sheet.ofTokens (front ++ stop :: rest) file =
        Sheet.ofTokens (front ++ stop :: other) file := by
  refine ⟨fun _ _ => ofTokens_eq_ok_iff, ?_, ?_, ?_⟩
  · intro tokens sheet other hs ho
    have h := (ofTokens_of_phrase hs file).symm.trans (ofTokens_of_phrase ho file)
    exact Except.ok.inj h
  · intro tokens sheet h
    exact (ofTokens_eq_ok_iff.mp h).clean
  · intro front rest other stop hs
    exact ofTokens_eof_rest front rest other hs file

/-- The one tree of a sum with a product in it; what stands behind the end of file is not read. -/
theorem Sheet.ofTokens_sum_of_product :
    let number (text : String) : Token := { Token.blank .scalar with value := text }
    let name : Token := { Token.blank .capitalName with value := "A" }
    let spelt : List Token := [name, .blank .assign, number "1", .blank .plus, number "2",
      .blank .times, number "3", .blank .semicolon]
    let scalar (value : Int64) : Expr := .literal (.number .scalar value)
    let sheet : Sheet := ⟨[.assignment ⟨"A",
      .operation .add (scalar 1) (.operation .multiply (scalar 2) (scalar 3))⟩]⟩
    Sheet.ofTokens spelt "a" = .ok sheet ∧ (∀ other, Phrase.Sheet spelt other → sheet = other) ∧
      Clean sheet.slots ∧
      Sheet.ofTokens (spelt ++ .blank .eof :: [.blank .closeCurly]) "a" =
        Sheet.ofTokens (spelt ++ .blank .eof :: []) "a" := by
  intro number name spelt scalar sheet
  have hone : Phrase.Operand (number "1") (scalar 1) :=
    .number rfl (Reader.number?_eq_some_iff.mp (by decide))
  have htwo : Phrase.Operand (number "2") (scalar 2) :=
    .number rfl (Reader.number?_eq_some_iff.mp (by decide))
  have hthree : Phrase.Operand (number "3") (scalar 3) :=
    .number rfl (Reader.number?_eq_some_iff.mp (by decide))
  have hproduct : Phrase.Expression 1 ([number "2"] ++ .blank .times :: [number "3"])
      (.operation .multiply (scalar 2) (scalar 3)) :=
    .operation (Nat.le_refl 1) (.operand htwo) rfl (.operand hthree)
  have hsum : Phrase.Expression 0 ([number "1"] ++ .blank .plus :: _)
      (.operation .add (scalar 1) (.operation .multiply (scalar 2) (scalar 3))) :=
    .operation (Nat.le_refl 0) (.operand hone) rfl hproduct
  have hmember : Phrase.Member spelt (.assignment ⟨"A", _⟩) :=
    .assignment (@Phrase.Framed.intro _ _ _ name (.blank .assign) (.blank .semicolon) _ _
      rfl rfl hsum rfl)
  have hspelt : Phrase.Sheet spelt sheet := @Phrase.Many.cons _ _ spelt [] _ [] hmember .nil
  obtain ⟨hiff, hunique, hclean, heof⟩ := Sheet.ofTokens_grammar "a"
  have hok : Sheet.ofTokens spelt "a" = .ok sheet := (hiff spelt sheet).mpr hspelt
  exact ⟨hok, fun other ho => hunique spelt sheet other hspelt ho, hclean spelt sheet hok,
    heof spelt _ _ (.blank .eof) rfl⟩

/-- A failure of reading names the first token that cannot stand where it does: what is in front of
it starts some sheet, and nothing that follows it makes a difference. -/
theorem Sheet.ofTokens_error_viable {tokens : List Token} {file : String} {failure : Failure}
    (h : Sheet.ofTokens tokens file = .error failure) :
    ∃ i token, (closeTokens tokens file)[i]? = some token ∧
      (∀ earlier ∈ (closeTokens tokens file).take i, earlier.kind ≠ .eof) ∧
      failure.Names token ∧
      (∃ more sheet, Sheet.ofTokens (tokens.take i ++ more) file = .ok sheet) ∧
      ∀ (other : List Token) (place : String),
        (closeTokens other place).take (i + 1) = (closeTokens tokens file).take (i + 1) →
          Sheet.ofTokens other place = .error failure := by
  cases Reader.sheet_outcome (closed_closeTokens tokens file) with
  | read ht hr _ =>
    rw [Sheet.ofTokens_of_reads hr ht] at h
    cases h
  | @blame front rest more token stop sheet found ht hb hf hp =>
    rw [Sheet.ofTokens_of_blames hb ht, Except.error.injEq] at h
    subst h
    have hi := Phrase.Inner.append_iff.mp hp.1.inner
    have hfront : (closeTokens tokens file).take front.length = front := by rw [ht]; simp
    refine ⟨front.length, token, by rw [ht]; simp, hfront.symm ▸ hi.1, hf, ?_, ?_⟩
    · rw [take_of_closeTokens ht hi.1]
      exact ⟨more, sheet, ofTokens_of_phrase hp.1 file⟩
    · intro other place ho
      have htake : (closeTokens tokens file).take (front.length + 1) = front ++ [token] := by
        rw [ht, List.take_add_one]
        simp
      have hsplit := List.take_append_drop (front.length + 1) (closeTokens other place)
      rw [ho, htake, List.append_assoc] at hsplit
      exact Sheet.ofTokens_of_blames hb hsplit.symm

/-- The second of two adjacent operands is at fault. -/
theorem Sheet.ofTokens_adjacent_operands :
    let place (offset : UInt32) : Position := ⟨offset, "a"⟩
    let spelt : List Token := [⟨.capitalName, "A", ⟨place 0, place 1⟩⟩,
      ⟨.assign, ":=", ⟨place 2, place 4⟩⟩, ⟨.trueWord, "TRUE", ⟨place 5, place 9⟩⟩,
      ⟨.falseWord, "FALSE", ⟨place 10, place 15⟩⟩, ⟨.semicolon, ";", ⟨place 15, place 16⟩⟩]
    let failure : Failure :=
      ⟨.unexpectedTokenDetailed "FALSE" "expected an operator or `;`", some (place 10)⟩
    Sheet.ofTokens spelt "a" = .error failure ∧
    ∃ i token, (closeTokens spelt "a")[i]? = some token ∧
      (∀ earlier ∈ (closeTokens spelt "a").take i, earlier.kind ≠ .eof) ∧
      failure.Names token ∧
      (∃ more sheet, Sheet.ofTokens (spelt.take i ++ more) "a" = .ok sheet) ∧
      ∀ (other : List Token) (place : String),
        (closeTokens other place).take (i + 1) = (closeTokens spelt "a").take (i + 1) →
          Sheet.ofTokens other place = .error failure := by
  intro place spelt failure
  have herror : Sheet.ofTokens spelt "a" = .error failure := rfl
  exact ⟨herror, Sheet.ofTokens_error_viable herror⟩

end TypedStyle
