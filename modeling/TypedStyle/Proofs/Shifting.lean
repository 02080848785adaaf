import TypedStyle.Proofs.Places

set_option autoImplicit false

namespace TypedStyle

def Position.shift (bytes : Nat) (position : Position) : Position :=
  { position with offset := position.offset + .ofNat bytes }

def Span.shift (bytes : Nat) (span : Span) : Span :=
  ⟨span.start.shift bytes, span.stop.shift bytes⟩

def Token.shift (bytes : Nat) (token : Token) : Token :=
  { token with span := token.span.shift bytes }

def Failure.shift (bytes : Nat) (failure : Failure) : Failure :=
  { failure with position := failure.position.map (Position.shift bytes) }

theorem Position.toNat_shift {bytes : Nat} {position : Position}
    (h : position.offset.toNat + bytes < 2 ^ 32) :
    (position.shift bytes).offset.toNat = position.offset.toNat + bytes := by
  have hb : (UInt32.ofNat bytes).toNat = bytes :=
    UInt32.toNat_ofNat_of_lt' (show _ < 2 ^ 32 by omega)
  rw [shift, UInt32.toNat_add, hb, Nat.mod_eq_of_lt h]

namespace Token

variable {file : String} {text : List Char} {tokens : List Token} {start stop : Nat}

theorem placed_shift (file : String) (offset bytes : Nat) (pieces : List Piece) :
    placed file (offset + bytes) pieces = (placed file offset pieces).map (shift bytes) := by
  induction pieces generalizing offset with
  | nil => rfl
  | cons piece pieces ih =>
    obtain ⟨pattern, lexeme⟩ := piece
    rw [placed, placed, List.map_append, ← ih, Nat.add_right_comm]
    cases h : pattern.kind? lexeme <;>
      simp [Pattern.token?, h, shift, Span.shift, Position.shift]

/-- Where a text stands makes no difference to its tokens but for their places. -/
theorem Cursor.scan_shift (file : String) (offset bytes : Nat) (text : List Char) :
    (Cursor.mk file (offset + bytes) text 0).scan =
      match (Cursor.mk file offset text 0).scan with
      | .ok tokens => .ok (tokens.map (shift bytes))
      | .error failure => .error (failure.shift bytes) := by
  obtain ⟨pieces, left, hc, hl⟩ := exists_cuts text
  rw [hc.scan, hc.scan, placed_shift, Nat.add_right_comm]
  cases left with
  | nil =>
    rw [scan_nil, scan_nil]
    simp [Except.map, eof, shift, Span.shift, Position.shift]
  | cons c after =>
    have hstuck := hl.resolve_left (List.cons_ne_nil c after)
    rw [scan_stuck hstuck, scan_stuck hstuck]
    simp [Except.map, Failure.shift, Position.shift]

theorem Tiling.tiles (h : Tiling file text start tokens stop) :
    ∀ token ∈ tokens, Tile file text token := by
  induction h with
  | done => simp
  | token _ htile _ ih => exact List.forall_mem_cons.mpr ⟨htile, ih⟩

theorem Tile.stop_le {token : Token} (h : Tile file text token) :
    token.stop ≤ Text.byteLength text := by
  obtain ⟨before, after, htext, -, hstop⟩ := h.slice
  have happend := Text.byteLength_append (before ++ token.value.toList) after
  rw [← htext] at happend
  omega

end Token

theorem tokenize_newline_eq {first file : String} {tokens : List Token} (second : String)
    (h : tokenize first file = .ok tokens) :
    tokenize (first ++ "\n" ++ second) file =
      match tokenize second file with
      | .ok others =>
        .ok (tokens.dropLast ++ others.map (.shift (Text.byteLength first.toList + 1)))
      | .error failure => .error (failure.shift (Text.byteLength first.toList + 1)) := by
  obtain ⟨pieces, hc, rfl⟩ := tokenize_eq_ok_iff.mp h
  have htext : (first ++ "\n" ++ second).toList = first.toList ++ '\n' :: second.toList := by
    simp
  have hscan := hc.scan_newline second.toList file 0
  rw [Nat.zero_add, ← Nat.zero_add (_ + 1), Token.Cursor.scan_shift] at hscan
  rw [tokenize, Token.Cursor.start, htext, hscan, tokenize, Token.Cursor.start]
  cases (Token.Cursor.mk file 0 second.toList 0).scan <;> simp [Except.map]

theorem le_of_tokenize {source file : String} {tokens : List Token}
    (hlt : Text.byteLength source.toList < 2 ^ 32) (h : tokenize source file = .ok tokens) :
    ∀ token ∈ tokens, token.start ≤ Text.byteLength source.toList ∧
      token.stop ≤ Text.byteLength source.toList := by
  obtain ⟨pieces, hc, rfl⟩ := tokenize_eq_ok_iff.mp h
  intro token hm
  rcases List.mem_append.mp hm with hm | hm
  · have htile := (hc.tiled (.inl rfl) hlt file).tiling.tiles token hm
    exact ⟨Nat.le_trans (Nat.le_of_lt htile.start_lt_stop) htile.stop_le, htile.stop_le⟩
  · rw [List.mem_singleton.mp hm]
    have hlast := UInt32.toNat_ofNat_of_lt' hlt
    exact ⟨Nat.le_of_eq hlast, Nat.le_of_eq hlast⟩

/-- Offsets are kept modulo the limit, which those in a shorter source do not reach. -/
theorem tokenize_newline {first file : String} {tokens : List Token}
    (h : tokenize first file = .ok tokens) (second : String) :
    let whole := first ++ "\n" ++ second
    let bytes := Text.byteLength first.toList + 1
    (∃ last, tokens = tokens.dropLast ++ [last] ∧ last.kind = .eof) ∧
    ((∃ all, tokenize whole file = .ok all) ↔ ∃ others, tokenize second file = .ok others) ∧
    (∀ others, tokenize second file = .ok others →
      tokenize whole file = .ok (tokens.dropLast ++ others.map (.shift bytes)) ∧
      (Text.byteLength whole.toList < 2 ^ 32 → ∀ token ∈ others,
        (token.shift bytes).start = token.start + bytes ∧
          (token.shift bytes).stop = token.stop + bytes)) ∧
    ∀ failure, tokenize second file = .error failure →
      tokenize whole file = .error (failure.shift bytes) ∧
      (Text.byteLength whole.toList < 2 ^ 32 → ∃ position, failure.position = some position ∧
        (position.shift bytes).offset.toNat = position.offset.toNat + bytes) := by
  intro whole bytes
  have heq := tokenize_newline_eq second h
  have hwhole : Text.byteLength whole.toList = bytes + Text.byteLength second.toList := by
    have hnewline : Text.byteLength "\n".toList = 1 := by decide
    rw [String.toList_append, String.toList_append, Text.byteLength_append,
      Text.byteLength_append, hnewline]
  refine ⟨?_, ?_, fun others ho => ?_, fun failure hf => ?_⟩
  · obtain ⟨pieces, -, rfl⟩ := tokenize_eq_ok_iff.mp h
    exact ⟨_, by rw [List.dropLast_concat], rfl⟩
  · rw [heq]
    cases tokenize second file <;> simp
  · rw [ho] at heq
    refine ⟨heq, fun hlt token hm => ?_⟩
    obtain ⟨hstart, hstop⟩ := le_of_tokenize (by omega) ho token hm
    rw [Token.start] at hstart
    rw [Token.stop] at hstop
    exact ⟨Position.toNat_shift (by omega), Position.toNat_shift (by omega)⟩
  · rw [hf] at heq
    refine ⟨heq, fun hlt => ?_⟩
    obtain ⟨before, c, cs, after, htext, -, -, hposition⟩ := tokenize_error_stands hf
    have hle := Text.byteLength_append before (c :: (cs ++ after))
    rw [← htext] at hle
    refine ⟨_, hposition, Position.toNat_shift ?_⟩
    rw [UInt32.toNat_ofNat_of_lt' (show _ < 2 ^ 32 by omega)]
    omega

theorem tokenize_newline_of_comment :
    tokenize "a//" "f" = .ok
      [⟨.lowerName, "a", ⟨⟨0, "f"⟩, ⟨1, "f"⟩⟩⟩, ⟨.eof, "EOF", ⟨⟨3, "f"⟩, ⟨3, "f"⟩⟩⟩] ∧
    tokenize ("a//" ++ "\n" ++ "b") "f" = .ok
      [⟨.lowerName, "a", ⟨⟨0, "f"⟩, ⟨1, "f"⟩⟩⟩, ⟨.lowerName, "b", ⟨⟨4, "f"⟩, ⟨5, "f"⟩⟩⟩,
        ⟨.eof, "EOF", ⟨⟨5, "f"⟩, ⟨5, "f"⟩⟩⟩] ∧
    tokenize ("a//" ++ "\n" ++ "b é") "f" = .error ⟨.unrecognisedToken "é", some ⟨6, "f"⟩⟩ := by
  have h : tokenize "a//" "f" = .ok
      [⟨.lowerName, "a", ⟨⟨0, "f"⟩, ⟨1, "f"⟩⟩⟩, ⟨.eof, "EOF", ⟨⟨3, "f"⟩, ⟨3, "f"⟩⟩⟩] := by
    decide +kernel
  have hread : tokenize "b" "f" = .ok
      [⟨.lowerName, "b", ⟨⟨0, "f"⟩, ⟨1, "f"⟩⟩⟩, ⟨.eof, "EOF", ⟨⟨1, "f"⟩, ⟨1, "f"⟩⟩⟩] := by
    decide +kernel
  have hfail : tokenize "b é" "f" = .error ⟨.unrecognisedToken "é", some ⟨2, "f"⟩⟩ := by
    decide +kernel
  have hlater := (tokenize_newline h "b").2.2.1 _ hread
  have hstuck := (tokenize_newline h "b é").2.2.2 _ hfail
  exact ⟨h, hlater.1, hstuck.1⟩

end TypedStyle
