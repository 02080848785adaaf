import TypedStyle.Proofs.Lines

set_option autoImplicit false

namespace TypedStyle.Text

def bytes (text : List Char) : List UInt8 :=
  text.flatMap String.utf8EncodeChar

def newlineByte : UInt8 :=
  10

section Bytes

variable {text : List Char}

theorem bytes_append (text more : List Char) : bytes (text ++ more) = bytes text ++ bytes more :=
  List.flatMap_append

theorem length_bytes (text : List Char) : (bytes text).length = byteLength text := by
  induction text with
  | nil => rfl
  | cons c text ih =>
    have hcons : bytes (c :: text) = String.utf8EncodeChar c ++ bytes text := List.flatMap_cons
    rw [hcons, List.length_append, String.length_utf8EncodeChar, ih, byteLength_cons]

theorem newlineByte_not_mem_utf8EncodeChar {c : Char} (h : c ≠ '\n') :
    newlineByte ∉ String.utf8EncodeChar c := by
  have hcode : c.val.toNat ≠ 10 := fun hc => h (Char.ext (UInt32.toNat_inj.mp hc))
  intro hm
  unfold String.utf8EncodeChar at hm
  simp only [newlineByte] at hm
  split_ifs at hm <;>
    simp only [List.mem_cons, List.not_mem_nil, or_false, ← UInt8.toNat_inj, UInt8.toNat_ofNat,
      UInt8.toNat_ofNat'] at hm <;>
    omega

theorem count_newlineByte (text : List Char) :
    (bytes text).count newlineByte = text.count '\n' := by
  induction text with
  | nil => rfl
  | cons c text ih =>
    have hcons : bytes (c :: text) = String.utf8EncodeChar c ++ bytes text := List.flatMap_cons
    rw [hcons, List.count_append, ih, List.count_cons, Nat.add_comm]
    by_cases hc : c = '\n'
    · subst hc
      rfl
    · rw [List.count_eq_zero.mpr (newlineByte_not_mem_utf8EncodeChar hc),
        if_neg (by simpa using hc)]

end Bytes

/-- A line of a text, with those before it and with what stands behind it. Only the last line may
lack its newline, and then it has other characters. -/
structure Row (text : List Char) where
  earlier : List (List Char)
  body : List Char
  line : List Char
  behind : List Char
  text_eq : text = closedLines earlier ++ (line ++ behind)
  newline_not_mem_earlier : ∀ body ∈ earlier, '\n' ∉ body
  newline_not_mem_body : '\n' ∉ body
  line_eq : line = body ++ ['\n'] ∨ line = body ∧ behind = [] ∧ body ≠ []

namespace Row

variable {text : List Char}

def start (row : Row text) : Nat :=
  byteLength (closedLines row.earlier)

def number (row : Row text) : Nat :=
  row.earlier.length + 1

theorem line_ne_nil (row : Row text) : row.line ≠ [] := by
  rcases row.line_eq with h | ⟨h, -, hb⟩
  · simp [h]
  · exact h ▸ hb

theorem lines_line (row : Row text) :
    lines (row.line ++ row.behind) = row.line :: lines row.behind := by
  rcases row.line_eq with h | ⟨h, hbehind, hb⟩
  · rw [h, List.append_assoc]
    exact lines_append row.newline_not_mem_body (lines_newline row.behind)
  · rw [h, hbehind, List.append_nil]
    exact lines_single row.newline_not_mem_body (.inl rfl) hb

def later {body : List Char} (hb : '\n' ∉ body) (row : Row text) : Row (body ++ '\n' :: text) where
  earlier := body :: row.earlier
  body := row.body
  line := row.line
  behind := row.behind
  text_eq := by rw [closedLines_cons_append, ← row.text_eq]
  newline_not_mem_earlier := List.forall_mem_cons.mpr ⟨hb, row.newline_not_mem_earlier⟩
  newline_not_mem_body := row.newline_not_mem_body
  line_eq := row.line_eq

theorem start_later {body : List Char} (hb : '\n' ∉ body) (row : Row text) :
    (row.later hb).start = byteLength (body ++ ['\n']) + row.start := by
  simp [start, later, closedLines, Nat.add_assoc]

theorem exists_start_le {place : Nat} (h : place < byteLength text) :
    ∃ row : Row text, row.start ≤ place ∧ place < row.start + byteLength row.line := by
  obtain ⟨bodies, last, rfl, hb, hl⟩ := exists_closedLines text
  induction bodies generalizing place with
  | nil =>
    have hlast : last ≠ [] := by
      rintro rfl
      exact absurd h (Nat.not_lt_zero place)
    exact ⟨⟨[], last, last, [], by simp, by simp, hl, .inr ⟨rfl, rfl, hlast⟩⟩, Nat.zero_le _,
      by simpa [start, closedLines] using h⟩
  | cons body bodies ih =>
    obtain ⟨hbody, hb⟩ := List.forall_mem_cons.mp hb
    rw [closedLines_cons_append] at h ⊢
    by_cases hp : place < byteLength (body ++ ['\n'])
    · exact ⟨⟨[], body, body ++ ['\n'], closedLines bodies ++ last, by simp [closedLines], by simp,
        hbody, .inl rfl⟩, Nat.zero_le _, by simpa [start, closedLines] using hp⟩
    · obtain ⟨rest, rfl⟩ := Nat.exists_eq_add_of_le (Nat.not_lt.mp hp)
      have hrest : rest < byteLength (closedLines bodies ++ last) := by
        simp only [byteLength_append, byteLength_cons, byteLength_nil] at h ⊢
        omega
      obtain ⟨row, hle, hlt⟩ := ih hrest hb
      refine ⟨row.later hbody, ?_, ?_⟩
      · rw [start_later]
        exact Nat.add_le_add_left hle _
      · rw [start_later, Nat.add_assoc]
        exact Nat.add_lt_add_left hlt _

theorem exists_last (h : text ≠ []) : ∃ row : Row text, row.behind = [] := by
  obtain ⟨bodies, body, line, htext, hb, hbody, hcase, hline⟩ := exists_lastLine h
  refine ⟨⟨bodies, body, line, [], by rw [htext, List.append_nil], hb, hbody, ?_⟩, rfl⟩
  rcases hcase with rfl | rfl
  · exact .inr ⟨rfl, rfl, hline⟩
  · exact .inl rfl

theorem count_take (row : Row text) {offset : Nat} (h : offset < byteLength row.line) :
    ((bytes text).take (row.start + offset)).count newlineByte = row.earlier.length := by
  have hbody : ((bytes row.line).take offset).count newlineByte = 0 := by
    have hnone : newlineByte ∉ bytes row.body := by
      rw [← List.count_eq_zero, count_newlineByte, List.count_eq_zero]
      exact row.newline_not_mem_body
    have htake : (bytes row.line).take offset = (bytes row.body).take offset := by
      rcases row.line_eq with hl | ⟨hl, -⟩
      · rw [hl, byteLength_append] at h
        rw [hl, bytes_append, List.take_append_of_le_length]
        rw [length_bytes]
        exact Nat.lt_succ_iff.mp h
      · rw [hl]
    rw [htake, List.count_eq_zero]
    exact fun hm => hnone (List.mem_of_mem_take hm)
  have hstart : (bytes (closedLines row.earlier)).length = row.start := length_bytes _
  have hline : offset ≤ (bytes row.line).length := length_bytes row.line ▸ Nat.le_of_lt h
  rw [congrArg bytes row.text_eq, bytes_append, ← hstart, List.take_length_add_append,
    List.count_append, count_newlineByte, count_closedLines row.newline_not_mem_earlier,
    bytes_append, List.take_append_of_le_length hline, hbody, Nat.add_zero]

variable {source : String}

theorem lineAt?_start (row : Row source.toList) {offset : Nat} (h : offset < byteLength row.line) :
    lineAt? source (row.start + offset) =
      some ⟨row.number, String.ofList row.line, offset⟩ := by
  have hsource := congrArg lines row.text_eq
  rw [lineAt?, hsource, start, locate_closedLines row.newline_not_mem_earlier
    (by simp [row.line_ne_nil]), row.lines_line, locate, if_pos h, number, Nat.add_comm]

theorem lineAt?_byteLength (row : Row source.toList) (h : row.behind = []) :
    lineAt? source (byteLength source.toList) =
      some ⟨row.number, String.ofList row.line, byteLength row.body⟩ := by
  have hlines := row.lines_line
  have hfilter : row.line.filter (· ≠ '\n') = row.body := by
    have hbody : row.body.filter (· ≠ '\n') = row.body :=
      List.filter_eq_self.mpr fun c hc => by
        simpa using ne_of_mem_of_not_mem hc row.newline_not_mem_body
    rcases row.line_eq with hl | ⟨hl, -⟩
    · rw [hl, List.filter_append, hbody]
      simp
    · rw [hl, hbody]
  have hsource := row.text_eq
  rw [h, List.append_nil] at hsource hlines
  rw [lineAt?, congrArg lines hsource, congrArg byteLength hsource, byteLength_append,
    locate_closedLines row.newline_not_mem_earlier row.line_ne_nil, hlines, locate,
    if_neg (Nat.lt_irrefl _), if_pos (by simp [lines]), hfilter, number, Nat.add_comm]

/-- The line is this one, and the place is as far into it as it says: at the byte there, or in front
of the last newline if there is no byte at the place. -/
def Holds (row : Row text) (position : Nat) (line : Line) : Prop :=
  line.text.toList = row.line ∧ line.number = row.number ∧
    (position < byteLength text →
      line.number = 1 + ((bytes text).take position).count newlineByte ∧
      row.start + line.offset = position ∧ line.offset < byteLength row.line) ∧
    (position = byteLength text → row.behind = [] ∧ line.offset = byteLength row.body)

theorem exists_holds {position : Nat} (hs : source ≠ "") (h : position ≤ byteLength source.toList) :
    ∃ line, lineAt? source position = some line ∧
      ∃ row : Row source.toList, row.Holds position line := by
  rcases Nat.lt_or_eq_of_le h with hlt | rfl
  · obtain ⟨row, hstart, hstop⟩ := exists_start_le hlt
    obtain ⟨offset, rfl⟩ := Nat.exists_eq_add_of_le hstart
    have hoffset := Nat.lt_of_add_lt_add_left hstop
    refine ⟨_, row.lineAt?_start hoffset, row, String.toList_ofList, rfl, ?_, ?_⟩
    · intro _
      exact ⟨by rw [row.count_take hoffset, number, Nat.add_comm], rfl, hoffset⟩
    · intro heq
      exact absurd heq (Nat.ne_of_lt hlt)
  · obtain ⟨row, hlast⟩ := exists_last fun hnil => hs (String.toList_eq_nil_iff.mp hnil)
    refine ⟨_, row.lineAt?_byteLength hlast, row, String.toList_ofList, rfl, ?_, ?_⟩
    · intro hlt
      exact absurd hlt (Nat.lt_irrefl _)
    · intro _
      exact ⟨hlast, rfl⟩

end Row

theorem locate_beyond {rows : List (List Char)} {number place : Nat}
    (h : byteLength rows.flatten < place) : locate number rows place = none := by
  induction rows generalizing number place with
  | nil => rfl
  | cons row rows ih =>
    rw [List.flatten_cons, byteLength_append] at h
    have hlast : (rows.isEmpty && place == byteLength row) = false := by
      simp only [Bool.and_eq_false_iff, beq_eq_false_iff_ne]
      exact .inr (by omega)
    rw [locate, if_neg (by omega), if_neg (by simp [hlast]), ih (by omega)]

theorem lineAt?_exact (source : String) (position : Nat) :
    (lineAt? source position = none ↔ byteLength source.toList < position ∨ source = "") ∧
    ∀ line, lineAt? source position = some line →
      ∃ row : Row source.toList, row.Holds position line := by
  by_cases hnone : byteLength source.toList < position ∨ source = ""
  · have hat : lineAt? source position = none := by
      rcases hnone with hlt | rfl
      · rw [← flatten_lines source.toList] at hlt
        exact locate_beyond hlt
      · rfl
    refine ⟨iff_of_true hat hnone, fun line hline => ?_⟩
    rw [hat] at hline
    cases hline
  · rw [not_or, Nat.not_lt] at hnone
    obtain ⟨line, hat, hrow⟩ := Row.exists_holds hnone.2 hnone.1
    refine ⟨?_, fun other hother => ?_⟩
    · rw [hat, iff_false_left (by simp), not_or, Nat.not_lt]
      exact hnone
    · cases hat.symm.trans hother
      exact hrow

/-- The second byte of a character is in the line of the first, and the end of a source that ends in
a newline in the line of that. -/
theorem lineAt?_exact_inside :
    let source := "a\né\n"
    let inside : Line := ⟨2, "é\n", 1⟩
    let atEnd : Line := ⟨2, "é\n", 2⟩
    (lineAt? source 3 = some inside ∧ 3 < byteLength source.toList ∧
      inside.number = 1 + ((bytes source.toList).take 3).count newlineByte) ∧
    (lineAt? source 5 = some atEnd ∧ 5 = byteLength source.toList ∧
      ∃ row : Row source.toList, row.behind = [] ∧ atEnd.offset = byteLength row.body) := by
  intro source inside atEnd
  have hinside : lineAt? source 3 = some inside := by decide
  have hend : lineAt? source 5 = some atEnd := by decide
  have hlt : 3 < byteLength source.toList := by decide
  have heq : 5 = byteLength source.toList := by decide
  obtain ⟨_, -, -, hbefore, -⟩ := (lineAt?_exact source 3).2 inside hinside
  obtain ⟨row, -, -, -, hlast⟩ := (lineAt?_exact source 5).2 atEnd hend
  exact ⟨⟨hinside, hlt, (hbefore hlt).1⟩, hend, heq, row, hlast heq⟩

end TypedStyle.Text
