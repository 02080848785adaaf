import TypedStyle.Text
import Mathlib.Data.List.Basic

set_option autoImplicit false

namespace TypedStyle.Text

theorem length_le_byteLength (cs : List Char) : cs.length ≤ byteLength cs := by
  induction cs with
  | nil => exact Nat.le_refl 0
  | cons c cs ih =>
    have hpos := c.utf8Size_pos
    rw [byteLength_cons, List.length_cons]
    omega

theorem byteLength_eq_length_iff (cs : List Char) :
    byteLength cs = cs.length ↔ ∀ c ∈ cs, c.utf8Size = 1 := by
  induction cs with
  | nil => simp
  | cons c cs ih =>
    have hpos := c.utf8Size_pos
    have hle := length_le_byteLength cs
    rw [List.forall_mem_cons, ← ih, byteLength_cons, List.length_cons]
    omega

def closedLines (bodies : List (List Char)) : List Char :=
  bodies.flatMap (· ++ ['\n'])

theorem closedLines_cons_append (body : List Char) (bodies : List (List Char))
    (rest : List Char) :
    closedLines (body :: bodies) ++ rest = body ++ '\n' :: (closedLines bodies ++ rest) := by
  simp [closedLines]

/-- A character of a text, with the lines in front of its own and with what stands in front of it in
its own. -/
structure Spot (text : List Char) where
  earlier : List (List Char)
  inLine : List Char
  char : Char
  after : List Char
  text_eq : text = closedLines earlier ++ (inLine ++ char :: after)
  newline_not_mem_earlier : ∀ body ∈ earlier, '\n' ∉ body
  newline_not_mem_inLine : '\n' ∉ inLine

namespace Spot

variable {text : List Char}

def offset (spot : Spot text) : Nat :=
  byteLength (closedLines spot.earlier) + byteLength spot.inLine

def number (spot : Spot text) : Nat :=
  spot.earlier.length + 1

end Spot

theorem exists_closedLines (text : List Char) : ∃ bodies last,
    text = closedLines bodies ++ last ∧ (∀ body ∈ bodies, '\n' ∉ body) ∧ '\n' ∉ last := by
  induction text with
  | nil => exact ⟨[], [], rfl, by simp, by simp⟩
  | cons c text ih =>
    obtain ⟨bodies, last, rfl, hb, hl⟩ := ih
    by_cases hc : c = '\n'
    · subst hc
      exact ⟨[] :: bodies, last, rfl, List.forall_mem_cons.mpr ⟨by simp, hb⟩, hl⟩
    · cases bodies with
      | nil => exact ⟨[], c :: last, rfl, hb, by simp [Ne.symm hc, hl]⟩
      | cons body bodies =>
        obtain ⟨hfirst, hb⟩ := List.forall_mem_cons.mp hb
        exact ⟨(c :: body) :: bodies, last, rfl,
          List.forall_mem_cons.mpr ⟨by simp [Ne.symm hc, hfirst], hb⟩, hl⟩

theorem exists_spot {text before after : List Char} {c : Char} (h : text = before ++ c :: after) :
    ∃ spot : Spot text, spot.char = c ∧ spot.offset = byteLength before := by
  obtain ⟨bodies, last, rfl, hb, hl⟩ := exists_closedLines before
  rw [List.append_assoc] at h
  exact ⟨⟨bodies, last, c, after, h, hb, hl⟩, rfl, (byteLength_append ..).symm⟩

section Lines

variable {front rest line : List Char} {more : List (List Char)}

theorem lines_newline (rest : List Char) : lines ('\n' :: rest) = ['\n'] :: lines rest := by
  rw [lines, if_pos rfl]

theorem lines_append (h : '\n' ∉ front) (hl : lines rest = line :: more) :
    lines (front ++ rest) = (front ++ line) :: more := by
  induction front with
  | nil => exact hl
  | cons c front ih =>
    obtain ⟨hc, hfront⟩ := List.ne_and_not_mem_of_not_mem_cons h
    rw [List.cons_append, lines, if_neg (Ne.symm hc), ih hfront]
    rfl

theorem exists_lines_cons (c : Char) (cs : List Char) :
    ∃ line more, lines (c :: cs) = (c :: line) :: more := by
  rw [lines]
  split
  · exact ⟨[], lines cs, rfl⟩
  · cases lines cs with
    | nil => exact ⟨[], [], rfl⟩
    | cons line more => exact ⟨line, more, rfl⟩

theorem line_cases (h : line ∈ lines rest) :
    ∃ body, '\n' ∉ body ∧ (line = body ∨ line = body ++ ['\n']) := by
  induction rest generalizing line with
  | nil => cases h
  | cons c cs ih =>
    by_cases hc : c = '\n'
    · rw [hc, lines_newline, List.mem_cons] at h
      rcases h with rfl | h
      · exact ⟨[], by simp, .inr rfl⟩
      · exact ih h
    · rw [lines, if_neg hc] at h
      cases hl : lines cs with
      | nil =>
        rw [hl, List.mem_singleton] at h
        exact ⟨[c], by simp [Ne.symm hc], .inl h⟩
      | cons first others =>
        rw [hl, List.mem_cons] at h
        rcases h with rfl | h
        · obtain ⟨body, hb, hcase⟩ := ih (hl ▸ List.mem_cons_self)
          refine ⟨c :: body, by simp [Ne.symm hc, hb], ?_⟩
          rcases hcase with rfl | rfl
          · exact .inl rfl
          · exact .inr rfl
        · exact ih (hl ▸ List.mem_cons_of_mem _ h)

theorem locate_closedLines {bodies : List (List Char)} (hb : ∀ body ∈ bodies, '\n' ∉ body)
    (hr : rest ≠ []) (number position : Nat) :
    locate number (lines (closedLines bodies ++ rest))
        (byteLength (closedLines bodies) + position) =
      locate (number + bodies.length) (lines rest) position := by
  induction bodies generalizing number with
  | nil => rw [closedLines, List.flatMap_nil, List.nil_append, byteLength_nil, Nat.zero_add]; rfl
  | cons body bodies ih =>
    obtain ⟨hbody, hb⟩ := List.forall_mem_cons.mp hb
    have hbytes : byteLength (closedLines (body :: bodies)) =
        byteLength (body ++ ['\n']) + byteLength (closedLines bodies) := by
      rw [closedLines, List.flatMap_cons, byteLength_append, closedLines]
    -- the line is not the last one
    obtain ⟨c, cs, hcs⟩ := List.exists_cons_of_ne_nil
      (show closedLines bodies ++ rest ≠ [] by simp [hr])
    obtain ⟨line, more, hmore⟩ := exists_lines_cons c cs
    have hnext : (lines (closedLines bodies ++ rest)).isEmpty = false := by rw [hcs, hmore]; rfl
    rw [closedLines_cons_append, lines_append hbody (lines_newline _), locate,
      if_neg (by omega), hnext, Bool.false_and, if_neg (by decide), hbytes, Nat.add_assoc,
      Nat.add_sub_cancel_left, ih hb, List.length_cons, Nat.add_right_comm, Nat.add_assoc]

theorem lineAt?_spot {source : String} (spot : Spot source.toList) :
    ∃ line more, lines (spot.char :: spot.after) = (spot.char :: line) :: more ∧
      lineAt? source spot.offset = some ⟨spot.number,
        String.ofList (spot.inLine ++ spot.char :: line), byteLength spot.inLine⟩ := by
  obtain ⟨line, more, hl⟩ := exists_lines_cons spot.char spot.after
  have hlines := lines_append spot.newline_not_mem_inLine hl
  refine ⟨line, more, hl, ?_⟩
  have hpos := spot.char.utf8Size_pos
  have hsource := congrArg lines spot.text_eq
  rw [lineAt?, hsource, Spot.offset,
    locate_closedLines spot.newline_not_mem_earlier (by simp), hlines, locate, if_pos, Spot.number,
    Nat.add_comm]
  rw [byteLength_append, byteLength_cons]
  omega

end Lines

section Places

variable {line body : List Char} {bodies : List (List Char)}

theorem count_closedLines (hb : ∀ body ∈ bodies, '\n' ∉ body) :
    (closedLines bodies).count '\n' = bodies.length := by
  induction bodies with
  | nil => rfl
  | cons body bodies ih =>
    obtain ⟨hbody, hb⟩ := List.forall_mem_cons.mp hb
    have hcons := closedLines_cons_append body bodies []
    rw [List.append_nil, List.append_nil] at hcons
    rw [hcons, List.count_append, List.count_eq_zero.mpr hbody, List.count_cons_self, ih hb,
      Nat.zero_add, List.length_cons]

theorem lines_closedLines (hb : ∀ body ∈ bodies, '\n' ∉ body) (rest : List Char) :
    lines (closedLines bodies ++ rest) = bodies.map (· ++ ['\n']) ++ lines rest := by
  induction bodies with
  | nil => rfl
  | cons body bodies ih =>
    obtain ⟨hbody, hb⟩ := List.forall_mem_cons.mp hb
    rw [closedLines_cons_append, lines_append hbody (lines_newline _), ih hb]
    rfl

theorem lines_single (hb : '\n' ∉ body) (hcase : line = body ∨ line = body ++ ['\n'])
    (hl : line ≠ []) : lines line = [line] := by
  rcases hcase with rfl | rfl
  · obtain ⟨front, c, rfl⟩ := List.eq_nil_or_concat line |>.resolve_left hl
    rw [List.concat_eq_append, List.mem_append, not_or, List.mem_singleton] at hb
    have hlast : lines [c] = [[c]] := by rw [lines, if_neg (Ne.symm hb.2), lines]
    rw [List.concat_eq_append, lines_append hb.1 hlast]
  · exact lines_append hb (lines_newline [])

theorem exists_lastLine {text : List Char} (h : text ≠ []) :
    ∃ bodies body line, text = closedLines bodies ++ line ∧ (∀ body ∈ bodies, '\n' ∉ body) ∧
      '\n' ∉ body ∧ (line = body ∨ line = body ++ ['\n']) ∧ line ≠ [] := by
  obtain ⟨bodies, last, rfl, hb, hl⟩ := exists_closedLines text
  by_cases hlast : last = []
  · subst hlast
    have hbodies : bodies ≠ [] := by
      rintro rfl
      exact h rfl
    obtain ⟨front, body, rfl⟩ := List.eq_nil_or_concat bodies |>.resolve_left hbodies
    rw [List.concat_eq_append, List.forall_mem_append, List.forall_mem_singleton] at hb
    exact ⟨front, body, body ++ ['\n'], by simp [closedLines], hb.1, hb.2, .inr rfl, by simp⟩
  · exact ⟨bodies, last, last, rfl, hb, hl, .inl rfl, hlast⟩

/-- Each place of a source that is not empty is in a line of it, the place behind the source in the
last one. -/
theorem exists_lineAt? {source : String} {before after : List Char}
    (h : source.toList = before ++ after) (hs : source.toList ≠ []) :
    ∃ line, lineAt? source (byteLength before) = some line ∧
      (lines source.toList)[line.number - 1]? = some line.text.toList ∧
      line.number = if after = [] then (lines source.toList).length
        else before.count '\n' + 1 := by
  cases after with
  | nil =>
    rw [List.append_nil] at h
    obtain ⟨bodies, body, line, htext, hb, hbody, hcase, hline⟩ := exists_lastLine hs
    have hlines := lines_closedLines hb line
    rw [lines_single hbody hcase hline, ← htext] at hlines
    refine ⟨⟨bodies.length + 1, String.ofList line, byteLength (line.filter (· ≠ '\n'))⟩,
      ?_, ?_, ?_⟩
    · rw [← h, lineAt?, htext, byteLength_append, locate_closedLines hb hline,
        lines_single hbody hcase hline, locate, if_neg (Nat.lt_irrefl _), if_pos (by simp),
        Nat.add_comm]
    · simp [hlines]
    · simp [hlines]
  | cons c after =>
    obtain ⟨bodies, last, rfl, hb, hl⟩ := exists_closedLines before
    rw [List.append_assoc] at h
    obtain ⟨line, more, hmore, hat⟩ := lineAt?_spot ⟨bodies, last, c, after, h, hb, hl⟩
    have hlines := lines_closedLines hb (last ++ c :: after)
    rw [lines_append hl hmore, ← h] at hlines
    refine ⟨_, by rwa [byteLength_append], ?_, ?_⟩
    · simp [hlines, Spot.number]
    · rw [if_neg (List.cons_ne_nil c after), List.count_append, count_closedLines hb,
        List.count_eq_zero.mpr hl]
      rfl

theorem length_lines {text : List Char} (h : text.getLast? ≠ some '\n') (hs : text ≠ []) :
    (lines text).length = text.count '\n' + 1 := by
  obtain ⟨bodies, body, line, rfl, hb, hbody, hcase, hline⟩ := exists_lastLine hs
  rcases hcase with rfl | rfl
  · rw [lines_closedLines hb, lines_single hbody (.inl rfl) hline, List.count_append,
      count_closedLines hb, List.count_eq_zero.mpr hbody]
    simp
  · exact absurd (by simp) h

end Places

end TypedStyle.Text
