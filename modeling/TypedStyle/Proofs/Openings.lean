import TypedStyle.Token.Pattern
import Mathlib.Data.List.Basic

set_option autoImplicit false

namespace TypedStyle.Token

section Letters

variable {c : Char}

theorem isLower_iff_toNat : c.isLower ↔ 'a'.toNat ≤ c.toNat ∧ c.toNat ≤ 'z'.toNat := by
  change (decide ('a'.val ≤ c.val) && decide (c.val ≤ 'z'.val)) = true ↔ _
  simp only [Bool.and_eq_true, decide_eq_true_eq, UInt32.le_iff_toNat_le, Char.toNat_val]

theorem isUpper_iff_toNat : c.isUpper ↔ 'A'.toNat ≤ c.toNat ∧ c.toNat ≤ 'Z'.toNat := by
  change decide ('A'.val ≤ c.val ∧ c.val ≤ 'Z'.val) = true ↔ _
  simp only [decide_eq_true_eq, UInt32.le_iff_toNat_le, Char.toNat_val]

theorem isAlphanum_iff : c.isAlphanum ↔ c.isUpper ∨ c.isLower ∨ c.isDigit := by
  change ((c.isUpper || c.isLower) || c.isDigit) = true ↔ _
  simp only [Bool.or_eq_true, or_assoc]

theorem lt_of_isAlphanum (h : c.isAlphanum) : c.toNat < 128 := by
  rcases isAlphanum_iff.mp h with hu | hl | hd
  · exact Nat.lt_of_le_of_lt (isUpper_iff_toNat.mp hu).2 (by decide)
  · exact Nat.lt_of_le_of_lt (isLower_iff_toNat.mp hl).2 (by decide)
  · exact Nat.lt_of_le_of_lt (Char.isDigit_iff_toNat.mp hd).2 (by decide)

end Letters

namespace Pattern

/-- What the pattern finds may start with this character. -/
def opens : Pattern → Char → Bool
  | .blanks, c => Text.isBlank c
  | .blockComment, c | .lineComment, c => c == '/'
  | .pixelSize, c | .percentage, c | .scalar, c => c.isDigit
  | .color, c | .idName, c => c == '#'
  | .className, c => c == '.'
  | .capitalName, c => c.isUpper
  | .lowerName, c => c.isLower
  | .mark head _ _, c => c == head

def candidates (c : Char) : List Pattern :=
  table.filter (·.opens c)

section Head

variable {c : Char} {cs lexeme : List Char}

theorem run?_head {p : Char → Bool} (h : run? p (c :: cs) = some lexeme) : p c = true := by
  obtain ⟨hrun, hne⟩ := run?_eq_some_iff.mp h
  cases hc : p c with
  | true => rfl
  | false => exact absurd (hrun ▸ by simp [hc]) hne

theorem run?_eq_none {p : Char → Bool} (hc : p c = false) : run? p (c :: cs) = none := by
  simp [run?, hc]

theorem exactly?_head {head : Char} {tail : List Char}
    (h : exactly? (head :: tail) (c :: cs) = some lexeme) : c = head := by
  simp only [exactly?, Option.ite_none_right_eq_some, List.isPrefixOf, Bool.and_eq_true,
    beq_iff_eq] at h
  exact h.1.1.symm

theorem followedBy_head {first second : List Char → Option (List Char)}
    (h : followedBy first second cs = some lexeme) : ∃ head, first cs = some head := by
  obtain ⟨head, _, hf, _⟩ := followedBy_eq_some_iff.mp h
  exact ⟨head, hf⟩

theorem opens_of_lexeme? {pattern : Pattern} (h : pattern.lexeme? (c :: cs) = some lexeme) :
    pattern.opens c = true := by
  have hexactly : ∀ {head tail second},
      followedBy (exactly? (head :: tail)) second (c :: cs) = some lexeme → (c == head) = true := by
    intro head tail second h
    obtain ⟨_, hf⟩ := followedBy_head h
    exact beq_iff_eq.mpr (exactly?_head hf)
  have hdigits : ∀ {second},
      followedBy (run? Char.isDigit) second (c :: cs) = some lexeme → c.isDigit = true := by
    intro second h
    obtain ⟨_, hf⟩ := followedBy_head h
    exact run?_head hf
  cases pattern with
  | blanks => exact run?_head (p := Text.isBlank) h
  | blockComment | lineComment | color | idName | className => exact hexactly h
  | pixelSize | percentage => exact hdigits h
  | scalar => exact run?_head (p := Char.isDigit) h
  | capitalName | lowerName =>
    simp only [lexeme?, Option.ite_none_right_eq_some] at h
    exact h.1
  | mark head tail kind => exact beq_iff_eq.mpr (exactly?_head h)

theorem first?_cons (c : Char) (cs : List Char) : first? (c :: cs) =
    (candidates c).findSome? fun pattern => (pattern.lexeme? (c :: cs)).map (pattern, ·) := by
  rw [candidates, ← List.head?_filterMap, List.filterMap_filter, first?, ← List.head?_filterMap]
  refine congrArg List.head? (List.filterMap_congr fun pattern _ => ?_)
  cases ho : pattern.opens c with
  | true => rfl
  | false =>
    cases hl : pattern.lexeme? (c :: cs) with
    | none => rfl
    | some lexeme => rw [opens_of_lexeme? hl] at ho; cases ho

end Head

theorem run?_append {p : Char → Bool} {run rest : List Char} (hne : run ≠ [])
    (hp : ∀ c ∈ run, p c = true) (hr : ∀ c ∈ rest.head?, p c = false) :
    run? p (run ++ rest) = some run := by
  have hrest : rest.takeWhile p = [] := by
    cases rest with
    | nil => rfl
    | cons c rest => simp [hr c rfl]
  rw [run?_eq_some_iff, List.takeWhile_append_of_pos hp, hrest, List.append_nil]
  exact ⟨rfl, hne⟩

theorem head_of_takeWhile {p : Char → Bool} {run rest : List Char}
    (h : (run ++ rest).takeWhile p = run) : ∀ c ∈ rest.head?, p c = false := by
  have hrun : ∀ c ∈ run, p c = true := by
    rw [← h]
    exact List.all_eq_true.mp List.all_takeWhile
  rw [List.takeWhile_append_of_pos hrun, List.append_right_eq_self] at h
  intro c hc
  obtain ⟨more, rfl⟩ := List.head?_eq_some_iff.mp hc
  rw [List.takeWhile_cons] at h
  simpa using h

theorem exactly?_append (text rest : List Char) : exactly? text (text ++ rest) = some text := by
  simp [exactly?]

theorem followedBy_append {first : List Char → Option (List Char)} {head rest : List Char}
    (h : first (head ++ rest) = some head) (second : List Char → Option (List Char)) :
    followedBy first second (head ++ rest) = (second rest).map (head ++ ·) := by
  simp only [followedBy, h, Option.bind_eq_bind, Option.bind_some, List.drop_left]
  cases second rest <;> rfl

theorem candidates_ofNat : ∀ n < 128,
    ((Char.ofNat n).isLower → candidates (Char.ofNat n) = [.lowerName]) ∧
    ((Char.ofNat n).isUpper → candidates (Char.ofNat n) = [.capitalName]) ∧
    ((Char.ofNat n).isDigit →
      candidates (Char.ofNat n) = [.pixelSize, .percentage, .scalar]) := by
  decide

section Candidates

variable {c : Char}

theorem candidates_of_lt (h : c.toNat < 128) :
    (c.isLower → candidates c = [.lowerName]) ∧ (c.isUpper → candidates c = [.capitalName]) ∧
    (c.isDigit → candidates c = [.pixelSize, .percentage, .scalar]) := by
  have hc := candidates_ofNat c.toNat h
  rwa [Char.ofNat_toNat] at hc

theorem candidates_of_isLower (h : c.isLower) : candidates c = [.lowerName] :=
  (candidates_of_lt (lt_of_isAlphanum (isAlphanum_iff.mpr (.inr (.inl h))))).1 h

theorem candidates_of_isUpper (h : c.isUpper) : candidates c = [.capitalName] :=
  (candidates_of_lt (lt_of_isAlphanum (isAlphanum_iff.mpr (.inl h)))).2.1 h

theorem candidates_of_isDigit (h : c.isDigit) :
    candidates c = [.pixelSize, .percentage, .scalar] :=
  (candidates_of_lt (lt_of_isAlphanum (isAlphanum_iff.mpr (.inr (.inr h))))).2.2 h

end Candidates

end Pattern

end TypedStyle.Token
