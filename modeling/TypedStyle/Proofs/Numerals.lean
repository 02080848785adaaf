import TypedStyle.Proofs.Meaning
import TypedStyle.Reader.Expression

set_option autoImplicit false

namespace TypedStyle

namespace Text

inductive Digits : List Char → Nat → Prop
  | intro {digits : List Char} : digits ≠ [] → (∀ c ∈ digits, c.isDigit) →
      Digits digits (Nat.ofDigitChars 10 digits 0)

inductive Numeral : List Char → Int → Prop
  | bare {digits : List Char} {n : Nat} : Digits digits n → Numeral digits n
  | plus {digits : List Char} {n : Nat} : Digits digits n → Numeral ('+' :: digits) n
  | minus {digits : List Char} {n : Nat} : Digits digits n → Numeral ('-' :: digits) (-n)

/-- What is left of a text when one ending is cut off, if it has that ending. -/
inductive Stem (ending : List Char) : List Char → List Char → Prop
  | cut (stem : List Char) : Stem ending (stem ++ ending) stem
  | whole {text : List Char} : ¬ending <:+ text → Stem ending text text

theorem natural?_eq_some_iff {text : List Char} {n : Nat} :
    natural? text = some n ↔ Digits text n := by
  constructor
  · intro h
    rw [natural?] at h
    split at h
    · next hd =>
      rw [Bool.and_eq_true, List.all_eq_true] at hd
      cases h
      exact .intro (by simpa using hd.1) hd.2
    · cases h
  · intro h
    obtain ⟨hn, hd⟩ := h
    have hall : text.all Char.isDigit = true := List.all_eq_true.mpr hd
    rw [natural?, hall]
    simp [hn]

theorem Digits.head_isDigit {c : Char} {text : List Char} {n : Nat} (h : Digits (c :: text) n) :
    c.isDigit = true := by
  cases h with
  | intro _ hd => exact hd c (by simp)

theorem signed?_of_numeral {text : List Char} {value : Int} (h : Numeral text value) :
    signed? text = some value := by
  cases h with
  | plus hd => simp [signed?, unsigned?, natural?_eq_some_iff.mpr hd]
  | minus hd => simp [signed?, natural?_eq_some_iff.mpr hd]
  | bare hd =>
    have hplus : ∀ digits, text ≠ '+' :: digits := by
      intro digits he
      subst he
      exact absurd hd.head_isDigit (by decide)
    have hminus : ∀ digits, text ≠ '-' :: digits := by
      intro digits he
      subst he
      exact absurd hd.head_isDigit (by decide)
    rw [signed?, unsigned?, natural?_eq_some_iff.mpr hd]
    · rfl
    · exact hplus
    · exact hminus

theorem numeral_of_signed? {text : List Char} {value : Int} (h : signed? text = some value) :
    Numeral text value := by
  unfold signed? at h
  split at h
  · next digits =>
    have hd : ∃ n, natural? digits = some n ∧ -(n : Int) = value := by
      simpa [Option.bind_eq_some_iff] using h
    obtain ⟨n, hn, rfl⟩ := hd
    exact .minus (natural?_eq_some_iff.mp hn)
  · have hd : ∃ n, unsigned? text = some n ∧ (n : Int) = value := by
      simpa [Option.bind_eq_some_iff] using h
    obtain ⟨n, hn, rfl⟩ := hd
    unfold unsigned? at hn
    split at hn
    · exact .plus (natural?_eq_some_iff.mp hn)
    · exact .bare (natural?_eq_some_iff.mp hn)

theorem signed?_eq_some_iff {text : List Char} {value : Int} :
    signed? text = some value ↔ Numeral text value :=
  ⟨numeral_of_signed?, signed?_of_numeral⟩

theorem stem_dropEnding (ending text : List Char) : Stem ending text (dropEnding ending text) := by
  rw [dropEnding]
  split
  · next h =>
    obtain ⟨stem, rfl⟩ := List.isSuffixOf_iff_suffix.mp h
    have hs : (stem ++ ending).take ((stem ++ ending).length - ending.length) = stem := by simp
    rw [hs]
    exact .cut stem
  · next h => exact .whole (fun hs => h (List.isSuffixOf_iff_suffix.mpr hs))

theorem Stem.eq_dropEnding {ending text stem : List Char} (h : Stem ending text stem) :
    stem = dropEnding ending text := by
  cases h with
  | cut =>
    have hs : ending.isSuffixOf (stem ++ ending) = true :=
      List.isSuffixOf_iff_suffix.mpr (List.suffix_append stem ending)
    simp [dropEnding, hs]
  | whole h =>
    have hs : ¬(ending.isSuffixOf text = true) := fun he => h (List.isSuffixOf_iff_suffix.mp he)
    rw [dropEnding, if_neg hs]

end Text

/-- A text spells a number of this measure: without its ending it is a numeral of a signed word. -/
def Measure.Spells (measure : Measure) (text : String) (value : Int64) : Prop :=
  ∃ stem, Text.Stem measure.ending.toList text.toList stem ∧ Text.Numeral stem value.toInt

theorem Reader.number?_eq_some_iff {measure : Measure} {text : String} {value : Int64} :
    number? measure text = some value ↔ measure.Spells text value := by
  simp only [number?, Option.bind_eq_bind, Option.bind_eq_some_iff, int64?_eq_some_iff,
    Text.signed?_eq_some_iff]
  constructor
  · intro h
    obtain ⟨n, hn, rfl⟩ := h
    exact ⟨_, Text.stem_dropEnding _ _, hn⟩
  · intro h
    obtain ⟨stem, hs, hn⟩ := h
    rw [hs.eq_dropEnding] at hn
    exact ⟨_, hn, rfl⟩

end TypedStyle
