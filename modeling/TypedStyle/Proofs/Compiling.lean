import TypedStyle.Proofs.Diagnostics
import TypedStyle.Proofs.Spelling
import TypedStyle.Proofs.Typed

set_option autoImplicit false

namespace TypedStyle

variable {source css file : String} {sheet : Sheet} {options : CompileOptions}

theorem clean_of_readSheet (h : readSheet source file = .ok sheet) : Clean sheet.slots := by
  obtain ⟨words, -, hs⟩ := readSheet_eq_ok_iff.mp h
  exact Phrase.Sheet.clean hs

theorem checkSource_eq_ok_iff : checkSource source options = .ok sheet ↔
    readSheet source options.file = .ok sheet ∧ Clean sheet.check.slots := by
  rw [checkSource]
  cases hr : readSheet source options.file with
  | error failure => simp
  | ok tree =>
    have hd := tree.check.diagnostics_eq_nil_iff
    constructor
    · intro h
      cases hg : tree.check.diagnostics with
      | nil =>
        have hclean := hd.mp hg
        have he := (Sheet.typed_of_clean (clean_of_readSheet hr) hclean).1
        simp only [hg, Except.ok.injEq] at h
        rw [he] at h
        subst h
        exact ⟨rfl, hclean⟩
      | cons diagnostic diagnostics => simp [hg] at h
    · rintro ⟨h, hclean⟩
      cases h
      have he := (Sheet.typed_of_clean (clean_of_readSheet hr) hclean).1
      have hempty := hd.mpr hclean
      rw [he] at hempty
      simp only [he, hempty]

theorem compileSource_eq_ok_iff : compileSource source options = .ok css ↔
    ∃ sheet, checkSource source options = .ok sheet ∧ sheet.flatten.failure = none ∧
      sheet.flatten.sheet.css options.indent = css := by
  rw [compileSource]
  cases hc : checkSource source options with
  | error failure => simp [bind, Except.bind]
  | ok sheet =>
    simp only [bind, Except.bind, Except.ok.injEq, exists_eq_left']
    obtain ⟨flat, failure⟩ := sheet.flatten
    cases failure <;> simp [pure, Except.pure, throw, throwThe, MonadExceptOf.throw]

end TypedStyle
