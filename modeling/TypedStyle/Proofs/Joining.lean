import TypedStyle.Proofs.Compiling
import TypedStyle.Proofs.Seams
import TypedStyle.Proofs.Widening

set_option autoImplicit false

namespace TypedStyle

theorem checkMembers_append (scope : Scope ValueType) (members others : List Member) :
    checkMembers scope (members ++ others) =
      ((checkMembers scope members).1 ++ (checkMembers (checkMembers scope members).2 others).1,
        (checkMembers (checkMembers scope members).2 others).2) := by
  induction members generalizing scope with
  | nil => rfl
  | cons member members ih => simp only [List.cons_append, checkMembers, ih]

theorem flattenMembers_append {scope : Scope Literal} {members : List Member}
    (h : (flattenMembers scope members).1.failure = none) (others : List Member) :
    flattenMembers scope (members ++ others) =
      ((flattenMembers (flattenMembers scope members).2 others).1.keep
          (flattenMembers scope members).1.sheet.members,
        (flattenMembers (flattenMembers scope members).2 others).2) := by
  induction members generalizing scope with
  | nil => rfl
  | cons member members ih =>
    obtain ⟨kept, after, hm, hrest⟩ := exists_of_flattenMembers_cons h
    rw [List.cons_append, flattenMembers_of_ok hm, flattenMembers_of_ok hm, ih hrest]
    simp only [Flattening.keep, List.append_assoc]

theorem flattenMembers_append_of_some {scope : Scope Literal} {members : List Member}
    {failure : Failure} (h : (flattenMembers scope members).1.failure = some failure)
    (others : List Member) : (flattenMembers scope (members ++ others)).1 =
      ⟨⟨(flattenMembers scope members).1.sheet.members ++ others⟩, some failure⟩ := by
  induction members generalizing scope with
  | nil => cases h
  | cons member members ih =>
    cases hm : member.flatten scope with
    | error found after =>
      rw [flattenMembers, hm] at h
      cases h
      simp only [List.cons_append, flattenMembers, hm]
    | ok kept after =>
      rw [flattenMembers_of_ok hm] at h
      rw [List.cons_append, flattenMembers_of_ok hm, flattenMembers_of_ok hm, ih h]
      simp only [Flattening.keep, List.append_assoc]

theorem flattenMembers_of_append {scope : Scope Literal} {members others : List Member}
    (h : (flattenMembers scope (members ++ others)).1.failure = none) :
    (flattenMembers scope members).1.failure = none := by
  cases hm : (flattenMembers scope members).1.failure with
  | none => rfl
  | some failure =>
    rw [flattenMembers_append_of_some hm] at h
    cases h

namespace Sheet

instance : Append Sheet :=
  ⟨fun first second => ⟨first.members ++ second.members⟩⟩

variable {first second : Sheet}

theorem members_append (first second : Sheet) :
    (first ++ second).members = first.members ++ second.members := rfl

theorem slots_append (first second : Sheet) :
    (first ++ second).slots = first.slots ++ second.slots :=
  List.flatMap_append

/-- The second sheet does not need what the first one binds, and loses nothing by it. -/
theorem check_append (h : Clean second.check.slots) :
    (first ++ second).check = first.check ++ second.check := by
  have hdepth := depth_checkMembers (Scope.empty : Scope ValueType).push first.members
  obtain ⟨below, hbelow⟩ := Scope.eq_widen_of_depth hdepth
  have hsecond := checkMembers_widen below (Scope.depth_push_pos _) h
  rw [← hbelow] at hsecond
  simp only [check, checkIn, members_append, checkMembers_append, hsecond]
  rfl

theorem flatten_append (hf : first.flatten.failure = none) (hs : second.flatten.failure = none) :
    (first ++ second).flatten = ⟨first.flatten.sheet ++ second.flatten.sheet, none⟩ := by
  have hdepth := (flattenMembers_widen [] (Scope.depth_push_pos _) hf).2
  obtain ⟨below, hbelow⟩ := Scope.eq_widen_of_depth hdepth
  have hsecond := (flattenMembers_widen below (Scope.depth_push_pos _) hs).1
  rw [← hbelow] at hsecond
  simp only [flatten, flattenIn, members_append, flattenMembers_append hf, hsecond]
  exact congrArg (Flattening.mk _) hs

end Sheet

theorem intercalate_append {separator : String} {texts others : List String} (h : texts ≠ [])
    (ho : others ≠ []) : separator.intercalate (texts ++ others) =
      separator.intercalate texts ++ separator ++ separator.intercalate others := by
  obtain ⟨other, others, rfl⟩ := List.exists_cons_of_ne_nil ho
  rw [← String.toList_inj]
  simp only [String.toList_append, String.toList_intercalate, List.map_append, List.map_cons]
  induction texts with
  | nil => exact absurd rfl h
  | cons text texts ih =>
    cases texts with
    | nil => simp [List.intercalate_cons_cons]
    | cons next texts =>
      have ih := ih (List.cons_ne_nil _ _)
      simp only [List.map_cons, List.cons_append, List.intercalate_cons_cons,
        List.append_assoc] at ih ⊢
      rw [ih]

theorem intercalate_ne_empty {separator text : String} (h : text ≠ "") (texts : List String) :
    separator.intercalate (text :: texts) ≠ "" := by
  rw [← String.toList_inj.ne] at h ⊢
  rw [String.toList_intercalate, List.map_cons]
  cases texts with
  | nil => simpa using h
  | cons next texts =>
    rw [List.map_cons, List.intercalate_cons_cons, List.append_assoc]
    exact List.append_ne_nil_of_left_ne_nil h _

theorem Rule.css_ne_empty (indent : Nat) (rule : Rule) : rule.css indent ≠ "" := by
  intro h
  have hl := congrArg String.toList h
  simp [css] at hl

namespace Sheet

def texts (indent : Nat) (sheet : Sheet) : List String :=
  (sheet.members.filterMap Member.rule?).map (Rule.css indent)

theorem css_eq (indent : Nat) (sheet : Sheet) :
    sheet.css indent = "\n".intercalate (sheet.texts indent) := rfl

theorem texts_append (indent : Nat) (first second : Sheet) :
    (first ++ second).texts indent = first.texts indent ++ second.texts indent := by
  rw [texts, members_append, List.filterMap_append, List.map_append]
  rfl

theorem css_eq_empty_iff (indent : Nat) (sheet : Sheet) :
    sheet.css indent = "" ↔ sheet.texts indent = [] := by
  constructor
  · intro h
    rw [css] at h
    cases hrules : sheet.members.filterMap Member.rule? with
    | nil => rw [texts, hrules, List.map_nil]
    | cons rule rules =>
      rw [hrules, List.map_cons] at h
      exact absurd h (intercalate_ne_empty (rule.css_ne_empty indent) _)
  · intro h
    rw [css_eq, h]
    rfl

theorem css_append (indent : Nat) (first second : Sheet) : (first ++ second).css indent =
    if first.css indent = "" then second.css indent
    else if second.css indent = "" then first.css indent
    else first.css indent ++ "\n" ++ second.css indent := by
  simp only [css_eq_empty_iff]
  rw [css_eq, texts_append]
  split
  · next hf => rw [hf, List.nil_append, css_eq]
  · next hf =>
    split
    · next hs => rw [hs, List.append_nil, css_eq]
    · next hs => rw [intercalate_append hf hs, css_eq, css_eq]

end Sheet

theorem Phrase.Many.append {α : Type} {phrase : List Token → α → Prop} {ts us : List Token}
    {xs ys : List α} (h : Many phrase ts xs) (hu : Many phrase us ys) :
    Many phrase (ts ++ us) (xs ++ ys) := by
  induction h with
  | nil => exact hu
  | cons hx _ ih =>
    rw [List.append_assoc]
    exact .cons hx ih

theorem Spells.append {words others : List Token.Word} {first second : Sheet}
    (hf : Spells words first) (hs : Spells others second) :
    Spells (words ++ others) (first ++ second) := by
  rw [Spells, List.map_append]
  exact Phrase.Many.append hf hs

theorem compileSource_newline {first second x y : String} {options : CompileOptions}
    (hx : compileSource first options = .ok x) (hy : compileSource second options = .ok y) :
    compileSource (first ++ "\n" ++ second) options =
      .ok (if x = "" then y else if y = "" then x else x ++ "\n" ++ y) := by
  obtain ⟨a, ha, hfa, rfl⟩ := compileSource_eq_ok_iff.mp hx
  obtain ⟨b, hb, hfb, rfl⟩ := compileSource_eq_ok_iff.mp hy
  obtain ⟨hra, hka⟩ := checkSource_eq_ok_iff.mp ha
  obtain ⟨hrb, hkb⟩ := checkSource_eq_ok_iff.mp hb
  obtain ⟨words, hla, hsa⟩ := readSheet_eq_ok_iff.mp hra
  obtain ⟨others, hlb, hsb⟩ := readSheet_eq_ok_iff.mp hrb
  have hread : readSheet (first ++ "\n" ++ second) options.file = .ok (a ++ b) := by
    refine readSheet_eq_ok_iff.mpr ⟨words ++ others, ?_, hsa.append hsb⟩
    rw [String.toList_append, String.toList_append, List.append_assoc]
    exact hla.newline hlb
  have hclean : Clean (a ++ b).check.slots := by
    rw [Sheet.check_append hkb, Sheet.slots_append]
    exact Clean.append_iff.mpr ⟨hka, hkb⟩
  have hflat := Sheet.flatten_append hfa hfb
  refine compileSource_eq_ok_iff.mpr ⟨a ++ b, checkSource_eq_ok_iff.mpr ⟨hread, hclean⟩, ?_, ?_⟩
  · rw [hflat]
  · rw [hflat, Sheet.css_append]

/-- A comment at the end of the first source, and a variable that changes its type. -/
theorem compileSource_newline_comment :
    compileSource "W := 2px; a \x7b width: W; \x7d //" {} =
      .ok "a \x7b\n  width: 2px;\n\x7d\n" ∧
    compileSource "W := #c0ffee; a \x7b color: W; \x7d" {} =
      .ok "a \x7b\n  color: #c0ffee;\n\x7d\n" ∧
    compileSource ("W := 2px; a \x7b width: W; \x7d //" ++ "\n" ++
        "W := #c0ffee; a \x7b color: W; \x7d") {} =
      .ok ("a \x7b\n  width: 2px;\n\x7d\n" ++ "\n" ++ "a \x7b\n  color: #c0ffee;\n\x7d\n") := by
  have hx : compileSource "W := 2px; a \x7b width: W; \x7d //" {} =
      .ok "a \x7b\n  width: 2px;\n\x7d\n" := by decide +kernel
  have hy : compileSource "W := #c0ffee; a \x7b color: W; \x7d" {} =
      .ok "a \x7b\n  color: #c0ffee;\n\x7d\n" := by decide +kernel
  refine ⟨hx, hy, (compileSource_newline hx hy).trans ?_⟩
  rw [if_neg (by decide), if_neg (by decide)]

end TypedStyle
