import TypedStyle.Proofs.Compiling
import TypedStyle.Proofs.Folding
import TypedStyle.Proofs.Origins

set_option autoImplicit false

namespace TypedStyle

def Item.Settled (item : Item) : Prop :=
  ∃ property value, item = .declaration ⟨property, .literal value, none⟩ ∧
    Fits property value.type

/-- A flat sheet without faults in which the values fit their properties. -/
def Sheet.Settled (sheet : Sheet) : Prop :=
  ∀ member ∈ sheet.members, ∃ rule : Rule, member = .rule rule ∧ ∀ item ∈ rule.body, item.Settled

theorem Declaration.fault?_of_fits {property : String} {type : ValueType}
    (h : Fits property type) : fault? property type = none := by
  rcases h with ⟨rfl | rfl, rfl⟩ | ⟨rfl | rfl, rfl | rfl⟩ <;> decide

theorem checkItems_of_settled {items : List Item} (h : ∀ item ∈ items, item.Settled)
    (scope : Scope ValueType) :
    checkItems scope items = (items, scope) ∧ Clean (itemSlots items) := by
  induction items with
  | nil => exact ⟨rfl, .nil⟩
  | cons item items ih =>
    obtain ⟨⟨property, value, rfl, hf⟩, hitems⟩ := List.forall_mem_cons.mp h
    obtain ⟨hrest, hclean⟩ := ih hitems
    constructor
    · simp only [checkItems, Item.check, Declaration.check, Expr.check,
        Declaration.fault?_of_fits hf, hrest, Option.or_none]
    · simp [itemSlots, Item.slots, Declaration.slots, Expr.slots, hclean]

theorem exists_declarations_of_settled {items : List Item} (h : ∀ item ∈ items, item.Settled) :
    ∃ declarations, items = declarations.map .declaration ∧ AllFolded declarations := by
  induction items with
  | nil => exact ⟨[], rfl, fun d hd => by cases hd⟩
  | cons item items ih =>
    obtain ⟨⟨property, value, rfl, -⟩, hitems⟩ := List.forall_mem_cons.mp h
    obtain ⟨declarations, rfl, hfolded⟩ := ih hitems
    exact ⟨⟨property, .literal value, none⟩ :: declarations, rfl,
      List.forall_mem_cons.mpr ⟨⟨value, rfl⟩, hfolded⟩⟩

namespace Sheet

theorem Settled.checkMembers {members : List Member} (h : Sheet.Settled ⟨members⟩)
    (scope : Scope ValueType) : TypedStyle.checkMembers scope members = (members, scope) ∧
      Clean (members.flatMap Member.slots) := by
  induction members with
  | nil => exact ⟨rfl, .nil⟩
  | cons member members ih =>
    obtain ⟨⟨rule, rfl, hr⟩, hmembers⟩ := List.forall_mem_cons.mp h
    obtain ⟨hrest, hclean⟩ := ih hmembers
    obtain ⟨hbody, hslots⟩ := checkItems_of_settled hr scope.push
    constructor
    · simp only [TypedStyle.checkMembers, Member.check, Rule.check, hbody, Scope.pop_push, hrest]
    · simp [Member.slots, hslots, hclean]

theorem Settled.check {sheet : Sheet} (h : sheet.Settled) :
    sheet.check = sheet ∧ Clean sheet.check.slots := by
  obtain ⟨hc, hclean⟩ := h.checkMembers (Scope.empty : Scope ValueType).push
  have he : sheet.check = sheet := by rw [Sheet.check, checkIn, hc]
  exact ⟨he, he.symm ▸ hclean⟩

theorem Settled.folded {sheet : Sheet} (h : sheet.Settled) :
    ∀ member ∈ sheet.members, member.Folded := by
  intro member hm
  obtain ⟨rule, rfl, hr⟩ := h member hm
  obtain ⟨declarations, hb, hd⟩ := exists_declarations_of_settled hr
  exact ⟨rule, declarations, rfl, hb, hd⟩

theorem Settled.flatten {sheet : Sheet} (h : sheet.Settled) : sheet.flatten = ⟨sheet, none⟩ := by
  have hmembers := flattenMembers_of_folded h.folded Scope.empty.push []
  simp only [List.append_nil] at hmembers
  rw [Sheet.flatten, flattenIn, hmembers]
  simp only [flattenMembers, Flattening.keep, List.append_nil]

theorem Lexable.settled {sheet : Sheet} (h : sheet.Lexable)
    (hf : ∀ member ∈ sheet.members, ∃ rule, member = .rule rule ∧ rule.Fits) : sheet.Settled := by
  intro member hm
  obtain ⟨rule, rfl, hl⟩ := h member hm
  obtain ⟨_, he, hfits⟩ := hf _ hm
  cases he
  refine ⟨rule, rfl, fun item hi => ?_⟩
  obtain ⟨⟨property, expr, fault⟩, rfl, hd⟩ := hl.body item hi
  obtain ⟨_, value, he, hvalue, hv⟩ := hfits _ hi
  cases he
  obtain rfl : expr = .literal value := hvalue
  obtain rfl := hd.fault
  exact ⟨property, value, rfl, hv⟩

end Sheet

/-- The values in the declarations of the text that the source is compiled to. -/
def printedValues (source : String) (options : CompileOptions) : List Literal :=
  match checkSource source options with
  | .error _ => []
  | .ok sheet => sheet.flatten.sheet.values

theorem compileSource_of_compileSource {source css : String} {options : CompileOptions}
    (h : compileSource source options = .ok css)
    (hn : ∀ value ∈ printedValues source options, ¬value.Negative) :
    compileSource css options = .ok css := by
  obtain ⟨sheet, hs, hf, rfl⟩ := compileSource_eq_ok_iff.mp h
  rw [printedValues, hs] at hn
  obtain ⟨hread, hclean⟩ := checkSource_eq_ok_iff.mp hs
  obtain ⟨words, hlexes, hspells⟩ := readSheet_eq_ok_iff.mp hread
  have htyped := (Sheet.typed_of_clean (clean_of_readSheet hread) hclean).2
  have hfits : sheet.flatten.Fits := Sheet.fits_flatten
    (fun number item env ha => htyped number item env (ha.mono fun _ _ _ _ => trivial)) hf
  -- the flat sheet is read from its own text, and is left alone from there on
  have hlexable := Sheet.lexable_flatten hspells (Plain.bare hlexes.lexable) hf hn
  have hsettled := hlexable.settled hfits.2
  have hagain : checkSource (sheet.flatten.sheet.css options.indent) options =
      .ok sheet.flatten.sheet :=
    checkSource_eq_ok_iff.mpr
      ⟨readSheet_eq_ok_iff.mpr (hlexable.exists_words _), hsettled.check.2⟩
  have hflat := hsettled.flatten
  exact compileSource_eq_ok_iff.mpr ⟨_, hagain, by rw [hflat], by rw [hflat]⟩

/-- An id that looks like a colour, and a difference that is not negative. -/
theorem compileSource_of_compileSource_zero :
    compileSource "#c0ffee \x7b width: 2px - 2px; color: #C0ffee; \x7d" {} =
      .ok "#c0ffee \x7b\n  width: 0px;\n  color: #C0ffee;\n\x7d\n" ∧
    printedValues "#c0ffee \x7b width: 2px - 2px; color: #C0ffee; \x7d" {} =
      [.number .pixel 0, .color "#C0ffee"] ∧
    compileSource "#c0ffee \x7b\n  width: 0px;\n  color: #C0ffee;\n\x7d\n" {} =
      .ok "#c0ffee \x7b\n  width: 0px;\n  color: #C0ffee;\n\x7d\n" := by
  have hcss : compileSource "#c0ffee \x7b width: 2px - 2px; color: #C0ffee; \x7d" {} =
      .ok "#c0ffee \x7b\n  width: 0px;\n  color: #C0ffee;\n\x7d\n" := by decide +kernel
  have hvalues : printedValues "#c0ffee \x7b width: 2px - 2px; color: #C0ffee; \x7d" {} =
      [.number .pixel 0, .color "#C0ffee"] := by decide +kernel
  refine ⟨hcss, hvalues, compileSource_of_compileSource hcss ?_⟩
  rw [hvalues]
  decide

end TypedStyle
