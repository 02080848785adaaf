import TypedStyle.Compile
import TypedStyle.Proofs.Slots

set_option autoImplicit false

namespace TypedStyle

def Outline.faults (outlines : List Outline) (depth : Nat) : List Fault :=
  (walkAll depth outlines).filterMap Visit.fault

namespace Outline

variable {depth : Nat}

theorem walkAll_append (outlines rest : List Outline) (depth : Nat) :
    walkAll depth (outlines ++ rest) = walkAll depth outlines ++ walkAll depth rest := by
  induction outlines with
  | nil => rfl
  | cons outline outlines ih => rw [List.cons_append, walkAll, walkAll, ih, List.append_assoc]

@[simp]
theorem faults_nil : faults [] depth = [] := rfl

@[simp]
theorem faults_cons (label : String) (fault : Option Fault) (parts rest : List Outline) :
    faults (.node label fault parts :: rest) depth =
      fault.toList ++ faults parts (depth + 1) ++ faults rest depth := by
  cases fault <;> simp [faults, walkAll, walk]

@[simp]
theorem faults_append (outlines rest : List Outline) (depth : Nat) :
    faults (outlines ++ rest) depth = faults outlines depth ++ faults rest depth := by
  rw [faults, walkAll_append, List.filterMap_append, faults, faults]

end Outline

def reported (slots : List (Option Fault)) : List Fault :=
  slots.filterMap id

section Reported

@[simp]
theorem reported_nil : reported [] = [] := rfl

@[simp]
theorem reported_cons (slot : Option Fault) (slots : List (Option Fault)) :
    reported (slot :: slots) = slot.toList ++ reported slots := by
  cases slot <;> rfl

@[simp]
theorem reported_append (slots more : List (Option Fault)) :
    reported (slots ++ more) = reported slots ++ reported more :=
  List.filterMap_append

theorem clean_iff_reported (slots : List (Option Fault)) : Clean slots ↔ reported slots = [] := by
  simp [Clean, reported]

end Reported

open Outline

namespace Expr

theorem faults_outline (expr : Expr) (depth : Nat) :
    faults [expr.outline] depth = reported expr.slots := by
  induction expr generalizing depth with
  | literal value fault => simp [outline, slots]
  | reference name fault => simp [outline, slots]
  | operation op left right fault ihl ihr =>
    have hsides := faults_append [left.outline] [right.outline] (depth + 1)
    rw [List.singleton_append, ihl, ihr] at hsides
    simp [outline, slots, hsides]

end Expr

theorem Declaration.faults_outline (d : Declaration) (depth : Nat) :
    faults [d.outline] depth = reported d.slots := by
  simp [outline, slots, Expr.faults_outline]

theorem Assignment.faults_outline (a : Assignment) (depth : Nat) :
    faults [a.outline] depth = reported a.value.slots := by
  simp [outline, Expr.faults_outline]

theorem faults_outlineItems (items : List Item) (depth : Nat) :
    faults (outlineItems items) depth = reported (itemSlots items) := by
  induction items using bodyInduction generalizing depth with
  | nil => rfl
  | declaration d rest ih =>
    have hitems := faults_append [d.outline] (outlineItems rest) depth
    rw [List.singleton_append, d.faults_outline, ih] at hitems
    simpa [outlineItems, Item.outline, itemSlots, Item.slots] using hitems
  | assignment a rest ih =>
    have hitems := faults_append [a.outline] (outlineItems rest) depth
    rw [List.singleton_append, a.faults_outline, ih] at hitems
    simpa [outlineItems, Item.outline, itemSlots, Item.slots] using hitems
  | branch condition body alternative fault rest hb ha ih =>
    have helse : faults (outlineElse alternative) (depth + 1) =
        reported (elseSlots alternative) := by
      cases alternative with
      | none => rfl
      | some other => simp [outlineElse, elseSlots, ha other rfl]
    have hparts := faults_append [condition.outline] (outlineItems body ++ outlineElse alternative)
      (depth + 1)
    rw [List.singleton_append, condition.faults_outline, faults_append, hb, helse] at hparts
    simp [outlineItems, Item.outline, itemSlots, Item.slots, hparts, ih]

theorem faults_selectors (selectors : List Selector) (depth : Nat) :
    faults (selectors.map Selector.outline) depth = [] := by
  induction selectors with
  | nil => rfl
  | cons selector selectors ih => cases selector <;> simp [Selector.outline, ih]

theorem Member.faults_outline (member : Member) (depth : Nat) :
    faults [member.outline] depth = reported member.slots := by
  cases member with
  | rule r => simp [outline, Rule.outline, slots, faults_selectors, faults_outlineItems]
  | assignment a => exact a.faults_outline depth

namespace Sheet

theorem faults_outline (sheet : Sheet) (depth : Nat) :
    faults [sheet.outline] depth = reported sheet.slots := by
  obtain ⟨members⟩ := sheet
  simp only [outline, faults_cons, faults_nil, Option.toList_none, List.nil_append,
    List.append_nil, slots]
  induction members with
  | nil => rfl
  | cons member members ih =>
    have hmembers := faults_append [member.outline] (members.map Member.outline)
      (depth + 1)
    rw [List.singleton_append, member.faults_outline, ih] at hmembers
    simpa using hmembers

theorem diagnostics_eq_nil_iff (sheet : Sheet) : sheet.diagnostics = [] ↔ Clean sheet.slots := by
  have hwalk : sheet.diagnostics = [] ↔ faults [sheet.outline] 0 = [] := by
    simp [diagnostics, faults, walkAll, Visit.diagnostic?]
  rw [hwalk, faults_outline, clean_iff_reported]

end Sheet

end TypedStyle
