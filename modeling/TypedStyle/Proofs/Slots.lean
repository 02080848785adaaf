import TypedStyle.Sheet

set_option autoImplicit false

namespace TypedStyle

/-- Induction on a body, item by item and down into the bodies of its branches. -/
@[elab_as_elim]
theorem bodyInduction {motive : List Item → Prop} (nil : motive [])
    (declaration : ∀ d rest, motive rest → motive (.declaration d :: rest))
    (assignment : ∀ a rest, motive rest → motive (.assignment a :: rest))
    (branch : ∀ condition body alternative fault rest, motive body →
      (∀ other, alternative = some other → motive other) → motive rest →
      motive (.branch condition body alternative fault :: rest)) (items : List Item) :
    motive items := by
  refine @Item.rec_1 (fun item => ∀ rest, motive rest → motive (item :: rest)) motive
    (fun alternative => ∀ other, alternative = some other → motive other)
    ?_ ?_ ?_ nil ?_ ?_ ?_ items
  · exact declaration
  · exact assignment
  · intro condition body alternative fault hb ha rest hr
    exact branch condition body alternative fault rest hb ha hr
  · exact fun item rest hi hr => hi rest hr
  · exact fun other h => by simp at h
  · exact fun body hb other h => by cases h; exact hb

def Expr.slots : Expr → List (Option Fault)
  | .literal _ fault => [fault]
  | .reference _ fault => [fault]
  | .operation _ left right fault => fault :: left.slots ++ right.slots

def Declaration.slots (declaration : Declaration) : List (Option Fault) :=
  declaration.fault :: declaration.value.slots

mutual

def Item.slots : Item → List (Option Fault)
  | .declaration d => d.slots
  | .assignment a => a.value.slots
  | .branch condition body alternative fault =>
    fault :: condition.slots ++ itemSlots body ++ elseSlots alternative

def itemSlots : List Item → List (Option Fault)
  | [] => []
  | item :: items => item.slots ++ itemSlots items

def elseSlots : Option (List Item) → List (Option Fault)
  | none => []
  | some body => itemSlots body

end

def Member.slots : Member → List (Option Fault)
  | .rule r => itemSlots r.body
  | .assignment a => a.value.slots

def Sheet.slots (sheet : Sheet) : List (Option Fault) :=
  sheet.members.flatMap Member.slots

def Clean (slots : List (Option Fault)) : Prop :=
  ∀ slot ∈ slots, slot = none

namespace Clean

instance (slots : List (Option Fault)) : Decidable (Clean slots) :=
  inferInstanceAs (Decidable (∀ slot ∈ slots, slot = none))

@[simp]
theorem nil : Clean [] := by
  simp [Clean]

@[simp]
theorem cons_iff {slot : Option Fault} {slots : List (Option Fault)} :
    Clean (slot :: slots) ↔ slot = none ∧ Clean slots := by
  simp [Clean]

@[simp]
theorem append_iff {slots more : List (Option Fault)} :
    Clean (slots ++ more) ↔ Clean slots ∧ Clean more := by
  simp only [Clean, List.mem_append, or_imp, forall_and]

end Clean

end TypedStyle
