import TypedStyle.Proofs.Frames
import TypedStyle.Proofs.References

set_option autoImplicit false

namespace TypedStyle

/-- A slot that is filled in the first list is the same in the third one, and any other slot there
is that of the second list. -/
inductive Overlaid : List (Option Fault) → List (Option Fault) → List (Option Fault) → Prop
  | nil : Overlaid [] [] []
  | cons {founds olds news : List (Option Fault)} (found old : Option Fault)
      (rest : Overlaid founds olds news) :
      Overlaid (found :: founds) (old :: olds) (found.or old :: news)

namespace Overlaid

variable {founds olds news founds' olds' news' : List (Option Fault)}

theorem append (h : Overlaid founds olds news) (h' : Overlaid founds' olds' news') :
    Overlaid (founds ++ founds') (olds ++ olds') (news ++ news') := by
  induction h with
  | nil => exact h'
  | cons found old _ ih => exact .cons found old ih

theorem length_eq (h : Overlaid founds olds news) : founds.length = olds.length := by
  induction h with
  | nil => rfl
  | cons found old _ ih => rw [List.length_cons, ih, List.length_cons]

theorem length_congr (h : Overlaid founds olds news) (h' : Overlaid founds olds' news') :
    olds.length = olds'.length :=
  h.length_eq.symm.trans h'.length_eq

theorem idem (h : Overlaid founds olds news) (h' : Overlaid founds news news') : news' = news := by
  induction h generalizing news' with
  | nil =>
    cases h'
    rfl
  | cons found old _ ih =>
    cases h' with
    | cons _ _ rest =>
      rw [ih rest]
      cases found <;> rfl

theorem eq_zipWith (h : Overlaid founds olds news) : news = List.zipWith Option.or founds olds := by
  induction h with
  | nil => rfl
  | cons found old _ ih => rw [List.zipWith_cons_cons, ih]

end Overlaid

def Expr.unmarked : Expr → Expr
  | .literal value _ => .literal value
  | .reference name _ => .reference name
  | .operation op left right _ => .operation op left.unmarked right.unmarked

def Declaration.unmarked (declaration : Declaration) : Declaration :=
  ⟨declaration.property, declaration.value.unmarked, none⟩

def Assignment.unmarked (assignment : Assignment) : Assignment :=
  ⟨assignment.name, assignment.value.unmarked⟩

mutual

def Item.unmarked : Item → Item
  | .declaration d => .declaration d.unmarked
  | .assignment a => .assignment a.unmarked
  | .branch condition body alternative _ =>
    .branch condition.unmarked (unmarkedItems body) (unmarkedElse alternative)

def unmarkedItems : List Item → List Item
  | [] => []
  | item :: items => item.unmarked :: unmarkedItems items

def unmarkedElse : Option (List Item) → Option (List Item)
  | none => none
  | some body => some (unmarkedItems body)

end

def Member.unmarked : Member → Member
  | .rule r => .rule { r with body := unmarkedItems r.body }
  | .assignment a => .assignment a.unmarked

def Sheet.unmarked (sheet : Sheet) : Sheet :=
  ⟨sheet.members.map Member.unmarked⟩

namespace Expr

variable {scope : Scope ValueType} {expr left right : Expr}

theorem text_unmarked (expr : Expr) : expr.unmarked.text = expr.text := by
  induction expr with
  | operation op left right fault ihl ihr => rw [unmarked, text, ihl, ihr, text]
  | _ => rfl

theorem operandFault?_unmarked (expr : Expr) :
    expr.unmarked.operandFault? = expr.operandFault? := by
  cases expr <;> rfl

theorem unfit_unmarked (left right : Expr) :
    left.unmarked.Unfit ∨ right.unmarked.Unfit ↔ left.Unfit ∨ right.Unfit := by
  simp only [unfit_iff, operandFault?_unmarked]

/-- An operation is judged by the texts of its sides, which do not show their slots. -/
theorem operationType_unmarked (op : Operator) (left right : Expr) :
    operationType op left.unmarked right.unmarked = operationType op left right := by
  funext l r
  cases l <;> cases r <;> simp only [operationType, illegalSide, text_unmarked]

theorem unmarked_mark (found : Option Fault) (expr : Expr) :
    (expr.mark found).unmarked = expr.unmarked := by
  cases expr <;> rfl

theorem unmarked_check (scope : Scope ValueType) (expr : Expr) :
    (expr.check scope).1.unmarked = expr.unmarked := by
  induction expr with
  | literal value fault => rfl
  | reference name fault => cases hr : scope.resolve? name <;> simp [check, hr, unmarked]
  | operation op left right fault ihl ihr =>
    by_cases hu : left.Unfit ∨ right.Unfit
    · rw [check_of_unfit hu]
      simp only [unmarked, unmarked_mark]
    · obtain ⟨after, he⟩ : ∃ after, (check scope (.operation op left right fault)).1 =
          .operation op (left.check scope).1 (right.check scope).1 after := exists_check_fit hu
      rw [he]
      simp only [unmarked, ihl, ihr]

theorem type_unmarked (scope : Scope ValueType) (expr : Expr) :
    (expr.unmarked.check scope).2 = (expr.check scope).2 := by
  induction expr with
  | literal value fault => rfl
  | reference name fault => cases hr : scope.resolve? name <;> simp [check, hr, unmarked]
  | operation op left right fault ihl ihr =>
    have hunfit := unfit_unmarked left right
    rw [unmarked]
    by_cases hu : left.Unfit ∨ right.Unfit
    · rw [check_of_unfit hu, check_of_unfit (hunfit.mpr hu)]
    · rw [check_of_fit hu, check_of_fit (hunfit.not.mpr hu), operationType_unmarked, ihl, ihr]
      cases operationType op left right (left.check scope).2 (right.check scope).2 <;> rfl

theorem overlaid_unmarked (expr : Expr) : Overlaid expr.unmarked.slots expr.slots expr.slots := by
  induction expr with
  | operation op left right fault ihl ihr => exact (Overlaid.cons none fault ihl).append ihr
  | _ => exact .cons none _ .nil

theorem overlaid_mark (found : Option Fault) (expr : Expr) :
    Overlaid (expr.unmarked.mark found).slots expr.slots (expr.mark found).slots := by
  have hfound : found.or none = found := Option.or_none
  cases expr with
  | operation op left right fault =>
    rw [unmarked, mark, mark, slots, slots, slots, hfound]
    exact (Overlaid.cons found fault left.overlaid_unmarked).append right.overlaid_unmarked
  | literal value fault =>
    rw [unmarked, mark, mark, slots, slots, slots, hfound]
    exact .cons found fault .nil
  | reference name fault =>
    rw [unmarked, mark, mark, slots, slots, slots, hfound]
    exact .cons found fault .nil

theorem overlaid_check (scope : Scope ValueType) (expr : Expr) :
    Overlaid (expr.unmarked.check scope).1.slots expr.slots (expr.check scope).1.slots := by
  induction expr with
  | literal value fault => exact .cons none fault .nil
  | reference name fault =>
    rw [unmarked, check, check]
    cases scope.resolve? name with
    | none => exact .cons (some (.undefinedVariable name)) fault .nil
    | some type => exact .cons none fault .nil
  | operation op left right fault ihl ihr =>
    have hunfit := unfit_unmarked left right
    rw [unmarked]
    by_cases hu : left.Unfit ∨ right.Unfit
    · rw [check_of_unfit hu, check_of_unfit (hunfit.mpr hu), operandFault?_unmarked,
        operandFault?_unmarked]
      exact (Overlaid.cons none fault (overlaid_mark _ left)).append (overlaid_mark _ right)
    · rw [check_of_fit hu, check_of_fit (hunfit.not.mpr hu), operationType_unmarked, type_unmarked,
        type_unmarked]
      cases operationType op left right (left.check scope).2 (right.check scope).2 with
      | ok type => exact (Overlaid.cons none fault ihl).append ihr
      | error found => exact (Overlaid.cons (some found) fault ihl).append ihr

end Expr

section Items

variable {scope : Scope ValueType}

theorem Declaration.unmarked_check (scope : Scope ValueType) (d : Declaration) :
    (d.check scope).unmarked = d.unmarked := by
  rw [unmarked, check, Expr.unmarked_check, unmarked]

theorem Declaration.overlaid_check (scope : Scope ValueType) (d : Declaration) :
    Overlaid (d.unmarked.check scope).slots d.slots (d.check scope).slots := by
  simp only [unmarked, check, slots, Expr.type_unmarked, Option.or_none]
  exact .cons _ d.fault (d.value.overlaid_check scope)

theorem Assignment.unmarked_check (scope : Scope ValueType) (a : Assignment) :
    (a.check scope).1.unmarked = a.unmarked := by
  rw [unmarked, check, Expr.unmarked_check, unmarked]

theorem Assignment.scope_unmarked (scope : Scope ValueType) (a : Assignment) :
    (a.unmarked.check scope).2 = (a.check scope).2 := by
  rw [unmarked, check, check, Expr.type_unmarked]

theorem unmarkedItems_checkItems (scope : Scope ValueType) (items : List Item) :
    unmarkedItems (checkItems scope items).1 = unmarkedItems items := by
  induction items using bodyInduction generalizing scope with
  | nil => rfl
  | declaration d rest ih =>
    simp only [checkItems, Item.check, unmarkedItems, Item.unmarked, d.unmarked_check, ih]
  | assignment a rest ih =>
    simp only [checkItems, Item.check, unmarkedItems, Item.unmarked, a.unmarked_check, ih]
  | branch condition body alternative fault rest hb ha ih =>
    have helse : unmarkedElse (checkElse scope alternative).1 = unmarkedElse alternative := by
      cases alternative with
      | none => rfl
      | some other => rw [checkElse, unmarkedElse, ha other rfl, unmarkedElse]
    simp only [checkItems, Item.check, unmarkedItems, Item.unmarked, pop_checkItems_push,
      condition.unmarked_check, hb, helse, ih]

theorem overlaid_checkItems (scope : Scope ValueType) (items : List Item) :
    Overlaid (itemSlots (checkItems scope (unmarkedItems items)).1) (itemSlots items)
      (itemSlots (checkItems scope items).1) := by
  induction items using bodyInduction generalizing scope with
  | nil => exact .nil
  | declaration d rest ih => exact (d.overlaid_check scope).append (ih scope)
  | assignment a rest ih =>
    have hrest : Overlaid (itemSlots (checkItems (a.unmarked.check scope).2 (unmarkedItems rest)).1)
        (itemSlots rest) (itemSlots (checkItems (a.check scope).2 rest).1) := by
      rw [a.scope_unmarked]
      exact ih (a.check scope).2
    exact (a.value.overlaid_check scope).append hrest
  | branch condition body alternative fault rest hb ha ih =>
    have helse : Overlaid (elseSlots (checkElse scope (unmarkedElse alternative)).1)
        (elseSlots alternative) (elseSlots (checkElse scope alternative).1) := by
      cases alternative with
      | none => exact .nil
      | some other => exact ha other rfl scope.push
    simp only [unmarkedItems, Item.unmarked, checkItems, Item.check, itemSlots, Item.slots,
      pop_checkItems_push, snd_checkElse, Expr.type_unmarked, Option.or_none]
    have hcondition := Overlaid.cons (conditionFault? (condition.check scope.push).2) fault
      (condition.overlaid_check scope.push)
    exact ((hcondition.append (hb scope.push)).append helse).append (ih scope)

end Items

section Slots

theorem Expr.length_slots {left right : Expr} (h : left.unmarked = right.unmarked) :
    left.slots.length = right.slots.length := by
  have hl := left.overlaid_unmarked
  rw [h] at hl
  exact hl.length_congr right.overlaid_unmarked

theorem Expr.eq_of_slots {left right : Expr} (h : left.unmarked = right.unmarked)
    (hs : left.slots = right.slots) : left = right := by
  induction left generalizing right with
  | literal value fault => cases right <;> simp_all [unmarked, slots]
  | reference name fault => cases right <;> simp_all [unmarked, slots]
  | operation op l r fault ihl ihr =>
    cases right with
    | operation op' l' r' fault' =>
      simp only [unmarked, operation.injEq, and_true] at h
      obtain ⟨rfl, hl, hr⟩ := h
      simp only [slots, List.cons_append, List.cons.injEq] at hs
      obtain ⟨rfl, hs⟩ := hs
      obtain ⟨hsl, hsr⟩ := List.append_inj hs (length_slots hl)
      rw [ihl hl hsl, ihr hr hsr]
    | _ => cases h

theorem Declaration.eq_of_slots {d other : Declaration} (h : d.unmarked = other.unmarked)
    (hs : d.slots = other.slots) : d = other := by
  obtain ⟨property, value, fault⟩ := d
  obtain ⟨property', value', fault'⟩ := other
  simp only [unmarked, mk.injEq, and_true] at h
  obtain ⟨rfl, hv⟩ := h
  obtain ⟨rfl, hslots⟩ := List.cons.inj hs
  rw [Expr.eq_of_slots hv hslots]

theorem Assignment.eq_of_slots {a other : Assignment} (h : a.unmarked = other.unmarked)
    (hs : a.value.slots = other.value.slots) : a = other := by
  obtain ⟨name, value⟩ := a
  obtain ⟨name', value'⟩ := other
  simp only [unmarked, mk.injEq] at h
  obtain ⟨rfl, hv⟩ := h
  rw [Expr.eq_of_slots hv hs]

theorem length_itemSlots {items others : List Item}
    (h : unmarkedItems items = unmarkedItems others) :
    (itemSlots items).length = (itemSlots others).length := by
  have hi := overlaid_checkItems .empty items
  rw [h] at hi
  exact hi.length_congr (overlaid_checkItems .empty others)

theorem Item.length_slots {item other : Item} (h : item.unmarked = other.unmarked) :
    item.slots.length = other.slots.length := by
  have hlength : (itemSlots [item]).length = (itemSlots [other]).length :=
    length_itemSlots (by rw [unmarkedItems, h]; rfl)
  simpa [itemSlots] using hlength

def GivenBySlots (items : List Item) : Prop :=
  ∀ ⦃others⦄, unmarkedItems items = unmarkedItems others → itemSlots items = itemSlots others →
    items = others

theorem GivenBySlots.cons {head : Item} {rest : List Item}
    (hh : ∀ other, head.unmarked = other.unmarked → head.slots = other.slots → head = other)
    (hr : GivenBySlots rest) : GivenBySlots (head :: rest) := by
  intro others h hs
  cases others with
  | nil => cases h
  | cons other others =>
    obtain ⟨hhead, hrest⟩ := List.cons.inj h
    obtain ⟨hslots, hrestSlots⟩ := List.append_inj hs (Item.length_slots hhead)
    rw [hh other hhead hslots, hr hrest hrestSlots]

theorem GivenBySlots.branch {condition : Expr} {body : List Item}
    {alternative : Option (List Item)} {fault : Option Fault} (hb : GivenBySlots body)
    (ha : ∀ inner, alternative = some inner → GivenBySlots inner) (other : Item)
    (h : (Item.branch condition body alternative fault).unmarked = other.unmarked)
    (hs : (Item.branch condition body alternative fault).slots = other.slots) :
    .branch condition body alternative fault = other := by
  cases other with
  | branch condition' body' alternative' fault' =>
    simp only [Item.unmarked, Item.branch.injEq, and_true] at h
    obtain ⟨hcondition, hbody, halternative⟩ := h
    simp only [Item.slots, List.cons_append, List.append_assoc, List.cons.injEq] at hs
    obtain ⟨rfl, hs⟩ := hs
    obtain ⟨hconditionSlots, hs⟩ := List.append_inj hs (Expr.length_slots hcondition)
    obtain ⟨hbodySlots, hs⟩ := List.append_inj hs (length_itemSlots hbody)
    have helse : alternative = alternative' := by
      cases alternative with
      | none =>
        cases alternative' with
        | none => rfl
        | some inner' => cases halternative
      | some inner =>
        cases alternative' with
        | none => cases halternative
        | some inner' => rw [ha inner rfl (Option.some.inj halternative) hs]
    rw [Expr.eq_of_slots hcondition hconditionSlots, hb hbody hbodySlots, helse]
  | _ => cases h

theorem givenBySlots (items : List Item) : GivenBySlots items := by
  induction items using bodyInduction with
  | nil =>
    intro others h _
    cases others with
    | nil => rfl
    | cons other others => cases h
  | declaration d rest ih =>
    refine .cons (fun other h hs => ?_) ih
    cases other with
    | declaration d' => rw [Declaration.eq_of_slots (Item.declaration.inj h) hs]
    | _ => cases h
  | assignment a rest ih =>
    refine .cons (fun other h hs => ?_) ih
    cases other with
    | assignment a' => rw [Assignment.eq_of_slots (Item.assignment.inj h) hs]
    | _ => cases h
  | branch condition body alternative fault rest hb ha ih =>
    exact .cons (GivenBySlots.branch hb ha) ih

end Slots

namespace Member

theorem unmarked_check (scope : Scope ValueType) (member : Member) :
    (member.check scope).1.unmarked = member.unmarked := by
  cases member with
  | rule r => simp only [check, Rule.check, unmarked, unmarkedItems_checkItems]
  | assignment a => simp only [check, unmarked, a.unmarked_check]

theorem scope_unmarked (scope : Scope ValueType) (member : Member) :
    (member.unmarked.check scope).2 = (member.check scope).2 := by
  cases member with
  | rule r => rw [unmarked, check, check, Rule.snd_check, Rule.snd_check]
  | assignment a => rw [unmarked, check, check, a.scope_unmarked]

theorem overlaid_check (scope : Scope ValueType) (member : Member) :
    Overlaid (member.unmarked.check scope).1.slots member.slots (member.check scope).1.slots := by
  cases member with
  | rule r => exact overlaid_checkItems scope.push r.body
  | assignment a => exact a.value.overlaid_check scope

theorem length_slots {member other : Member} (h : member.unmarked = other.unmarked) :
    member.slots.length = other.slots.length := by
  have hm := member.overlaid_check .empty
  rw [h] at hm
  exact hm.length_congr (other.overlaid_check .empty)

theorem eq_of_slots {member other : Member} (h : member.unmarked = other.unmarked)
    (hs : member.slots = other.slots) : member = other := by
  cases member with
  | rule r =>
    cases other with
    | rule r' =>
      obtain ⟨selectors, body⟩ := r
      obtain ⟨selectors', body'⟩ := r'
      simp only [unmarked, rule.injEq, Rule.mk.injEq] at h
      obtain ⟨rfl, hbody⟩ := h
      rw [givenBySlots body hbody hs]
    | assignment a' => cases h
  | assignment a =>
    cases other with
    | rule r' => cases h
    | assignment a' => rw [Assignment.eq_of_slots (Member.assignment.inj h) hs]

end Member

theorem unmarked_checkMembers (scope : Scope ValueType) (members : List Member) :
    (checkMembers scope members).1.map Member.unmarked = members.map Member.unmarked := by
  induction members generalizing scope with
  | nil => rfl
  | cons member members ih =>
    rw [checkMembers, List.map_cons, member.unmarked_check, ih, List.map_cons]

theorem overlaid_checkMembers (scope : Scope ValueType) (members : List Member) :
    Overlaid ((checkMembers scope (members.map Member.unmarked)).1.flatMap Member.slots)
      (members.flatMap Member.slots) ((checkMembers scope members).1.flatMap Member.slots) := by
  induction members generalizing scope with
  | nil => exact .nil
  | cons member members ih =>
    rw [List.map_cons, checkMembers, checkMembers, member.scope_unmarked]
    exact (member.overlaid_check scope).append (ih _)

theorem members_eq_of_slots {members others : List Member}
    (h : members.map Member.unmarked = others.map Member.unmarked)
    (hs : members.flatMap Member.slots = others.flatMap Member.slots) : members = others := by
  induction members generalizing others with
  | nil =>
    cases others with
    | nil => rfl
    | cons other others => cases h
  | cons member members ih =>
    cases others with
    | nil => cases h
    | cons other others =>
      obtain ⟨hmember, hmembers⟩ := List.cons.inj h
      obtain ⟨hslots, hrest⟩ := List.append_inj hs (Member.length_slots hmember)
      rw [Member.eq_of_slots hmember hslots, ih hmembers hrest]

namespace Sheet

theorem eq_of_slots {sheet other : Sheet} (h : sheet.unmarked = other.unmarked)
    (hs : sheet.slots = other.slots) : sheet = other :=
  congrArg Sheet.mk (members_eq_of_slots (Sheet.mk.inj h) hs)

theorem unmarked_check (sheet : Sheet) : sheet.check.unmarked = sheet.unmarked :=
  congrArg Sheet.mk (unmarked_checkMembers _ sheet.members)

theorem overlaid_check (sheet : Sheet) :
    Overlaid sheet.unmarked.check.slots sheet.slots sheet.check.slots :=
  overlaid_checkMembers _ sheet.members

/-- The check changes nothing but slots. It fills them as in the sheet with empty slots, leaves the
others as they are, and finds nothing more when it is repeated. -/
theorem check_overlays (sheet : Sheet) :
    sheet.check.unmarked = sheet.unmarked ∧
      sheet.unmarked.check.slots.length = sheet.slots.length ∧
      sheet.check.slots = List.zipWith Option.or sheet.unmarked.check.slots sheet.slots ∧
      sheet.check.check = sheet.check := by
  have hagain := sheet.check.overlaid_check
  rw [sheet.unmarked_check] at hagain
  refine ⟨sheet.unmarked_check, sheet.overlaid_check.length_eq, ?_,
    eq_of_slots sheet.check.unmarked_check (sheet.overlaid_check.idem hagain)⟩
  exact sheet.overlaid_check.eq_zipWith

end Sheet

end TypedStyle
