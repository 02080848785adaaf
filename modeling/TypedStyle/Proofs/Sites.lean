import TypedStyle.Proofs.Lexical

set_option autoImplicit false

namespace TypedStyle

inductive Hand where
  | left
  | right
  deriving Repr, DecidableEq

def Hand.side {α : Type} (left right : α) : Hand → α
  | .left => left
  | .right => right

namespace Expr

/-- The part of the expression at the end of a way down through its operations. -/
def at? : List Hand → Expr → Option Expr
  | [], expr => some expr
  | hand :: way, .operation _ left right _ => (hand.side left right).at? way
  | _ :: _, _ => none

def Unfit : Expr → Prop
  | .literal (.color _) _ | .literal (.bool _) _ => True
  | _ => False

/-- Some operation on the way has an operand that it does not take. -/
def Barred : List Hand → Expr → Prop
  | hand :: way, .operation _ left right _ =>
    left.Unfit ∨ right.Unfit ∨ (hand.side left right).Barred way
  | _, _ => False

theorem clean_of_at? {expr part : Expr} {way : List Hand} (hc : Clean expr.slots)
    (h : expr.at? way = some part) : Clean part.slots := by
  induction way generalizing expr with
  | nil =>
    cases h
    exact hc
  | cons hand way ih =>
    cases expr with
    | operation op left right fault =>
      simp only [slots, Clean.append_iff, Clean.cons_iff] at hc
      cases hand with
      | left => exact ih hc.1.2 h
      | right => exact ih hc.2 h
    | _ => cases h

end Expr

namespace Item

def expr : Item → Expr
  | .declaration d => d.value
  | .assignment a => a.value
  | .branch condition _ _ _ => condition

def side? (side : Side) : Item → Option (List Item)
  | .branch _ body alternative _ => side.items? body alternative
  | _ => none

end Item

def itemAt? : Place → List Item → Option Item
  | .here index, items => items[index]?
  | .inside index side place, items => (items[index]?.bind (Item.side? side)).bind (itemAt? place)

/-- The first place is in a body around the second one, and its item ends before the second. -/
def Place.Reaches : Place → Place → Prop
  | .here i, place => i < place.index
  | .inside i side place, .inside j other place' => i = j ∧ side = other ∧ place.Reaches place'
  | .inside _ _ _, .here _ => False

inductive Site where
  | top (number : Nat)
  | inRule (number : Nat) (place : Place)
  deriving Repr, DecidableEq

namespace Site

def number : Site → Nat
  | .top number => number
  | .inRule number _ => number

/-- The first site is directly in the sheet or in a body around the second one, and ends before
it. -/
def Reaches : Site → Site → Prop
  | .top m, site => m < site.number
  | .inRule m place, .inRule n place' => m = n ∧ place.Reaches place'
  | .inRule _ _, .top _ => False

end Site

namespace Sheet

def itemAt? (sheet : Sheet) : Site → Option Item
  | .top number => (sheet.members[number]?.bind Member.assignment?).map .assignment
  | .inRule number place =>
    (sheet.members[number]?.bind Member.rule?).bind fun rule => TypedStyle.itemAt? place rule.body

def partAt? (sheet : Sheet) (site : Site) (way : List Hand) : Option Expr :=
  (sheet.itemAt? site).bind fun item => item.expr.at? way

/-- Some assignment to the name is complete before the site and stands directly in a body around
it. -/
def Visible (sheet : Sheet) (name : String) (site : Site) : Prop :=
  ∃ origin a, sheet.itemAt? origin = some (.assignment a) ∧ a.name = name ∧ origin.Reaches site

def Barred (sheet : Sheet) (site : Site) (way : List Hand) : Prop :=
  ∃ item, sheet.itemAt? site = some item ∧ item.expr.Barred way

end Sheet

section Lookups

theorem Item.assignment?_eq_some {item : Item} {a : Assignment} :
    item.assignment? = some a ↔ item = .assignment a := by
  cases item <;> simp [assignment?]

theorem Member.assignment?_eq_some {member : Member} {a : Assignment} :
    member.assignment? = some a ↔ member = .assignment a := by
  cases member <;> simp [assignment?]

theorem Member.rule?_eq_some {member : Member} {r : Rule} :
    member.rule? = some r ↔ member = .rule r := by
  cases member <;> simp [rule?]

theorem Sheet.itemAt?_top {sheet : Sheet} {number : Nat} {item : Item} :
    sheet.itemAt? (.top number) = some item ↔
      ∃ a, sheet.members[number]? = some (.assignment a) ∧ item = .assignment a := by
  simp only [itemAt?, Option.map_eq_some_iff, Option.bind_eq_some_iff,
    Member.assignment?_eq_some, exists_eq_right]
  constructor
  · rintro ⟨a, hm, rfl⟩
    exact ⟨a, hm, rfl⟩
  · rintro ⟨a, hm, rfl⟩
    exact ⟨a, hm, rfl⟩

theorem Sheet.itemAt?_inRule {sheet : Sheet} {number : Nat} {place : Place} {item : Item} :
    sheet.itemAt? (.inRule number place) = some item ↔
      ∃ r, sheet.members[number]? = some (.rule r) ∧
        TypedStyle.itemAt? place r.body = some item := by
  simp [itemAt?, Option.bind_eq_some_iff, Member.rule?_eq_some]

end Lookups

section Clean

theorem clean_itemSlots_iff {items : List Item} :
    Clean (itemSlots items) ↔ ∀ item ∈ items, Clean item.slots := by
  induction items with
  | nil => simp [itemSlots]
  | cons item items ih => simp [itemSlots, ih]

theorem clean_of_mem {items : List Item} {item : Item} (hc : Clean (itemSlots items))
    (h : item ∈ items) : Clean item.slots :=
  clean_itemSlots_iff.mp hc item h

theorem clean_of_side? {item : Item} {side : Side} {inner : List Item} (hc : Clean item.slots)
    (h : item.side? side = some inner) : Clean (itemSlots inner) := by
  cases item with
  | branch condition body alternative fault =>
    simp only [Item.slots, Clean.append_iff] at hc
    cases side with
    | body =>
      cases h
      exact hc.1.2
    | alternative =>
      obtain rfl : alternative = some inner := h
      exact hc.2
  | _ => cases h

theorem clean_of_itemAt? {place : Place} {items : List Item} {item : Item}
    (hc : Clean (itemSlots items)) (h : itemAt? place items = some item) : Clean item.slots := by
  induction place generalizing items with
  | here index => exact clean_of_mem hc (List.mem_of_getElem? h)
  | inside index side place ih =>
    obtain ⟨inner, hi, hp⟩ := Option.bind_eq_some_iff.mp h
    obtain ⟨branch, hb, hs⟩ := Option.bind_eq_some_iff.mp hi
    exact ih (clean_of_side? (clean_of_mem hc (List.mem_of_getElem? hb)) hs) hp

theorem Item.clean_expr {item : Item} (hc : Clean item.slots) : Clean item.expr.slots := by
  cases item with
  | declaration d => exact (Clean.cons_iff.mp hc).2
  | assignment a => exact hc
  | branch condition body alternative fault =>
    simp only [slots, List.cons_append, Clean.append_iff, Clean.cons_iff] at hc
    exact hc.2.1.1

theorem Sheet.clean_of_itemAt? {sheet : Sheet} {site : Site} {item : Item}
    (hc : Clean sheet.slots) (h : sheet.itemAt? site = some item) : Clean item.slots := by
  have hmember : ∀ (number : Nat) (member : Member), sheet.members[number]? = some member →
      Clean member.slots := by
    intro number member hm slot hs
    exact hc slot (List.mem_flatMap.mpr ⟨member, List.mem_of_getElem? hm, hs⟩)
  cases site with
  | top number =>
    obtain ⟨a, hm, rfl⟩ := itemAt?_top.mp h
    exact hmember number _ hm
  | inRule number place =>
    obtain ⟨r, hm, hi⟩ := itemAt?_inRule.mp h
    exact TypedStyle.clean_of_itemAt? (hmember number _ hm) hi

end Clean

def Assigned (assignments : List Assignment) (name : String) : Prop :=
  ∃ a ∈ assignments, a.name = name

@[simp]
theorem assigned_nil (name : String) : ¬Assigned [] name := by
  simp [Assigned]

@[simp]
theorem assigned_cons {a : Assignment} {assignments : List Assignment} {name : String} :
    Assigned (a :: assignments) name ↔ a.name = name ∨ Assigned assignments name := by
  simp [Assigned]

theorem assigned_take_iff {α : Type} {assignment? : α → Option Assignment} {entries : List α}
    {index : Nat} {name : String} :
    Assigned ((entries.take index).filterMap assignment?) name ↔ ∃ i entry a, i < index ∧
      entries[i]? = some entry ∧ assignment? entry = some a ∧ a.name = name := by
  simp only [Assigned, List.mem_filterMap]
  simp only [List.mem_iff_getElem?, List.getElem?_take]
  constructor
  · rintro ⟨a, ⟨entry, ⟨i, h⟩, ha⟩, hn⟩
    split at h
    · next hi => exact ⟨i, entry, a, hi, h, ha, hn⟩
    · cases h
  · rintro ⟨i, entry, a, hi, h, ha, hn⟩
    exact ⟨a, ⟨entry, ⟨i, by rw [if_pos hi, h]⟩, ha⟩, hn⟩

def VisibleAmong (items : List Item) (name : String) (place : Place) : Prop :=
  ∃ origin a, itemAt? origin items = some (.assignment a) ∧ a.name = name ∧ origin.Reaches place

section Visible

variable {items : List Item} {index number : Nat} {name : String} {side : Side} {place : Place}
  {sheet : Sheet}

theorem visibleAmong_here : VisibleAmong items name (.here index) ↔
    Assigned ((items.take index).filterMap Item.assignment?) name := by
  simp only [assigned_take_iff, Item.assignment?_eq_some]
  constructor
  · rintro ⟨origin, a, h, hn, hr⟩
    cases origin with
    | here i => exact ⟨i, _, a, hr, h, rfl, hn⟩
    | inside => cases hr
  · rintro ⟨i, _, a, hi, h, rfl, hn⟩
    exact ⟨.here i, a, h, hn, hi⟩

theorem visibleAmong_inside : VisibleAmong items name (.inside index side place) ↔
    Assigned ((items.take index).filterMap Item.assignment?) name ∨
      ∃ inner, items[index]?.bind (Item.side? side) = some inner ∧
        VisibleAmong inner name place := by
  simp only [assigned_take_iff, Item.assignment?_eq_some]
  constructor
  · rintro ⟨origin, a, h, hn, hr⟩
    cases origin with
    | here i => exact .inl ⟨i, _, a, hr, h, rfl, hn⟩
    | inside i other origin =>
      obtain ⟨rfl, rfl, hr⟩ := hr
      obtain ⟨inner, hi, ho⟩ := Option.bind_eq_some_iff.mp h
      exact .inr ⟨inner, hi, origin, a, ho, hn, hr⟩
  · rintro (⟨i, _, a, hi, h, rfl, hn⟩ | ⟨inner, hi, origin, a, h, hn, hr⟩)
    · exact ⟨.here i, a, h, hn, hi⟩
    · exact ⟨.inside index side origin, a, by rw [itemAt?, hi]; exact h, hn, rfl, rfl, hr⟩

namespace Sheet

theorem visible_top : sheet.Visible name (.top number) ↔
    Assigned ((sheet.members.take number).filterMap Member.assignment?) name := by
  simp only [assigned_take_iff, Member.assignment?_eq_some]
  constructor
  · rintro ⟨origin, a, h, hn, hr⟩
    cases origin with
    | top m =>
      obtain ⟨_, hm, he⟩ := itemAt?_top.mp h
      cases he
      exact ⟨m, _, a, hr, hm, rfl, hn⟩
    | inRule => cases hr
  · rintro ⟨m, _, a, hm, h, rfl, hn⟩
    exact ⟨.top m, a, itemAt?_top.mpr ⟨a, h, rfl⟩, hn, hm⟩

theorem visible_inRule : sheet.Visible name (.inRule number place) ↔
    Assigned ((sheet.members.take number).filterMap Member.assignment?) name ∨
      ∃ r, sheet.members[number]? = some (.rule r) ∧ VisibleAmong r.body name place := by
  simp only [assigned_take_iff, Member.assignment?_eq_some]
  constructor
  · rintro ⟨origin, a, h, hn, hr⟩
    cases origin with
    | top m =>
      obtain ⟨_, hm, he⟩ := itemAt?_top.mp h
      cases he
      exact .inl ⟨m, _, a, hr, hm, rfl, hn⟩
    | inRule m origin =>
      obtain ⟨rfl, hr⟩ := hr
      obtain ⟨r, hm, ho⟩ := itemAt?_inRule.mp h
      exact .inr ⟨r, hm, origin, a, ho, hn, hr⟩
  · rintro (⟨m, _, a, hm, h, rfl, hn⟩ | ⟨r, hm, origin, a, h, hn, hr⟩)
    · exact ⟨.top m, a, itemAt?_top.mpr ⟨a, h, rfl⟩, hn, hm⟩
    · exact ⟨.inRule number origin, a, itemAt?_inRule.mpr ⟨r, hm, h⟩, hn, rfl, hr⟩

end Sheet

end Visible

end TypedStyle
