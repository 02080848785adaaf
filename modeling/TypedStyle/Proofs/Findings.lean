import TypedStyle.Proofs.Cascades
import TypedStyle.Proofs.Compiling
import TypedStyle.Proofs.Entries
import TypedStyle.Proofs.Stopping

set_option autoImplicit false

namespace TypedStyle

structure Slot where
  label : String
  fault : Option Fault
  deriving Repr, DecidableEq

/-- The node of an item that has a slot: the item itself, or the part of its expression at the end
of a way. -/
inductive Holder where
  | item
  | part (way : List Hand)
  deriving Repr, DecidableEq

structure Address (σ : Type) where
  place : σ
  holder : Holder
  deriving Repr, DecidableEq

namespace Expr

def label : Expr → String
  | .literal value _ => "Literal (" ++ value.text ++ ")"
  | .reference name _ => "VariableReference (" ++ name ++ ")"
  | .operation op _ _ _ => "Operation (" ++ op.symbol ++ ")"

def slot (expr : Expr) : Slot :=
  ⟨expr.label, expr.fault⟩

end Expr

/-- Assignments have no slot of their own. -/
def Item.slotAt? : Holder → Item → Option Slot
  | .item, .declaration d => some ⟨"Declaration (" ++ d.property ++ ")", d.fault⟩
  | .item, .assignment _ => none
  | .item, .branch _ _ _ fault => some ⟨"IfClause", fault⟩
  | .part way, item => (item.expr.at? way).map Expr.slot

def slotIn? {σ : Type} (lookUp : σ → Option Item) (address : Address σ) : Option Slot :=
  (lookUp address.place).bind (Item.slotAt? address.holder)

def Sheet.slotAt? (sheet : Sheet) (address : Address Site) : Option Slot :=
  slotIn? sheet.itemAt? address

/-- An operation comes before its sides, and the left one before the right one. -/
def Hand.Before : List Hand → List Hand → Prop
  | _, [] => False
  | [], _ :: _ => True
  | hand :: way, other :: way' => hand = .left ∧ other = .right ∨ hand = other ∧ Before way way'

def Holder.Before : Holder → Holder → Prop
  | _, .item => False
  | .item, .part _ => True
  | .part way, .part way' => Hand.Before way way'

def Address.Before {σ : Type} (before : σ → σ → Prop) (address later : Address σ) : Prop :=
  before address.place later.place ∨
    address.place = later.place ∧ address.holder.Before later.holder

section Order

theorem Hand.not_before_self (way : List Hand) : ¬Hand.Before way way := by
  induction way with
  | nil => exact id
  | cons hand way ih => cases hand <;> simpa [Before] using ih

theorem Holder.not_before_self (holder : Holder) : ¬holder.Before holder := by
  cases holder with
  | item => exact id
  | part way => exact Hand.not_before_self way

theorem Place.not_before_self (place : Place) : ¬place.Before place := by
  induction place with
  | here index => exact Nat.lt_irrefl index
  | inside index side place ih => rwa [before_inside_iff]

theorem Site.before_inRule_iff {number : Nat} {place later : Place} :
    (inRule number place).Before (.inRule number later) ↔ place.Before later := by
  simp [Before]

theorem Site.not_before_self (site : Site) : ¬site.Before site := by
  cases site with
  | top number => exact Nat.lt_irrefl number
  | inRule number place =>
    rw [before_inRule_iff]
    exact place.not_before_self

theorem Address.not_before_self {σ : Type} {before : σ → σ → Prop}
    (h : ∀ place, ¬before place place) (address : Address σ) : ¬address.Before before address := by
  rintro (hb | ⟨-, hb⟩)
  · exact h _ hb
  · exact Holder.not_before_self _ hb

theorem Place.before_of_index_lt {place later : Place} (h : place.index < later.index) :
    place.Before later := by
  cases place <;> cases later <;> simp only [Before, index] at h ⊢ <;> omega

theorem Site.before_of_number_lt {site later : Site} (h : site.number < later.number) :
    site.Before later := by
  cases site <;> cases later <;> simp only [Before, number] at h ⊢ <;> omega

end Order

def Slot.diagnostic? (slot : Slot) : Option Diagnostic :=
  slot.fault.map (⟨slot.label, ·⟩)

def Fills (slot? : Option Slot) (d : Diagnostic) : Prop :=
  slot? = some ⟨d.node, some d.fault⟩

theorem fills_iff {slot? : Option Slot} {d : Diagnostic} :
    Fills slot? d ↔ slot?.bind Slot.diagnostic? = some d := by
  obtain ⟨node, fault⟩ := d
  cases slot? with
  | none => simp [Fills]
  | some slot =>
    obtain ⟨label, found⟩ := slot
    simp [Fills, Slot.diagnostic?, Option.map_eq_some_iff, and_comm]

namespace Outline

def diagnostics (outlines : List Outline) (depth : Nat) : List Diagnostic :=
  (walkAll depth outlines).filterMap Visit.diagnostic?

variable {depth : Nat}

@[simp]
theorem diagnostics_nil : diagnostics [] depth = [] := rfl

theorem diagnostics_node (label : String) (fault : Option Fault) (parts : List Outline) :
    diagnostics [.node label fault parts] depth =
      (Slot.diagnostic? ⟨label, fault⟩).toList ++ diagnostics parts (depth + 1) := by
  rw [diagnostics, walkAll, walkAll, walk, List.append_nil]
  cases fault <;> rfl

@[simp]
theorem diagnostics_append (outlines rest : List Outline) (depth : Nat) :
    diagnostics (outlines ++ rest) depth =
      diagnostics outlines depth ++ diagnostics rest depth := by
  rw [diagnostics, walkAll_append, List.filterMap_append, diagnostics, diagnostics]

theorem diagnostics_cons (outline : Outline) (rest : List Outline) (depth : Nat) :
    diagnostics (outline :: rest) depth = diagnostics [outline] depth ++ diagnostics rest depth :=
  diagnostics_append [outline] rest depth

end Outline

open Outline

namespace Expr

theorem collects_leaf {expr : Expr} (h : ∀ hand way, expr.at? (hand :: way) = none) :
    Collects Hand.Before (fun way d => Fills ((expr.at? way).map slot) d)
      (Slot.diagnostic? expr.slot).toList := by
  have hself : Collects Hand.Before _ _ := .option [] (Slot.diagnostic? expr.slot)
  refine hself.congr fun way d => ?_
  cases way with
  | nil => simp [at?, fills_iff]
  | cons hand way => simp [h, fills_iff]

theorem collects (expr : Expr) (depth : Nat) :
    Collects Hand.Before (fun way d => Fills ((expr.at? way).map slot) d)
      (diagnostics [expr.outline] depth) := by
  induction expr generalizing depth with
  | literal value fault =>
    rw [outline, diagnostics_node, diagnostics_nil, List.append_nil]
    exact collects_leaf fun hand way => rfl
  | reference name fault =>
    rw [outline, diagnostics_node, diagnostics_nil, List.append_nil]
    exact collects_leaf fun hand way => rfl
  | operation op left right fault ihl ihr =>
    rw [outline, diagnostics_node, diagnostics_cons]
    have hself : Collects Hand.Before _ _ :=
      .option [] (Slot.diagnostic? (operation op left right fault).slot)
    have hleft : Collects Hand.Before _ _ :=
      (ihl (depth + 1)).under (Hand.left :: ·) fun way later h => .inr ⟨rfl, h⟩
    have hright : Collects Hand.Before _ _ :=
      (ihr (depth + 1)).under (Hand.right :: ·) fun way later h => .inr ⟨rfl, h⟩
    have hsides := hleft.append hright (by
      rintro _ _ _ _ ⟨way, rfl, -⟩ ⟨later, rfl, -⟩
      exact .inl ⟨rfl, rfl⟩)
    have hall := hself.append hsides (by
      rintro _ _ _ _ ⟨rfl, -⟩ (⟨way, rfl, -⟩ | ⟨way, rfl, -⟩)
      · trivial
      · trivial)
    refine hall.congr fun way d => ?_
    rcases way with _ | ⟨_ | _, way⟩
    · simp [at?, fills_iff]
    · simp [at?, Hand.side]
    · simp [at?, Hand.side]

end Expr

def Item.ownDiagnostics (item : Item) (depth : Nat) : List Diagnostic :=
  ((item.slotAt? .item).bind Slot.diagnostic?).toList ++ diagnostics [item.expr.outline] depth

def Item.sideDiagnostics (item : Item) (side : Side) (depth : Nat) : List Diagnostic :=
  match item.side? side with
  | none => []
  | some inner => diagnostics (outlineItems inner) depth

theorem Item.collects (item : Item) (depth : Nat) :
    Collects Holder.Before (fun holder d => Fills (item.slotAt? holder) d)
      (item.ownDiagnostics depth) := by
  have hself : Collects Holder.Before _ _ :=
    .option .item ((item.slotAt? .item).bind Slot.diagnostic?)
  have hparts : Collects Holder.Before _ _ :=
    (item.expr.collects depth).under Holder.part fun way later h => h
  have hall := hself.append hparts (by
    rintro _ _ _ _ ⟨rfl, -⟩ ⟨way, rfl, -⟩
    trivial)
  refine hall.congr fun holder d => ?_
  cases holder with
  | item => simp [fills_iff]
  | part way => simp [slotAt?]

theorem Item.diagnostics_outline (item : Item) (depth : Nat) :
    diagnostics [item.outline] depth = item.ownDiagnostics (depth + 1) ++
      (item.sideDiagnostics .body (depth + 1) ++
        item.sideDiagnostics .alternative (depth + 2)) := by
  cases item with
  | declaration d =>
    rw [outline, Declaration.outline, diagnostics_node]
    simp [ownDiagnostics, sideDiagnostics, slotAt?, side?, expr]
  | assignment a =>
    rw [outline, Assignment.outline, diagnostics_node]
    simp [ownDiagnostics, sideDiagnostics, slotAt?, side?, expr, Slot.diagnostic?]
  | branch condition body alternative fault =>
    rw [outline, diagnostics_node, List.cons_append, diagnostics_cons, diagnostics_append]
    cases alternative with
    | none => simp [ownDiagnostics, sideDiagnostics, slotAt?, side?, Side.items?, expr, outlineElse]
    | some other =>
      rw [outlineElse, diagnostics_node]
      simp [ownDiagnostics, sideDiagnostics, slotAt?, side?, Side.items?, expr, Slot.diagnostic?]

def Address.map {σ τ : Type} (outward : σ → τ) (address : Address σ) : Address τ :=
  ⟨outward address.place, address.holder⟩

theorem Address.Before.map {σ τ : Type} {before : σ → σ → Prop} {outer : τ → τ → Prop}
    {outward : σ → τ} {address later : Address σ} (h : address.Before before later)
    (ho : ∀ place later, before place later → outer (outward place) (outward later)) :
    (address.map outward).Before outer (later.map outward) := by
  rcases h with h | ⟨h, hholder⟩
  · exact .inl (ho _ _ h)
  · exact .inr ⟨congrArg outward h, hholder⟩

def Scans {σ : Type} (before : σ → σ → Prop) (lookUp : σ → Option Item)
    (results : List Diagnostic) : Prop :=
  Collects (Address.Before before) (fun address d => Fills (slotIn? lookUp address) d) results

/-- The whole has the items of the head, and those of the rest at later places. -/
structure Joins {σ : Type} (before : σ → σ → Prop) (later : σ → σ)
    (head rest whole : σ → Option Item) : Prop where
  whole_later : ∀ place, whole (later place) = rest place
  head_later : ∀ place, head (later place) = none
  whole_head : ∀ place, (∃ inner, place = later inner) ∨ whole place = head place
  before_later : ∀ place other item, head place = some item → before place (later other)
  mono : ∀ place other, before place other → before (later place) (later other)

section Joins

variable {σ : Type} {before : σ → σ → Prop} {later : σ → σ} {head rest whole : σ → Option Item}
  {address : Address σ} {d : Diagnostic} {results more : List Diagnostic}

theorem slotIn?_of_none {lookUp : σ → Option Item} (h : lookUp address.place = none) :
    slotIn? lookUp address = none := by
  rw [slotIn?, h, Option.bind_none]

theorem Joins.fills_iff (h : Joins before later head rest whole) :
    Fills (slotIn? whole address) d ↔ Fills (slotIn? head address) d ∨
      ∃ inner, address = inner.map later ∧ Fills (slotIn? rest inner) d := by
  have hrest : ∀ inner : Address σ, slotIn? whole (inner.map later) = slotIn? rest inner :=
    fun inner => congrArg (Option.bind · _) (h.whole_later inner.place)
  obtain ⟨place, holder⟩ := address
  constructor
  · intro hd
    rcases h.whole_head place with ⟨inner, rfl⟩ | hhead
    · exact .inr ⟨⟨inner, holder⟩, rfl, hrest ⟨inner, holder⟩ ▸ hd⟩
    · rw [slotIn?, hhead] at hd
      exact .inl hd
  · rintro (hd | ⟨inner, hi, hd⟩)
    · rcases h.whole_head place with ⟨inner, rfl⟩ | hhead
      · rw [slotIn?_of_none (h.head_later inner)] at hd
        cases hd
      · rwa [slotIn?, hhead]
    · rwa [hi, hrest]

theorem Joins.scans (h : Joins before later head rest whole) (hh : Scans before head results)
    (hr : Scans before rest more) : Scans before whole (results ++ more) := by
  have hlater : Collects (Address.Before before) _ more :=
    hr.under (Address.map later) fun address other hb => hb.map h.mono
  refine (hh.append hlater ?_).congr fun address d => h.fills_iff.symm
  rintro address _ d _ hhead ⟨inner, rfl, -⟩
  obtain ⟨item, hi, -⟩ := Option.bind_eq_some_iff.mp hhead
  exact .inl (h.before_later _ _ item hi)

end Joins

def Place.later : Place → Place
  | .here index => .here (index + 1)
  | .inside index side place => .inside (index + 1) side place

theorem Place.index_later (place : Place) : place.later.index = place.index + 1 := by
  cases place <;> rfl

theorem Place.Before.later {place other : Place} (h : place.Before other) :
    place.later.Before other.later := by
  cases place <;> cases other <;> simpa [Place.Before, Place.later] using h

theorem Place.exists_later (place : Place) :
    (∃ inner, place = .later inner) ∨ place = .here 0 ∨
      ∃ side inner, place = .inside 0 side inner := by
  cases place with
  | here index =>
    cases index with
    | zero => exact .inr (.inl rfl)
    | succ index => exact .inl ⟨.here index, rfl⟩
  | inside index side inner =>
    cases index with
    | zero => exact .inr (.inr ⟨side, inner, rfl⟩)
    | succ index => exact .inl ⟨.inside index side inner, rfl⟩

theorem itemAt?_nil (place : Place) : itemAt? place [] = none := by
  cases place <;> rfl

theorem itemAt?_later (place : Place) (head : Item) (rest : List Item) :
    itemAt? place.later (head :: rest) = itemAt? place rest := by
  cases place <;> rfl

theorem joins_items (head : Item) (rest : List Item) :
    Joins Place.Before Place.later (itemAt? · [head]) (itemAt? · rest)
      (itemAt? · (head :: rest)) where
  whole_later place := itemAt?_later place head rest
  head_later place := (itemAt?_later place head []).trans (itemAt?_nil place)
  whole_head place := by
    rcases place.exists_later with h | rfl | ⟨side, inner, rfl⟩
    · exact .inl h
    · exact .inr rfl
    · exact .inr rfl
  before_later place other item h := by
    refine Place.before_of_index_lt ?_
    rw [Place.index_later]
    rcases place.exists_later with ⟨inner, rfl⟩ | rfl | ⟨side, inner, rfl⟩
    · cases h.symm.trans ((itemAt?_later inner head []).trans (itemAt?_nil inner))
    · exact Nat.succ_pos _
    · exact Nat.succ_pos _
  mono place other := Place.Before.later

def ScansBody (items : List Item) (results : List Diagnostic) : Prop :=
  Scans Place.Before (itemAt? · items) results

namespace ScansBody

variable {head : Item}

theorem fills_single_iff {address : Address Place} {d : Diagnostic} :
    Fills (slotIn? (itemAt? · [head]) address) d ↔
    (∃ holder, address = ⟨.here 0, holder⟩ ∧ Fills (head.slotAt? holder) d) ∨
      ∃ side inner within, head.side? side = some inner ∧
        address = Address.map (.inside 0 side) within ∧
        Fills (slotIn? (itemAt? · inner) within) d := by
  constructor
  · intro h
    obtain ⟨place, holder⟩ := address
    rcases place.exists_later with ⟨inner, rfl⟩ | rfl | ⟨side, place, rfl⟩
    · rw [slotIn?_of_none ((itemAt?_later inner head []).trans (itemAt?_nil inner))] at h
      cases h
    · exact .inl ⟨holder, rfl, h⟩
    · obtain ⟨item, hi, hs⟩ := Option.bind_eq_some_iff.mp h
      obtain ⟨inner, hside, hplace⟩ := Option.bind_eq_some_iff.mp hi
      exact .inr ⟨side, inner, ⟨place, holder⟩, hside, rfl,
        Option.bind_eq_some_iff.mpr ⟨item, hplace, hs⟩⟩
  · rintro (⟨holder, rfl, h⟩ | ⟨side, inner, ⟨place, holder⟩, hside, rfl, h⟩)
    · exact h
    · have hinner : itemAt? (.inside 0 side place) [head] = itemAt? place inner :=
        congrArg (Option.bind · _) hside
      rwa [Address.map, slotIn?, hinner]

theorem nil : ScansBody [] [] := by
  refine Collects.nil fun address d h => ?_
  rw [slotIn?_of_none (itemAt?_nil address.place)] at h
  cases h

theorem side {side : Side}
    (h : ∀ inner, head.side? side = some inner → ∀ depth,
      ScansBody inner (diagnostics (outlineItems inner) depth)) (depth : Nat) :
    Collects (Address.Before Place.Before)
      (fun address d => ∃ inner within, head.side? side = some inner ∧
        address = Address.map (.inside 0 side) within ∧
        Fills (slotIn? (itemAt? · inner) within) d)
      (head.sideDiagnostics side depth) := by
  rw [Item.sideDiagnostics]
  cases hs : head.side? side with
  | none => exact .nil (by simp)
  | some inner =>
    have hinside : Collects (Address.Before Place.Before) _ _ :=
      (h inner hs depth).under (Address.map (.inside 0 side)) fun address later hb =>
        hb.map fun _ _ => Place.before_inside_iff.mpr
    exact hinside.congr fun address d => by simp

theorem single
    (h : ∀ side inner, head.side? side = some inner → ∀ depth,
      ScansBody inner (diagnostics (outlineItems inner) depth)) (depth : Nat) :
    ScansBody [head] (diagnostics [head.outline] depth) := by
  rw [head.diagnostics_outline]
  have hown : Collects (Address.Before Place.Before) _ _ :=
    (head.collects (depth + 1)).under (Address.mk (.here 0)) fun holder later hb => .inr ⟨rfl, hb⟩
  have hsides := (side (h .body) (depth + 1)).append (side (h .alternative) (depth + 2)) (by
    rintro _ _ _ _ ⟨_, within, -, rfl, -⟩ ⟨_, later, -, rfl, -⟩
    exact .inl (.inr ⟨rfl, .inl ⟨rfl, rfl⟩⟩))
  have hall := hown.append hsides (by
    rintro _ _ _ _ ⟨holder, rfl, -⟩ (⟨_, within, -, rfl, -⟩ | ⟨_, within, -, rfl, -⟩)
    · exact .inl (Nat.le_refl 0)
    · exact .inl (Nat.le_refl 0))
  refine hall.congr fun address d => ?_
  rw [fills_single_iff]
  refine or_congr_right ⟨?_, ?_⟩
  · rintro (h | h)
    · exact ⟨.body, h⟩
    · exact ⟨.alternative, h⟩
  · rintro ⟨side | side, h⟩
    · exact .inl h
    · exact .inr h

theorem of_outline (items : List Item) (depth : Nat) :
    ScansBody items (diagnostics (outlineItems items) depth) := by
  induction items using bodyInduction generalizing depth with
  | nil => exact nil
  | declaration d rest ih =>
    rw [outlineItems, diagnostics_cons]
    exact (joins_items _ rest).scans (single (fun side inner h => by cases h) depth) (ih depth)
  | assignment a rest ih =>
    rw [outlineItems, diagnostics_cons]
    exact (joins_items _ rest).scans (single (fun side inner h => by cases h) depth) (ih depth)
  | branch condition body alternative fault rest hb ha ih =>
    rw [outlineItems, diagnostics_cons]
    refine (joins_items _ rest).scans (single (fun side inner h => ?_) depth) (ih depth)
    cases side with
    | body =>
      cases h
      exact hb
    | alternative => exact ha inner h

end ScansBody

def Site.later : Site → Site
  | .top number => .top (number + 1)
  | .inRule number place => .inRule (number + 1) place

theorem Site.number_later (site : Site) : site.later.number = site.number + 1 := by
  cases site <;> rfl

theorem Site.Before.later {site other : Site} (h : site.Before other) :
    site.later.Before other.later := by
  cases site <;> cases other <;> simpa [Site.Before, Site.later, Site.number] using h

theorem Site.exists_later (site : Site) :
    (∃ inner, site = .later inner) ∨ site = .top 0 ∨ ∃ place, site = .inRule 0 place := by
  cases site with
  | top number =>
    cases number with
    | zero => exact .inr (.inl rfl)
    | succ number => exact .inl ⟨.top number, rfl⟩
  | inRule number place =>
    cases number with
    | zero => exact .inr (.inr ⟨place, rfl⟩)
    | succ number => exact .inl ⟨.inRule number place, rfl⟩

namespace Sheet

theorem itemAt?_nil (site : Site) : itemAt? ⟨[]⟩ site = none := by
  cases site <;> rfl

theorem itemAt?_later (site : Site) (head : Member) (rest : List Member) :
    itemAt? ⟨head :: rest⟩ site.later = itemAt? ⟨rest⟩ site := by
  cases site <;> rfl

theorem joins_members (head : Member) (rest : List Member) :
    Joins Site.Before Site.later (itemAt? ⟨[head]⟩) (itemAt? ⟨rest⟩) (itemAt? ⟨head :: rest⟩) where
  whole_later site := itemAt?_later site head rest
  head_later site := (itemAt?_later site head []).trans (itemAt?_nil site)
  whole_head site := by
    rcases site.exists_later with h | rfl | ⟨place, rfl⟩
    · exact .inl h
    · exact .inr rfl
    · exact .inr rfl
  before_later site other item h := by
    refine Site.before_of_number_lt ?_
    rw [Site.number_later]
    rcases site.exists_later with ⟨inner, rfl⟩ | rfl | ⟨place, rfl⟩
    · cases h.symm.trans ((itemAt?_later inner head []).trans (itemAt?_nil inner))
    · exact Nat.succ_pos _
    · exact Nat.succ_pos _
  mono site other := Site.Before.later

theorem fills_rule_iff {r : Rule} {address : Address Site} {d : Diagnostic} :
    Fills (slotIn? (itemAt? ⟨[.rule r]⟩) address) d ↔
      ∃ inner, address = Address.map (.inRule 0) inner ∧
        Fills (slotIn? (TypedStyle.itemAt? · r.body) inner) d := by
  constructor
  · intro h
    obtain ⟨site, holder⟩ := address
    rcases site.exists_later with ⟨inner, rfl⟩ | rfl | ⟨place, rfl⟩
    · rw [slotIn?_of_none ((itemAt?_later inner _ []).trans (itemAt?_nil inner))] at h
      cases h
    · cases h
    · exact ⟨⟨place, holder⟩, rfl, h⟩
  · rintro ⟨inner, rfl, h⟩
    exact h

theorem fills_assignment_iff {a : Assignment} {address : Address Site} {d : Diagnostic} :
    Fills (slotIn? (itemAt? ⟨[.assignment a]⟩) address) d ↔
      ∃ holder, address = ⟨.top 0, holder⟩ ∧ Fills ((Item.assignment a).slotAt? holder) d := by
  constructor
  · intro h
    obtain ⟨site, holder⟩ := address
    rcases site.exists_later with ⟨inner, rfl⟩ | rfl | ⟨place, rfl⟩
    · rw [slotIn?_of_none ((itemAt?_later inner _ []).trans (itemAt?_nil inner))] at h
      cases h
    · exact ⟨holder, rfl, h⟩
    · cases h
  · rintro ⟨holder, rfl, h⟩
    exact h

end Sheet

theorem diagnostics_selectors (selectors : List Selector) (depth : Nat) :
    diagnostics (selectors.map Selector.outline) depth = [] := by
  have hfaults := faults_selectors selectors depth
  simpa [faults, diagnostics, Visit.diagnostic?] using hfaults

theorem Member.scans (member : Member) (depth : Nat) :
    Scans Site.Before (Sheet.itemAt? ⟨[member]⟩) (diagnostics [member.outline] depth) := by
  cases member with
  | rule r =>
    have hbody : Collects (Address.Before Site.Before) _ _ :=
      (ScansBody.of_outline r.body (depth + 1)).under (Address.map (.inRule 0))
        fun address later hb => hb.map fun _ _ => Site.before_inRule_iff.mpr
    rw [outline, Rule.outline, diagnostics_node, diagnostics_append, diagnostics_selectors]
    exact hbody.congr fun address d => Sheet.fills_rule_iff.symm
  | assignment a =>
    have hown : Collects (Address.Before Site.Before) _ _ :=
      ((Item.assignment a).collects (depth + 1)).under (Address.mk (.top 0))
        fun holder later hb => .inr ⟨rfl, hb⟩
    have houtline : diagnostics [a.outline] depth =
        (Item.assignment a).ownDiagnostics (depth + 1) :=
      ((Item.assignment a).diagnostics_outline depth).trans (List.append_nil _)
    rw [outline, houtline]
    exact hown.congr fun address d => Sheet.fills_assignment_iff.symm

theorem scans_members (members : List Member) (depth : Nat) :
    Scans Site.Before (Sheet.itemAt? ⟨members⟩)
      (diagnostics (members.map Member.outline) depth) := by
  induction members with
  | nil =>
    refine Collects.nil fun address d h => ?_
    rw [slotIn?_of_none (Sheet.itemAt?_nil address.place)] at h
    cases h
  | cons member members ih =>
    rw [List.map_cons, diagnostics_cons]
    exact (Sheet.joins_members member members).scans (member.scans depth) ih

theorem Scans.eq_nil_iff {σ : Type} {before : σ → σ → Prop} {lookUp : σ → Option Item}
    {results : List Diagnostic} (h : Scans before lookUp results) :
    results = [] ↔ ∀ address slot, slotIn? lookUp address = some slot → slot.fault = none := by
  obtain ⟨entries, rfl, -, hm⟩ := h
  rw [List.map_eq_nil_iff]
  constructor
  · rintro rfl address ⟨label, fault⟩ hslot
    cases fault with
    | none => rfl
    | some fault => cases (hm address ⟨label, fault⟩).mpr hslot
  · intro h
    refine List.eq_nil_iff_forall_not_mem.mpr fun ⟨address, d⟩ hd => ?_
    cases h address _ ((hm address d).mp hd)

namespace Sheet

theorem scans (sheet : Sheet) : Scans Site.Before sheet.itemAt? sheet.diagnostics := by
  have hwalk : sheet.diagnostics = Outline.diagnostics [sheet.outline] 0 := by
    rw [diagnostics, Outline.diagnostics, walkAll, walkAll, List.append_nil]
  rw [hwalk, outline, diagnostics_node]
  exact scans_members sheet.members 1

/-- A tree passes the check of a source just if no slot of the checked tree holds a fault. -/
theorem diagnostics_exact (sheet : Sheet) :
    (∃ entries : List (Address Site × Diagnostic), sheet.diagnostics = entries.map Prod.snd ∧
      (entries.map Prod.fst).Nodup ∧
      (entries.map Prod.fst).Pairwise (Address.Before Site.Before) ∧
      ∀ address d, (address, d) ∈ entries ↔
        sheet.slotAt? address = some ⟨d.node, some d.fault⟩) ∧
    (sheet.hasFaults = false ↔
      ∀ address slot, sheet.slotAt? address = some slot → slot.fault = none) ∧
    ∀ source options, readSheet source options.file = .ok sheet →
      ∀ checked, checkSource source options = .ok checked ↔ checked = sheet.check ∧
        ∀ address slot, checked.slotAt? address = some slot → slot.fault = none := by
  refine ⟨?_, ?_, fun source options hread checked => ?_⟩
  · exact sheet.scans.exists_nodup (Address.not_before_self Site.not_before_self)
  · rw [hasFaults, Bool.not_eq_false', List.isEmpty_iff]
    exact sheet.scans.eq_nil_iff
  · have hempty := sheet.check.scans.eq_nil_iff
    rw [checkSource, hread]
    dsimp only
    constructor
    · intro h
      cases hd : sheet.check.diagnostics with
      | nil =>
        rw [hd] at h
        cases h
        exact ⟨rfl, hempty.mp hd⟩
      | cons d ds =>
        rw [hd] at h
        cases h
    · rintro ⟨rfl, hclear⟩
      rw [hempty.mpr hclear]

/-- A branch is met before its condition, and both of them before its body. -/
example :
    let condition : Expr := .operation .add (.reference "a" (some (.undefinedVariable "a")))
      (.literal (.bool true)) (some (.illegalOperand "TRUE"))
    let body : List Item := [.declaration ⟨"b", .reference "c", some (.unknownProperty "b")⟩]
    let branch : Item := .branch condition body none (some (.invalidConditional .undefined))
    diagnostics ⟨[.rule ⟨[.tag "p"], [branch]⟩]⟩ =
      [⟨"IfClause", .invalidConditional .undefined⟩, ⟨"Operation (+)", .illegalOperand "TRUE"⟩,
        ⟨"VariableReference (a)", .undefinedVariable "a"⟩,
        ⟨"Declaration (b)", .unknownProperty "b"⟩] := by
  decide

end Sheet

end TypedStyle
