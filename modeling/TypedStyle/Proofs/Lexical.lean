import TypedStyle.Sheet
import TypedStyle.Proofs.Meaning
import TypedStyle.Proofs.Slots

/-!
The lexical reading of a sheet, from its tree alone: the places of items in bodies, the
assignments that count at a place, and the items that are active.
-/

set_option autoImplicit false

namespace TypedStyle

/-- The assignments before a place, the nearest first: those that stand directly in the innermost
body from the latest to the earliest, then those of the bodies around it. -/
abbrev Env := List Assignment

namespace Env

variable {α : Type}

/-- The meaning of a name is that of the nearest assignment to it, at its own place. -/
def lookUp (meaning : (String → Option α) → Expr → Option α) : Env → String → Option α
  | [], _ => none
  | a :: earlier, name =>
    if a.name = name then meaning (fun other => lookUp meaning earlier other) a.value
    else lookUp meaning earlier name

/-- Every assignment has a meaning at its own place. -/
def Bound (meaning : (String → Option α) → Expr → Option α) : Env → Prop
  | [] => True
  | a :: earlier =>
    (∃ value, meaning (lookUp meaning earlier) a.value = some value) ∧ Bound meaning earlier

end Env

namespace Expr

def valueIn? (env : Env) (expr : Expr) : Option Literal :=
  expr.valueBy (env.lookUp valueBy)

def exactIn? (env : Env) (expr : Expr) : Option Exact :=
  expr.exactBy (env.lookUp valueBy)

def OverflowsIn (env : Env) (expr : Expr) : Prop :=
  expr.Overflows (env.lookUp valueBy)

def typeIn? (env : Env) (expr : Expr) : Option ValueType :=
  expr.typeBy (env.lookUp typeBy)

end Expr

def Item.assignment? : Item → Option Assignment
  | .assignment a => some a
  | _ => none

def Member.assignment? : Member → Option Assignment
  | .assignment a => some a
  | _ => none

def Env.past (env : Env) (items : List Item) : Env :=
  (items.filterMap Item.assignment?).reverse ++ env

namespace Env

variable {env : Env} {before : List Item}

theorem past_declaration (d : Declaration) :
    env.past (before ++ [.declaration d]) = env.past before := by
  simp [past, Item.assignment?]

theorem past_assignment (a : Assignment) :
    env.past (before ++ [.assignment a]) = a :: env.past before := by
  simp [past, Item.assignment?]

theorem past_branch (condition : Expr) (body : List Item) (alternative : Option (List Item))
    (fault : Option Fault) :
    env.past (before ++ [.branch condition body alternative fault]) = env.past before := by
  simp [past, Item.assignment?]

end Env

inductive Side where
  | body
  | alternative
  deriving Repr, DecidableEq

namespace Side

def truth : Side → Bool
  | .body => true
  | .alternative => false

def items? (body : List Item) (alternative : Option (List Item)) : Side → Option (List Item)
  | .body => some body
  | .alternative => alternative

end Side

/-- A place in a body: that of an item of its own, by number, or one on a side of a branch. -/
inductive Place where
  | here (index : Nat)
  | inside (index : Nat) (side : Side) (place : Place)
  deriving Repr, DecidableEq

namespace Place

def index : Place → Nat
  | .here index => index
  | .inside index _ _ => index

/-- In the lowest body that contains both places, its own items come before those of its branches;
otherwise the order is that of the source. -/
def Precedes : Place → Place → Prop
  | .here i, .here j => i < j
  | .here _, .inside _ _ _ => True
  | .inside _ _ _, .here _ => False
  | .inside i side place, .inside j other place' =>
    i < j ∨ i = j ∧ (side = .body ∧ other = .alternative ∨ side = other ∧ place.Precedes place')

theorem not_precedes_self (place : Place) : ¬place.Precedes place := by
  induction place with
  | here index => simp [Precedes]
  | inside index side place ih => cases side <;> simp [Precedes, ih]

end Place

/-- The item stands at the place, with the assignments that count there. The sides of branches are
entered as far as the guard admits. -/
inductive Stands (guard : Env → Expr → Side → Prop) :
    Env → List Item → Place → Item → Env → Prop
  | here {env : Env} {items : List Item} {index : Nat} {item : Item}
      (at_index : items[index]? = some item) :
      Stands guard env items (.here index) item (env.past (items.take index))
  | inside {env within : Env} {items inner : List Item} {index : Nat} {side : Side}
      {condition : Expr} {body : List Item} {alternative : Option (List Item)}
      {fault : Option Fault} {place : Place} {item : Item}
      (at_index : items[index]? = some (.branch condition body alternative fault))
      (on_side : side.items? body alternative = some inner)
      (admitted : guard (env.past (items.take index)) condition side)
      (stands : Stands guard (env.past (items.take index)) inner place item within) :
      Stands guard env items (.inside index side place) item within

def Chooses (env : Env) (condition : Expr) (side : Side) : Prop :=
  condition.valueIn? env = some (.bool side.truth)

/-- An item is active if the condition of every branch around it chooses the side it is on. -/
def Active : Env → List Item → Place → Item → Env → Prop :=
  Stands Chooses

/-- What the item needs has a value: its expression, a truth value if it is a condition. -/
def Item.Resolved (env : Env) : Item → Prop
  | .declaration d => ∃ value, d.value.valueIn? env = some value
  | .assignment a => ∃ value, a.value.valueIn? env = some value
  | .branch condition _ _ _ => ∃ truth, condition.valueIn? env = some (.bool truth)

def Gives (env : Env) (items : List Item) (place : Place) (result : Declaration) : Prop :=
  ∃ source within value, Active env items place (.declaration source) within ∧
    source.value.valueIn? within = some value ∧ result = { source with value := .literal value }

/-- These are the results of the active declarations at the places in question, each place once and
in the order of the places. -/
def Lists (env : Env) (items : List Item) (among : Place → Prop) (results : List Declaration) :
    Prop :=
  ∃ entries : List (Place × Declaration), results = entries.map Prod.snd ∧
    (entries.map Prod.fst).Nodup ∧ (entries.map Prod.fst).Pairwise Place.Precedes ∧
    ∀ place result, (place, result) ∈ entries ↔ among place ∧ Gives env items place result

namespace Sheet

def envAt (sheet : Sheet) (number : Nat) : Env :=
  ((sheet.members.take number).filterMap Member.assignment?).reverse

inductive Stands (guard : Env → Expr → Side → Prop) (sheet : Sheet) : Nat → Item → Env → Prop
  | assignment {number : Nat} {a : Assignment}
      (at_number : sheet.members[number]? = some (.assignment a)) :
      Stands guard sheet number (.assignment a) (sheet.envAt number)
  | inRule {number : Nat} {rule : Rule} {place : Place} {item : Item} {env : Env}
      (at_number : sheet.members[number]? = some (.rule rule))
      (stands : TypedStyle.Stands guard (sheet.envAt number) rule.body place item env) :
      Stands guard sheet number item env

def Active (sheet : Sheet) : Nat → Item → Env → Prop :=
  sheet.Stands Chooses

def rules (sheet : Sheet) : List (Nat × Rule) :=
  sheet.members.zipIdx.filterMap fun member => member.1.rule?.map (member.2, ·)

/-- The rule with the results of its active declarations for its body. -/
def Flattened (sheet : Sheet) (rule : Nat × Rule) (member : Member) : Prop :=
  ∃ results, Lists (sheet.envAt rule.1) rule.2.body (fun _ => True) results ∧
    member = .rule { rule.2 with body := results.map .declaration }

end Sheet

section Stands

variable {guard : Env → Expr → Side → Prop} {env within : Env} {before rest : List Item}
  {head item : Item}

theorem stands_here_iff :
    Stands guard env (before ++ head :: rest) (.here before.length) item within ↔
      item = head ∧ within = env.past before := by
  constructor
  · intro h
    cases h with
    | here at_index => simp_all
  · intro h
    obtain ⟨rfl, rfl⟩ := h
    have h : (before ++ item :: rest)[before.length]? = some item := by simp
    simpa using @Stands.here guard env _ _ _ h

theorem stands_inside_iff {side : Side} {place : Place} :
    Stands guard env (before ++ head :: rest) (.inside before.length side place) item within ↔
      ∃ condition body alternative fault inner,
        head = .branch condition body alternative fault ∧
        side.items? body alternative = some inner ∧ guard (env.past before) condition side ∧
        Stands guard (env.past before) inner place item within := by
  constructor
  · intro h
    cases h with
    | inside at_index on_side admitted stands =>
      simp only [List.getElem?_append_right (Nat.le_refl _), Nat.sub_self, List.getElem?_cons_zero,
        Option.some.injEq] at at_index
      simp only [List.take_left'] at admitted stands
      exact ⟨_, _, _, _, _, at_index, on_side, admitted, stands⟩
  · intro h
    obtain ⟨condition, body, alternative, fault, inner, rfl, on_side, admitted, stands⟩ := h
    have h : (before ++ .branch condition body alternative fault :: rest)[before.length]? =
        some (.branch condition body alternative fault) := by simp
    refine .inside h on_side ?_ ?_ <;> simpa

theorem Stands.at_length {place : Place}
    (h : Stands guard env (before ++ head :: rest) place item within)
    (hp : place.index = before.length) :
    place = .here before.length ∧ item = head ∧ within = env.past before ∨
      ∃ side inner condition body alternative fault place',
        place = .inside before.length side place' ∧
        head = .branch condition body alternative fault ∧
        side.items? body alternative = some inner ∧ guard (env.past before) condition side ∧
        Stands guard (env.past before) inner place' item within := by
  cases place with
  | here index =>
    obtain rfl : index = before.length := hp
    exact .inl ⟨rfl, stands_here_iff.1 h⟩
  | inside index side place' =>
    obtain rfl : index = before.length := hp
    obtain ⟨condition, body, alternative, fault, inner, hh, hs, hg, hi⟩ := stands_inside_iff.1 h
    exact .inr ⟨side, inner, condition, body, alternative, fault, place', rfl, hh, hs, hg, hi⟩

theorem Stands.mono {other : Env → Expr → Side → Prop} {items : List Item} {place : Place}
    (h : Stands guard env items place item within)
    (hg : ∀ env condition side, guard env condition side → other env condition side) :
    Stands other env items place item within := by
  induction h with
  | here at_index => exact .here at_index
  | inside at_index on_side admitted _ ih => exact .inside at_index on_side (hg _ _ _ admitted) ih

theorem Stands.index_lt {items : List Item} {place : Place}
    (h : Stands guard env items place item within) : place.index < items.length := by
  cases h with
  | here at_index => exact (List.getElem?_eq_some_iff.1 at_index).1
  | inside at_index => exact (List.getElem?_eq_some_iff.1 at_index).1

end Stands

namespace Sheet

variable {sheet : Sheet} {guard : Env → Expr → Side → Prop} {before rest : List Member}
  {member : Member} {number : Nat} {item : Item} {env : Env}

theorem envAt_succ (hm : sheet.members = before ++ member :: rest) :
    sheet.envAt (before.length + 1) =
      member.assignment?.toList ++ sheet.envAt before.length := by
  have htake : sheet.members.take (before.length + 1) = before ++ [member] := by
    simp [hm, List.take_length_add_append]
  have hbefore : sheet.members.take before.length = before := by simp [hm]
  rw [envAt, envAt, htake, hbefore]
  cases h : member.assignment? <;> simp [h]

namespace Stands

theorem rule {r : Rule} (h : sheet.Stands guard before.length item env)
    (hm : sheet.members = before ++ .rule r :: rest) :
    ∃ place, TypedStyle.Stands guard (sheet.envAt before.length) r.body place item env := by
  cases h with
  | assignment at_number => simp [hm] at at_number
  | inRule at_number stands =>
    obtain rfl : r = _ := by simpa [hm] using at_number
    exact ⟨_, stands⟩

theorem assignment_eq {a : Assignment} (h : sheet.Stands guard before.length item env)
    (hm : sheet.members = before ++ .assignment a :: rest) :
    item = .assignment a ∧ env = sheet.envAt before.length := by
  cases h with
  | assignment at_number =>
    obtain rfl : a = _ := by simpa [hm] using at_number
    exact ⟨rfl, rfl⟩
  | inRule at_number => simp [hm] at at_number

theorem lt_length (h : sheet.Stands guard number item env) : number < sheet.members.length := by
  cases h with
  | assignment at_number => exact (List.getElem?_eq_some_iff.1 at_number).1
  | inRule at_number => exact (List.getElem?_eq_some_iff.1 at_number).1

theorem mono {other : Env → Expr → Side → Prop} (h : sheet.Stands guard number item env)
    (hg : ∀ env condition side, guard env condition side → other env condition side) :
    sheet.Stands other number item env := by
  cases h with
  | assignment at_number => exact .assignment at_number
  | inRule at_number stands => exact .inRule at_number (stands.mono hg)

end Stands

end Sheet

end TypedStyle
