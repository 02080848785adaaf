import TypedStyle.Proofs.Describes
import TypedStyle.Typing

set_option autoImplicit false

namespace TypedStyle

def Fits (property : String) (type : ValueType) : Prop :=
  (property = "color" ∨ property = "background-color") ∧ type = .color ∨
  (property = "width" ∨ property = "height") ∧
    (type = .number .pixel ∨ type = .number .percentage)

def Item.Typed (env : Env) : Item → Prop
  | .declaration d => ∃ type, d.value.typeIn? env = some type ∧ Fits d.property type
  | .assignment a => ∃ type, a.value.typeIn? env = some type
  | .branch condition _ _ _ => condition.typeIn? env = some .bool

theorem Property.name_of_ofName? {name : String} {property : Property}
    (h : ofName? name = some property) : property.name = name := by
  simpa using List.find?_some h

theorem Property.fits_of_accepts {property : Property} {type : ValueType}
    (h : property.accepts type = true) : Fits property.name type := by
  cases property <;> simp_all [accepts, allowedTypes, Fits, name]

theorem Declaration.fits_of_fault? {property : String} {type : ValueType}
    (h : Declaration.fault? property type = none) (ht : type ≠ .undefined) :
    Fits property type := by
  unfold fault? at h
  cases hk : Property.ofName? property with
  | none => simp [hk] at h
  | some known =>
    simp only [hk, ht, false_or] at h
    split at h
    · next ha => exact Property.name_of_ofName? hk ▸ Property.fits_of_accepts ha
    · simp at h

namespace Expr

theorem typeBy_ne_undefined {look : String → Option ValueType}
    (h : ∀ name, look name ≠ some .undefined) (expr : Expr) :
    expr.typeBy look ≠ some .undefined := by
  cases expr with
  | literal value fault => cases value <;> simp [typeBy, Literal.type]
  | reference name fault => exact h name
  | operation op left right fault =>
    intro ht
    simp only [typeBy, bind, Option.bind_eq_some_iff] at ht
    obtain ⟨l, -, r, -, ht⟩ := ht
    cases l <;> cases r <;> simp [Operator.type?] at ht

theorem type?_of_operationType {op : Operator} {left right : Expr} {l r type : ValueType}
    (h : operationType op left right l r = .ok type) (hl : l ≠ .undefined) (hr : r ≠ .undefined) :
    op.type? l r = some type := by
  cases l <;> cases r <;> simp_all [operationType, Operator.type?]
  rename_i l r
  cases hm : op.measure? l r with
  | none => cases op <;> simp [hm] at h
  | some measure => simpa [hm] using h

theorem not_clean_mark {expr : Expr} {fault : Fault} : ¬Clean (expr.mark (some fault)).slots := by
  cases expr <;> simp [mark, slots]

theorem check_of_clean {scope : Scope ValueType}
    (hu : ∀ name, scope.resolve? name ≠ some .undefined) {expr : Expr} (hc : Clean expr.slots)
    (hk : Clean (expr.check scope).1.slots) :
    (expr.check scope).1 = expr ∧ expr.typeBy scope.resolve? = some (expr.check scope).2 := by
  induction expr with
  | literal value fault => exact ⟨rfl, rfl⟩
  | reference name fault =>
    cases hr : scope.resolve? name with
    | none => simp [check, hr, slots] at hk
    | some type => simp [check, hr, typeBy]
  | operation op left right fault ihl ihr =>
    rw [check] at hk ⊢
    by_cases ho : (left.operandFault?.isSome || right.operandFault?.isSome) = true
    · rw [if_pos ho] at hk
      simp only [slots, Clean.append_iff, Clean.cons_iff] at hk
      -- a fault of an operand is put into the slot of the operand
      rw [Bool.or_eq_true, Option.isSome_iff_exists, Option.isSome_iff_exists] at ho
      rcases ho with ⟨f, hf⟩ | ⟨f, hf⟩
      · exact absurd (hf ▸ hk.1.2) not_clean_mark
      · exact absurd (hf ▸ hk.2) not_clean_mark
    · rw [if_neg ho] at hk ⊢
      simp only [slots, Clean.append_iff, Clean.cons_iff] at hc
      obtain ⟨⟨rfl, hcl⟩, hcr⟩ := hc
      cases ht : operationType op left right (left.check scope).2 (right.check scope).2 with
      | error found => simp [ht, slots] at hk
      | ok type =>
        simp only [ht, slots, Clean.append_iff, Clean.cons_iff, true_and] at hk ⊢
        obtain ⟨hel, htl⟩ := ihl hcl hk.1
        obtain ⟨her, htr⟩ := ihr hcr hk.2
        have hl : (left.check scope).2 ≠ .undefined := fun h =>
          typeBy_ne_undefined hu left (h ▸ htl)
        have hr : (right.check scope).2 ≠ .undefined := fun h =>
          typeBy_ne_undefined hu right (h ▸ htr)
        refine ⟨by rw [hel, her], ?_⟩
        simpa [typeBy, htl, htr] using type?_of_operationType ht hl hr

end Expr

theorem Env.lookUp_ne_undefined (env : Env) (name : String) :
    env.lookUp Expr.typeBy name ≠ some .undefined := by
  induction env generalizing name with
  | nil => simp [lookUp]
  | cons a earlier ih =>
    rw [lookUp]
    split
    · exact Expr.typeBy_ne_undefined ih a.value
    · exact ih name

theorem Env.Describes.check {env : Env} {scope : Scope ValueType}
    (hd : env.Describes Expr.typeBy scope) {expr : Expr} (hc : Clean expr.slots)
    (hk : Clean (expr.check scope).1.slots) :
    (expr.check scope).1 = expr ∧ expr.typeIn? env = some (expr.check scope).2 ∧
      (expr.check scope).2 ≠ .undefined := by
  have hu : ∀ name, scope.resolve? name ≠ some .undefined := by
    rw [hd.resolve]
    exact env.lookUp_ne_undefined
  obtain ⟨he, ht⟩ := Expr.check_of_clean hu hc hk
  refine ⟨he, by rw [← ht, Expr.typeIn?, hd.resolve], fun h => ?_⟩
  exact Expr.typeBy_ne_undefined hu expr (h ▸ ht)

theorem Assignment.pop_check (scope : Scope ValueType) (a : Assignment) :
    (a.check scope).2.pop = scope.pop :=
  Scope.pop_declare ..

theorem pop_checkItems (scope : Scope ValueType) (items : List Item) :
    (checkItems scope items).2.pop = scope.pop := by
  induction items using bodyInduction generalizing scope with
  | nil => rfl
  | declaration d rest ih => exact ih scope
  | assignment a rest ih => exact (ih (a.check scope).2).trans (a.pop_check scope)
  | branch condition body alternative fault rest hb ha ih =>
    rw [checkItems, ih, Item.check, hb, Scope.pop_push]
    cases alternative with
    | none => rfl
    | some other => rw [checkElse, ha other rfl, Scope.pop_push]

theorem pop_checkItems_push (scope : Scope ValueType) (items : List Item) :
    (checkItems scope.push items).2.pop = scope := by
  rw [pop_checkItems, Scope.pop_push]

theorem snd_checkElse (scope : Scope ValueType) (alternative : Option (List Item)) :
    (checkElse scope alternative).2 = scope := by
  cases alternative with
  | none => rfl
  | some other => exact pop_checkItems_push scope other

theorem Item.snd_check_branch (scope : Scope ValueType) (condition : Expr) (body : List Item)
    (alternative : Option (List Item)) (fault : Option Fault) :
    ((Item.branch condition body alternative fault).check scope).2 = scope := by
  rw [check, pop_checkItems_push, snd_checkElse]

theorem Rule.snd_check (scope : Scope ValueType) (rule : Rule) : (rule.check scope).2 = scope :=
  pop_checkItems_push scope rule.body

/-- Everywhere: the sides of all branches are entered. -/
def Anywhere (_ : Env) (_ : Expr) (_ : Side) : Prop :=
  True

/-- What a check of a body in a frame of its own comes to, if it finds no fault. -/
def BodyTyped (items : List Item) : Prop :=
  ∀ (env : Env) (scope : Scope ValueType), env.Describes Expr.typeBy scope →
    Clean (itemSlots items) → Clean (itemSlots (checkItems scope.push items).1) →
    (checkItems scope.push items).1 = items ∧
      ∀ place item within, Stands Anywhere env items place item within → item.Typed within

def RestTyped (items : List Item) : Prop :=
  ∀ (env : Env) (before : List Item) (scope : Scope ValueType),
    (env.past before).Describes Expr.typeBy scope →
    Clean (itemSlots items) → Clean (itemSlots (checkItems scope items).1) →
    (checkItems scope items).1 = items ∧
      ∀ place item within, before.length ≤ place.index →
        Stands Anywhere env (before ++ items) place item within → item.Typed within

theorem RestTyped.body {items : List Item} (h : RestTyped items) : BodyTyped items := by
  intro env scope hd hc hk
  obtain ⟨he, ht⟩ := h env [] scope.push hd.push hc hk
  exact ⟨he, fun place item within hs => ht place item within (Nat.zero_le _) hs⟩

def HeadTyped (env : Env) (before : List Item) (head : Item) (scope : Scope ValueType) : Prop :=
  (head.check scope).1 = head ∧
    (env.past (before ++ [head])).Describes Expr.typeBy (head.check scope).2 ∧
    head.Typed (env.past before) ∧
    ∀ condition body alternative fault, head = .branch condition body alternative fault →
      ∀ (side : Side) inner, side.items? body alternative = some inner →
        ∀ place item within, Stands Anywhere (env.past before) inner place item within →
          item.Typed within

theorem RestTyped.cons {head : Item} {rest : List Item}
    (hh : ∀ env before scope, (Env.past env before).Describes Expr.typeBy scope →
      Clean head.slots → Clean (head.check scope).1.slots → HeadTyped env before head scope)
    (hr : RestTyped rest) : RestTyped (head :: rest) := by
  intro env before scope hd hc hk
  have happ : before ++ head :: rest = (before ++ [head]) ++ rest := by simp
  simp only [checkItems, itemSlots, Clean.append_iff] at hc hk ⊢
  obtain ⟨he, hdm, ht, hin⟩ := hh env before scope hd hc.1 hk.1
  obtain ⟨her, htr⟩ := hr env (before ++ [head]) _ hdm hc.2 hk.2
  refine ⟨by rw [he, her], fun place item within hi hs => ?_⟩
  rcases Nat.eq_or_lt_of_le hi with hi | hi
  · rcases hs.at_length hi.symm with ⟨-, rfl, rfl⟩ | ⟨side, inner, c, b, a, f, place', -, hh, hside,
      -, hs⟩
    · exact ht
    · exact hin c b a f hh side inner hside place' item within hs
  · exact htr place item within (by simpa using Nat.succ_le_of_lt hi) (happ ▸ hs)

namespace HeadTyped

variable {env : Env} {before : List Item} {scope : Scope ValueType}

theorem declaration {d : Declaration} (hd : (env.past before).Describes Expr.typeBy scope)
    (hc : Clean (Item.declaration d).slots)
    (hk : Clean ((Item.declaration d).check scope).1.slots) :
    HeadTyped env before (.declaration d) scope := by
  obtain ⟨property, value, fault⟩ := d
  simp only [Item.check, Item.slots, Declaration.check, Declaration.slots, Clean.cons_iff,
    Option.or_eq_none_iff] at hc hk
  obtain ⟨rfl, hc⟩ := hc
  obtain ⟨⟨hf, -⟩, hk⟩ := hk
  obtain ⟨he, ht, hu⟩ := hd.check hc hk
  refine ⟨?_, ?_, ⟨_, ht, Declaration.fits_of_fault? hf hu⟩, by simp⟩
  · simp [Item.check, Declaration.check, hf, he]
  · rw [Env.past_declaration]
    exact hd

theorem assignment {a : Assignment} (hd : (env.past before).Describes Expr.typeBy scope)
    (hc : Clean (Item.assignment a).slots)
    (hk : Clean ((Item.assignment a).check scope).1.slots) :
    HeadTyped env before (.assignment a) scope := by
  obtain ⟨he, ht, -⟩ := hd.check hc hk
  refine ⟨?_, ?_, ⟨_, ht⟩, by simp⟩
  · simp [Item.check, Assignment.check, he]
  · rw [Env.past_assignment]
    exact hd.declare ht

theorem checkElse_of_clean {alternative : Option (List Item)}
    (hd : env.Describes Expr.typeBy scope) (hc : Clean (elseSlots alternative))
    (hk : Clean (elseSlots (checkElse scope alternative).1))
    (ha : ∀ other, alternative = some other → BodyTyped other) :
    checkElse scope alternative = (alternative, scope) ∧
      ∀ other, alternative = some other →
        ∀ place item within, Stands Anywhere env other place item within → item.Typed within := by
  cases alternative with
  | none => exact ⟨rfl, by simp⟩
  | some other =>
    obtain ⟨he, ht⟩ := ha other rfl env scope hd hc hk
    refine ⟨by rw [checkElse, he, pop_checkItems_push], ?_⟩
    intro inner hi
    cases hi
    exact ht

theorem branch {condition : Expr} {body : List Item} {alternative : Option (List Item)}
    {fault : Option Fault} (hd : (env.past before).Describes Expr.typeBy scope)
    (hc : Clean (Item.branch condition body alternative fault).slots)
    (hk : Clean ((Item.branch condition body alternative fault).check scope).1.slots)
    (hb : BodyTyped body) (ha : ∀ other, alternative = some other → BodyTyped other) :
    HeadTyped env before (.branch condition body alternative fault) scope := by
  have hpop := pop_checkItems_push scope body
  simp only [Item.check, Item.slots, List.cons_append, Clean.append_iff, Clean.cons_iff, hpop,
    Option.or_eq_none_iff] at hc hk
  obtain ⟨rfl, ⟨hcc, hcb⟩, hca⟩ := hc
  obtain ⟨⟨hf, -⟩, ⟨hkc, hkb⟩, hka⟩ := hk
  obtain ⟨hec, htc, huc⟩ := hd.push.check hcc hkc
  obtain ⟨heb, htb⟩ := hb _ scope hd hcb hkb
  obtain ⟨hea, hta⟩ := checkElse_of_clean hd hca hka ha
  have hbool : (condition.check scope.push).2 = .bool := by
    cases ht : (condition.check scope.push).2 <;> simp_all [conditionFault?]
  refine ⟨?_, ?_, by rw [Item.Typed, htc, hbool], ?_⟩
  · simp [Item.check, hpop, hec, heb, hea, hf]
  · rw [Env.past_branch]
    simpa [Item.check, hpop, hea] using hd
  · intro c b a f hh side inner hs
    cases hh
    cases side with
    | body =>
      cases hs
      exact htb
    | alternative => exact hta inner hs

end HeadTyped

theorem typed (items : List Item) : RestTyped items := by
  induction items using bodyInduction with
  | nil =>
    intro env before scope hd hc hk
    refine ⟨rfl, fun place item within hi hs => ?_⟩
    have hlt := hs.index_lt
    simp only [List.append_nil] at hlt
    omega
  | declaration d rest ih => exact .cons (fun _ _ _ => .declaration) ih
  | assignment a rest ih => exact .cons (fun _ _ _ => .assignment) ih
  | branch condition body alternative fault rest hb ha ih =>
    exact .cons (fun _ _ _ hd hc hk =>
      .branch hd hc hk hb.body fun other h => (ha other h).body) ih

namespace Sheet

theorem typed_members (sheet : Sheet) (rest before : List Member) (scope : Scope ValueType)
    (hm : sheet.members = before ++ rest)
    (hd : (sheet.envAt before.length).Describes Expr.typeBy scope)
    (hc : Clean (rest.flatMap Member.slots))
    (hk : Clean ((checkMembers scope rest).1.flatMap Member.slots)) :
    (checkMembers scope rest).1 = rest ∧
      ∀ number item env, before.length ≤ number → sheet.Stands Anywhere number item env →
        item.Typed env := by
  induction rest generalizing before scope with
  | nil =>
    refine ⟨rfl, fun number item env hn hs => ?_⟩
    have hlt := hs.lt_length
    simp only [hm, List.append_nil] at hlt
    omega
  | cons member rest ih =>
    have hm' : sheet.members = (before ++ [member]) ++ rest := by simp [hm]
    have hlen : (before ++ [member]).length = before.length + 1 := by simp
    have henv := envAt_succ hm
    have ih := ih (before ++ [member])
    rw [hlen, henv] at ih
    simp only [checkMembers, List.flatMap_cons, Clean.append_iff] at hc hk ⊢
    cases member with
    | rule r =>
      obtain ⟨he, ht⟩ := (typed r.body).body _ scope hd hc.1 hk.1
      have hpop := pop_checkItems_push scope r.body
      simp only [Member.check, Rule.check, he, hpop] at hk ⊢
      obtain ⟨her, htr⟩ := ih scope hm' hd hc.2 hk.2
      refine ⟨by rw [her], fun number item env hn hs => ?_⟩
      rcases Nat.eq_or_lt_of_le hn with rfl | hn
      · obtain ⟨place, hs⟩ := hs.rule hm
        exact ht place item env hs
      · exact htr number item env hn hs
    | assignment a =>
      obtain ⟨he, ht, -⟩ := hd.check hc.1 hk.1
      simp only [Member.check, Assignment.check, he] at hk ⊢
      obtain ⟨her, htr⟩ := ih _ hm' (hd.declare ht) hc.2 hk.2
      refine ⟨by rw [her], fun number item env hn hs => ?_⟩
      rcases Nat.eq_or_lt_of_le hn with rfl | hn
      · obtain ⟨rfl, rfl⟩ := hs.assignment_eq hm
        exact ⟨_, ht⟩
      · exact htr number item env hn hs

theorem typed_of_clean {sheet : Sheet} (hc : Clean sheet.slots) (hk : Clean sheet.check.slots) :
    sheet.check = sheet ∧
      ∀ number item env, sheet.Stands Anywhere number item env → item.Typed env := by
  obtain ⟨he, ht⟩ := sheet.typed_members sheet.members [] _ rfl .top hc hk
  refine ⟨?_, fun number item env hs => ht number item env (Nat.zero_le _) hs⟩
  rw [Sheet.check, Sheet.checkIn, he]

end Sheet

end TypedStyle
