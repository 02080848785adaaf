import TypedStyle.Proofs.References

/-!
Faults do not cascade: what is wrong with a part of an expression, or with the expression of a
variable, is said once, and nothing that depends on it is marked for it.
-/

set_option autoImplicit false

namespace TypedStyle

namespace Expr

def fault : Expr → Option Fault
  | .literal _ fault => fault
  | .reference _ fault => fault
  | .operation _ _ _ fault => fault

def Refers (name : String) : Expr → Prop
  | .literal _ _ => False
  | .reference other _ => other = name
  | .operation _ left right _ => left.Refers name ∨ right.Refers name

/-- Below a node with a fault there is no other one. -/
def FaultsApart (expr : Expr) : Prop :=
  ∀ way node hand more below, expr.at? way = some node → node.fault ≠ none →
    expr.at? (way ++ hand :: more) = some below → below.fault = none

theorem fault_of_clean {expr : Expr} (h : Clean expr.slots) : expr.fault = none := by
  cases expr with
  | literal value fault => exact h _ List.mem_cons_self
  | reference name fault => exact h _ List.mem_cons_self
  | operation op left right fault => exact h _ List.mem_cons_self

theorem at?_append (expr : Expr) (way more : List Hand) :
    expr.at? (way ++ more) = (expr.at? way).bind (at? more) := by
  induction way generalizing expr with
  | nil => rfl
  | cons hand way ih =>
    cases expr with
    | operation op left right fault => exact ih (hand.side left right)
    | _ => rfl

theorem refers_of_at? {expr : Expr} {way : List Hand} {name : String} {fault : Option Fault}
    (h : expr.at? way = some (.reference name fault)) : expr.Refers name := by
  induction way generalizing expr with
  | nil =>
    cases h
    rfl
  | cons hand way ih =>
    cases expr with
    | operation op left right found =>
      cases hand with
      | left => exact .inl (ih h)
      | right => exact .inr (ih h)
    | _ => cases h

section Check

variable {scope : Scope ValueType} {name : String}

theorem operationType_undefined_iff {op : Operator} {left right : Expr} {l r : ValueType} :
    operationType op left right l r = .ok .undefined ↔ l = .undefined ∨ r = .undefined := by
  cases l with
  | undefined => simp [operationType]
  | number l =>
    cases r with
    | number r =>
      cases hm : op.measure? l r with
      | some measure => simp [operationType, hm]
      | none => cases op <;> simp [operationType, hm]
    | _ => simp [operationType]
  | _ => cases r <;> simp [operationType]

theorem refers_mark (expr : Expr) (found : Option Fault) :
    (expr.mark found).Refers name ↔ expr.Refers name := by
  cases expr <;> rfl

/-- The check finds the type of everything but what it marks and what depends on a variable without
a type. -/
theorem check_undefined_iff {expr : Expr} (hc : Clean expr.slots) (scope : Scope ValueType) :
    (expr.check scope).2 = .undefined ↔ ¬Clean (expr.check scope).1.slots ∨
      ∃ name, expr.Refers name ∧ scope.resolve? name = some .undefined := by
  induction expr with
  | literal value found =>
    obtain rfl : found = none := hc _ List.mem_cons_self
    cases value <;> simp [check, Refers, slots, Literal.type]
  | reference name found =>
    obtain rfl : found = none := hc _ List.mem_cons_self
    cases hr : scope.resolve? name <;> simp [check, Refers, hr, slots]
  | operation op left right found ihl ihr =>
    simp only [slots, Clean.append_iff, Clean.cons_iff] at hc
    obtain ⟨⟨rfl, hl⟩, hr⟩ := hc
    by_cases hu : left.Unfit ∨ right.Unfit
    · have hmarked : ¬Clean (check scope (.operation op left right none)).1.slots := by
        rw [check_unfit hu]
        simp only [slots, Clean.append_iff, Clean.cons_iff]
        rintro ⟨⟨-, hleft⟩, hright⟩
        rw [unfit_iff, unfit_iff, Option.isSome_iff_exists, Option.isSome_iff_exists] at hu
        rcases hu with ⟨f, hf⟩ | ⟨f, hf⟩
        · exact not_clean_mark (hf ▸ hleft)
        · exact not_clean_mark (hf ▸ hright)
      rw [check_of_unfit hu] at hmarked ⊢
      exact ⟨fun _ => .inl hmarked, fun _ => rfl⟩
    · rw [check_of_fit hu]
      cases ht : operationType op left right (left.check scope).2 (right.check scope).2 with
      | error found => simp [slots]
      | ok type =>
        have htype := @operationType_undefined_iff op left right (left.check scope).2
          (right.check scope).2
        rw [ht, Except.ok.injEq, ihl hl, ihr hr] at htype
        simp only [slots, Refers, Clean.append_iff, Clean.cons_iff, true_and, htype]
        grind

theorem refers_check (expr : Expr) (scope : Scope ValueType) :
    (expr.check scope).1.Refers name ↔ expr.Refers name := by
  induction expr with
  | literal value found => rfl
  | reference other found => cases hr : scope.resolve? other <;> simp [check, hr, Refers]
  | operation op left right found ihl ihr =>
    by_cases hu : left.Unfit ∨ right.Unfit
    · rw [check_unfit hu]
      simp only [Refers, refers_mark]
    · obtain ⟨after, he⟩ : ∃ after, (check scope (.operation op left right found)).1 =
          .operation op (left.check scope).1 (right.check scope).1 after := exists_check_fit hu
      rw [he]
      simp only [Refers, ihl, ihr]

theorem at?_check_of_cons {op : Operator} {left right : Expr} {found : Option Fault} {hand : Hand}
    {way : List Hand} (hu : ¬(left.Unfit ∨ right.Unfit)) :
    (check scope (.operation op left right found)).1.at? (hand :: way) =
      ((hand.side left right).check scope).1.at? way := by
  obtain ⟨after, he⟩ : ∃ after, (check scope (.operation op left right found)).1 =
      .operation op (left.check scope).1 (right.check scope).1 after := exists_check_fit hu
  rw [he]
  cases hand <;> rfl

theorem of_fault_at?_mark {side node : Expr} {way : List Hand} (hc : Clean side.slots)
    (h : (side.mark side.operandFault?).at? way = some node) (hf : node.fault ≠ none) :
    ∃ value found, node = .literal value found := by
  cases side with
  | literal value found =>
    cases way with
    | nil => exact ⟨value, _, (Option.some.inj h).symm⟩
    | cons hand way => cases h
  | reference name found =>
    have hnode : Clean node.slots := clean_of_at? hc h
    exact absurd (fault_of_clean hnode) hf
  | operation op left right found =>
    have hnode : Clean node.slots := clean_of_at? hc h
    exact absurd (fault_of_clean hnode) hf

theorem sides_of_error {op : Operator} {left right : Expr} {found : Fault}
    (hl : Clean left.slots) (hr : Clean right.slots)
    (h : operationType op left right (left.check scope).2 (right.check scope).2 = .error found)
    (hand : Hand) : Clean ((hand.side left right).check scope).1.slots ∧
      ∀ name, (hand.side left right).Refers name → scope.resolve? name ≠ some .undefined := by
  have hboth : ¬((left.check scope).2 = .undefined ∨ (right.check scope).2 = .undefined) := by
    rw [← @operationType_undefined_iff op left right, h]
    simp
  rw [check_undefined_iff hl, check_undefined_iff hr] at hboth
  simp only [not_or, Classical.not_not, not_exists, not_and] at hboth
  cases hand with
  | left => exact hboth.1
  | right => exact hboth.2

theorem of_fault_at?_check {expr node : Expr} {way : List Hand} (hc : Clean expr.slots)
    (h : (expr.check scope).1.at? way = some node) (hf : node.fault ≠ none) :
    (∀ hand more below, node.at? (hand :: more) = some below → below.fault = none) ∧
      ∀ name, node.Refers name → scope.resolve? name ≠ some .undefined := by
  induction expr generalizing way with
  | literal value found =>
    cases way with
    | cons hand way => cases h
    | nil =>
      cases h
      exact absurd (fault_of_clean hc) hf
  | reference name found =>
    obtain rfl : found = none := hc _ List.mem_cons_self
    cases hr : scope.resolve? name with
    | some type =>
      rw [check, hr] at h
      exact absurd (fault_of_clean (clean_of_at? hc h)) hf
    | none =>
      rw [check, hr] at h
      cases way with
      | cons hand way => cases h
      | nil =>
        cases h
        constructor
        · intro hand more below hb
          cases hb
        · intro other ho
          obtain rfl : name = other := ho
          rw [hr]
          simp
  | operation op left right found ihl ihr =>
    simp only [slots, Clean.append_iff, Clean.cons_iff] at hc
    obtain ⟨⟨rfl, hl⟩, hr⟩ := hc
    by_cases hu : left.Unfit ∨ right.Unfit
    · rw [check_unfit hu] at h
      cases way with
      | nil =>
        cases h
        exact absurd rfl hf
      | cons hand way =>
        obtain ⟨value, after, rfl⟩ : ∃ value found, node = .literal value found := by
          cases hand with
          | left => exact of_fault_at?_mark hl h hf
          | right => exact of_fault_at?_mark hr h hf
        constructor
        · intro hand more below hb
          cases hb
        · intro name hn
          cases hn
    · cases way with
      | cons hand way =>
        rw [at?_check_of_cons hu] at h
        cases hand with
        | left => exact ihl hl h
        | right => exact ihr hr h
      | nil =>
        rw [check_of_fit hu] at h
        cases ht : operationType op left right (left.check scope).2 (right.check scope).2 with
        | ok type =>
          rw [ht] at h
          cases h
          exact absurd rfl hf
        | error found =>
          have hsides := sides_of_error hl hr ht
          rw [ht] at h
          cases h
          constructor
          · intro hand more below hb
            have hat : ((hand.side left right).check scope).1.at? more = some below := by
              cases hand <;> exact hb
            exact fault_of_clean (clean_of_at? (hsides hand).1 hat)
          · intro name hn
            rcases hn with hn | hn
            · exact (hsides .left).2 name ((refers_check left scope).mp hn)
            · exact (hsides .right).2 name ((refers_check right scope).mp hn)

theorem faultsApart_check {expr : Expr} (hc : Clean expr.slots) (scope : Scope ValueType) :
    (expr.check scope).1.FaultsApart := by
  intro way node hand more below hn hf hb
  rw [at?_append, hn] at hb
  exact (of_fault_at?_check hc hn hf).1 hand more below hb

end Check

end Expr

theorem Declaration.fault?_undefined {name property expected : String} {received : ValueType} :
    fault? name .undefined ≠ some (.typeMismatch property expected received) := by
  rw [fault?]
  cases Property.ofName? name <;> simp

/-- The expression has a fault, or refers to one of the variables that are broken. -/
def Expr.Fails (broken : String → Prop) (expr : Expr) : Prop :=
  ¬Clean expr.slots ∨ ∃ name, expr.Refers name ∧ broken name

/-- The expression of the nearest assignment to the name has failed at its own place. -/
def Env.Broken : Env → String → Prop
  | [], _ => False
  | a :: earlier, name =>
    if a.name = name then a.value.Fails fun other => Broken earlier other
    else Broken earlier name

/-- The item says nothing about what has failed in its expression or before. -/
structure Item.Quiet (env : Env) (item : Item) : Prop where
  declaration : ∀ d property expected received, item = .declaration d →
    d.fault = some (.typeMismatch property expected received) → ¬d.value.Fails env.Broken
  branch : ∀ condition body alternative received,
    item = .branch condition body alternative (some (.invalidConditional received)) →
    ¬condition.Fails env.Broken
  reference : ∀ way name fault, item.expr.at? way = some (.reference name fault) →
    env.Broken name → ∀ front node, front <+: way → item.expr.at? front = some node →
      node.fault = none

/-- The scope knows which variables have failed. -/
structure Env.Records (env : Env) (scope : Scope ValueType) : Prop where
  depth_pos : 0 < scope.depth
  broken_iff : ∀ name, scope.resolve? name = some .undefined ↔ env.Broken name

namespace Env.Records

variable {env : Env} {scope : Scope ValueType}

theorem top : Records [] Scope.empty.push :=
  ⟨Scope.depth_push_pos _, fun name => by simp [Broken]⟩

theorem push (h : env.Records scope) : env.Records scope.push :=
  ⟨Scope.depth_push_pos _, fun name => by rw [Scope.resolve?_push, h.broken_iff]⟩

theorem fails_iff (h : env.Records scope) {expr : Expr} (hc : Clean expr.slots) :
    (expr.check scope).1.Fails env.Broken ↔ (expr.check scope).2 = .undefined := by
  rw [Expr.check_undefined_iff hc, Expr.Fails]
  simp only [Expr.refers_check, h.broken_iff]

theorem declare (h : env.Records scope) {a : Assignment} (hc : Clean a.value.slots) :
    Records ((a.check scope).1 :: env) (a.check scope).2 := by
  refine ⟨by simpa [Assignment.check] using h.depth_pos, fun name => ?_⟩
  rw [Assignment.check, Scope.resolve?_declare _ _ _ _ h.depth_pos, Broken]
  by_cases hn : a.name = name
  · rw [if_pos hn, if_pos hn.symm, Option.some.injEq]
    exact (h.fails_iff hc).symm
  · rw [if_neg hn, if_neg (Ne.symm hn)]
    exact h.broken_iff name

theorem quiet (h : env.Records scope) {item : Item} (hc : Clean item.slots) :
    (item.check scope).1.Quiet env where
  declaration := by
    intro d property expected received he hf
    cases item with
    | declaration source =>
      obtain rfl : source.check scope = d := Item.declaration.inj he
      rw [Item.slots, Declaration.slots, Clean.cons_iff] at hc
      rw [Declaration.check, hc.1, Option.or_none] at hf
      show ¬(source.value.check scope).1.Fails env.Broken
      rw [h.fails_iff hc.2]
      intro ht
      rw [ht] at hf
      exact Declaration.fault?_undefined hf
    | assignment a => cases he
    | branch => cases he
  branch := by
    intro condition body alternative received he
    cases item with
    | declaration source => cases he
    | assignment a => cases he
    | branch source inner other fault =>
      have hclean : Clean source.slots := Item.clean_expr hc
      have hf := (Item.branch.inj he).2.2.2
      obtain rfl : (source.check scope.push).1 = condition := (Item.branch.inj he).1
      simp only [Item.slots, List.cons_append, Clean.append_iff, Clean.cons_iff] at hc
      rw [hc.1, Option.or_none] at hf
      rw [h.push.fails_iff hclean]
      intro ht
      rw [ht] at hf
      cases hf
  reference := by
    intro way name fault hr hb front node hp hn
    rw [Item.expr_check] at hr hn
    obtain ⟨more, rfl⟩ := hp
    rw [Expr.at?_append, hn] at hr
    refine Classical.byContradiction fun hf => ?_
    exact (Expr.of_fault_at?_check (Item.clean_expr hc) hn hf).2 name (Expr.refers_of_at? hr)
      ((h.broken_iff name).mpr hb)

end Env.Records

section Bodies

variable {env : Env} {scope : Scope ValueType}

theorem Env.past_cons (env : Env) (item : Item) (items : List Item) :
    env.past (item :: items) = Env.past (item.assignment?.toList ++ env) items := by
  rw [Env.past, Env.past, List.filterMap_cons]
  cases item.assignment? <;> simp

theorem records_checkItems (h : env.Records scope) {items : List Item}
    (hc : Clean (itemSlots items)) :
    (env.past (checkItems scope items).1).Records (checkItems scope items).2 := by
  induction items generalizing env scope with
  | nil => exact h
  | cons item items ih =>
    rw [itemSlots, Clean.append_iff] at hc
    rw [checkItems, Env.past_cons]
    refine ih ?_ hc.2
    cases item with
    | declaration d => exact h
    | assignment a => exact h.declare hc.1
    | branch condition body alternative fault =>
      rw [Item.snd_check_branch]
      exact h

theorem take_checkItems (scope : Scope ValueType) (items : List Item) (index : Nat) :
    (checkItems scope items).1.take index = (checkItems scope (items.take index)).1 := by
  induction items generalizing scope index with
  | nil => simp [checkItems]
  | cons item items ih =>
    cases index with
    | zero => rfl
    | succ index => rw [checkItems, List.take_succ_cons, ih, List.take_succ_cons, checkItems]

theorem clean_take {items : List Item} (hc : Clean (itemSlots items)) (index : Nat) :
    Clean (itemSlots (items.take index)) :=
  clean_itemSlots_iff.mpr fun _ hm => clean_of_mem hc (List.mem_of_mem_take hm)

theorem exists_check_of_stands {items : List Item} {place : Place} {item : Item} {within : Env}
    (h : env.Records scope) (hc : Clean (itemSlots items))
    (hs : Stands Anywhere env (checkItems scope items).1 place item within) :
    ∃ source inner, item = (Item.check inner source).1 ∧ Clean source.slots ∧
      within.Records inner := by
  generalize hi : (checkItems scope items).1 = checked at hs
  induction hs generalizing scope items with
  | @here env checked index item at_index =>
    subst hi
    have hbefore := records_checkItems h (clean_take hc index)
    rw [getElem?_checkItems] at at_index
    obtain ⟨source, hsource, rfl⟩ := Option.map_eq_some_iff.mp at_index
    rw [take_checkItems]
    exact ⟨source, _, rfl, clean_of_mem hc (List.mem_of_getElem? hsource), hbefore⟩
  | @inside env within checked inner index side condition body alternative fault place item
      at_index on_side _ _ ih =>
    subst hi
    have hbefore := records_checkItems h (clean_take hc index)
    rw [getElem?_checkItems] at at_index
    obtain ⟨source, hsource, hbranch⟩ := Option.map_eq_some_iff.mp at_index
    have hclean := clean_of_mem hc (List.mem_of_getElem? hsource)
    have hside : ((source.check (checkItems scope (items.take index)).2).1).side? side =
        some inner := by
      rw [hbranch]
      exact on_side
    rw [side?_check] at hside
    obtain ⟨unchecked, hs, hinner⟩ := Option.map_eq_some_iff.mp hside
    rw [take_checkItems] at ih
    exact ih hbefore.push (clean_of_side? hclean hs) hinner

end Bodies

section Members

variable {env : Env} {scope : Scope ValueType}

theorem records_checkMembers (h : env.Records scope) {members : List Member}
    (hc : ∀ member ∈ members, Clean member.slots) :
    Env.Records (((checkMembers scope members).1.filterMap Member.assignment?).reverse ++ env)
      (checkMembers scope members).2 := by
  induction members generalizing env scope with
  | nil => exact h
  | cons member members ih =>
    obtain ⟨hmember, hmembers⟩ := List.forall_mem_cons.mp hc
    rw [checkMembers]
    cases member with
    | rule r =>
      rw [Member.check, Rule.snd_check]
      exact ih h hmembers
    | assignment a =>
      have hrest := ih (h.declare hmember) hmembers
      simpa [Member.check, Member.assignment?] using hrest

theorem take_checkMembers (scope : Scope ValueType) (members : List Member) (number : Nat) :
    (checkMembers scope members).1.take number = (checkMembers scope (members.take number)).1 := by
  induction members generalizing scope number with
  | nil => simp [checkMembers]
  | cons member members ih =>
    cases number with
    | zero => rfl
    | succ number => rw [checkMembers, List.take_succ_cons, ih, List.take_succ_cons, checkMembers]

end Members

namespace Sheet

theorem check_quiet {sheet : Sheet} (hc : Clean sheet.slots) {number : Nat} {item : Item}
    {env : Env} (hs : sheet.check.Stands Anywhere number item env) : item.Quiet env := by
  have hmembers : ∀ member ∈ sheet.members, Clean member.slots := fun member hm slot hslot =>
    hc slot (List.mem_flatMap.mpr ⟨member, hm, hslot⟩)
  -- what counts at a member is recorded when the members before it have been checked
  have hbefore : (sheet.check.envAt number).Records
      (checkMembers Scope.empty.push (sheet.members.take number)).2 := by
    have htake : ∀ member ∈ sheet.members.take number, Clean member.slots := fun member hm =>
      hmembers member (List.mem_of_mem_take hm)
    have hrecords := records_checkMembers Env.Records.top htake
    rwa [List.append_nil, ← take_checkMembers] at hrecords
  have hat := getElem?_checkMembers Scope.empty.push sheet.members number
  cases hs with
  | assignment at_number =>
    rw [members_check, hat] at at_number
    obtain ⟨member, hm, he⟩ := Option.map_eq_some_iff.mp at_number
    have hclean := hmembers member (List.mem_of_getElem? hm)
    cases member with
    | rule r => cases he
    | assignment source =>
      obtain rfl := Member.assignment.inj he
      exact @Env.Records.quiet _ _ hbefore (.assignment source) hclean
  | inRule at_number stands =>
    rw [members_check, hat] at at_number
    obtain ⟨member, hm, he⟩ := Option.map_eq_some_iff.mp at_number
    have hclean := hmembers member (List.mem_of_getElem? hm)
    cases member with
    | assignment source => cases he
    | rule source =>
      obtain rfl := Member.rule.inj he
      obtain ⟨unchecked, inner, rfl, hu, hr⟩ :=
        exists_check_of_stands hbefore.push hclean stands
      exact hr.quiet hu

end Sheet

/-- No fault is silent: an expression without a type is marked or depends on one that is. And none
cascades: not to the parts of an expression around it, not to the items that the expressions belong
to, and not through variables. -/
theorem faults_do_not_cascade :
    (∀ (scope : Scope ValueType) (expr : Expr), Clean expr.slots →
      ((expr.check scope).2 = .undefined ↔ ¬Clean (expr.check scope).1.slots ∨
        ∃ name, expr.Refers name ∧ scope.resolve? name = some .undefined) ∧
      (expr.check scope).1.FaultsApart) ∧
    ∀ sheet : Sheet, Clean sheet.slots → ∀ number item env,
      sheet.check.Stands Anywhere number item env → item.Quiet env := by
  constructor
  · intro scope expr hc
    exact ⟨Expr.check_undefined_iff hc scope, Expr.faultsApart_check hc scope⟩
  · intro sheet hc number item env hs
    exact sheet.check_quiet hc hs

/-- A declaration of the wrong type that refers to a variable without a type. -/
theorem faults_do_not_cascade_broken :
    let sum : Expr := .operation .add (.reference "B") (.literal (.number .pixel 1))
    let sheet : Sheet := ⟨[.assignment ⟨"B", .reference "A"⟩,
      .rule ⟨[.tag "a"], [.declaration ⟨"color", sum, none⟩]⟩]⟩
    let item : Item := .declaration ⟨"color", sum, none⟩
    let env : Env := [⟨"B", .reference "A" (some (.undefinedVariable "A"))⟩]
    Clean sum.slots ∧ Clean sheet.slots ∧ (sum.check .empty).2 = .undefined ∧
      (sum.check .empty).1.FaultsApart ∧ sheet.check.Stands Anywhere 1 item env ∧
      env.Broken "B" ∧ item.Quiet env := by
  intro sum sheet item env
  have hsum : Clean sum.slots := by decide
  have hsheet : Clean sheet.slots := by decide
  have hmarked : ¬Clean (sum.check .empty).1.slots := by decide
  have hstands : sheet.check.Stands Anywhere 1 item env :=
    .inRule rfl (@Stands.here Anywhere env [item] 0 item rfl)
  have hbroken : env.Broken "B" := .inl (by decide)
  obtain ⟨htype, hapart⟩ := faults_do_not_cascade.1 .empty sum hsum
  exact ⟨hsum, hsheet, htype.mpr (.inl hmarked), hapart, hstands, hbroken,
    faults_do_not_cascade.2 sheet hsheet 1 item env hstands⟩

end TypedStyle
