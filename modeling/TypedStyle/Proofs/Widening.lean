import TypedStyle.Proofs.Flattening
import TypedStyle.Proofs.Typed

/-!
More bindings at the bottom of the outermost frame, where they count last.
-/

set_option autoImplicit false

namespace TypedStyle

namespace Scope

variable {α : Type} {scope : Scope α} {name : String} {value : α}

def widenFrames (below : List (String × α)) :
    List (List (String × α)) → List (List (String × α))
  | [] => []
  | [frame] => [frame ++ below]
  | frame :: next :: outer => frame :: widenFrames below (next :: outer)

/-- The bindings count where the scope has none of its own. -/
def widen (below : List (String × α)) (scope : Scope α) : Scope α :=
  ⟨widenFrames below scope.frames⟩

theorem widen_push (below : List (String × α)) (h : 0 < scope.depth) :
    scope.push.widen below = (scope.widen below).push := by
  obtain ⟨_ | ⟨frame, outer⟩⟩ := scope
  · cases h
  · rfl

theorem widen_pop (below : List (String × α)) (scope : Scope α) :
    scope.pop.widen below = (scope.widen below).pop := by
  obtain ⟨_ | ⟨frame, _ | ⟨next, outer⟩⟩⟩ := scope <;> rfl

theorem widen_declare (below : List (String × α)) (scope : Scope α) (name : String) (value : α) :
    (scope.declare name value).widen below = (scope.widen below).declare name value := by
  obtain ⟨_ | ⟨frame, _ | ⟨next, outer⟩⟩⟩ := scope <;> rfl

theorem findSome?_widenFrames {below : List (String × α)} {frames : List (List (String × α))}
    (h : frames.findSome? (·.lookup name) = some value) :
    (widenFrames below frames).findSome? (·.lookup name) = some value := by
  induction frames with
  | nil => cases h
  | cons frame outer ih =>
    cases outer with
    | nil =>
      have hf : frame.lookup name = some value := by simpa using h
      simp [widenFrames, List.lookup_append, hf]
    | cons next outer =>
      rw [List.findSome?_cons] at h
      rw [widenFrames, List.findSome?_cons]
      cases hf : frame.lookup name with
      | some found => rwa [hf] at h
      | none =>
        rw [hf] at h
        exact ih h

theorem resolve?_widen (below : List (String × α)) (h : scope.resolve? name = some value) :
    (scope.widen below).resolve? name = some value :=
  findSome?_widenFrames h

theorem eq_widen_of_depth (h : scope.depth = 1) :
    ∃ below : List (String × α), scope = (empty : Scope α).push.widen below := by
  obtain ⟨frames⟩ := scope
  obtain ⟨frame, rfl⟩ := List.length_eq_one_iff.mp h
  exact ⟨frame, rfl⟩

end Scope

section Check

variable {below : List (String × ValueType)} {scope : Scope ValueType}

theorem Expr.check_widen {expr : Expr} (h : Clean (expr.check scope).1.slots) :
    expr.check (scope.widen below) = expr.check scope := by
  induction expr with
  | literal value fault => rfl
  | reference name fault =>
    cases hr : scope.resolve? name with
    | none => simp [check, hr, slots] at h
    | some type => simp [check, hr, Scope.resolve?_widen below hr]
  | operation op left right fault ihl ihr =>
    rw [check] at h ⊢
    rw [check]
    by_cases ho : (left.operandFault?.isSome || right.operandFault?.isSome) = true
    · rw [if_pos ho, if_pos ho]
    · rw [if_neg ho] at h
      have hsides : Clean (left.check scope).1.slots ∧ Clean (right.check scope).1.slots := by
        cases ht : operationType op left right (left.check scope).2 (right.check scope).2 with
        | error found => simp [ht, slots] at h
        | ok type =>
          simp only [ht, slots, Clean.append_iff, Clean.cons_iff] at h
          exact ⟨h.1.2, h.2⟩
      rw [if_neg ho, if_neg ho, ihl hsides.1, ihr hsides.2]

theorem Assignment.check_widen {a : Assignment} (h : Clean (a.check scope).1.value.slots) :
    a.check (scope.widen below) = ((a.check scope).1, (a.check scope).2.widen below) := by
  rw [check, Expr.check_widen h, check, Scope.widen_declare]

theorem Assignment.depth_check (scope : Scope ValueType) (a : Assignment) :
    (a.check scope).2.depth = scope.depth :=
  Scope.depth_declare ..

def ChecksWidened (below : List (String × ValueType)) (items : List Item) : Prop :=
  ∀ scope : Scope ValueType, 0 < scope.depth → Clean (itemSlots (checkItems scope items).1) →
    checkItems (scope.widen below) items =
      ((checkItems scope items).1, (checkItems scope items).2.widen below)

theorem ChecksWidened.push {items : List Item} (h : ChecksWidened below items)
    (hd : 0 < scope.depth) (hc : Clean (itemSlots (checkItems scope.push items).1)) :
    checkItems (scope.widen below).push items =
      ((checkItems scope.push items).1, (checkItems scope.push items).2.widen below) := by
  rw [← Scope.widen_push below hd]
  exact h scope.push scope.depth_push_pos hc

theorem checkElse_widen (below : List (String × ValueType)) {alternative : Option (List Item)}
    (hd : 0 < scope.depth) (hc : Clean (elseSlots (checkElse scope alternative).1))
    (ha : ∀ other, alternative = some other → ChecksWidened below other) :
    checkElse (scope.widen below) alternative =
      ((checkElse scope alternative).1, scope.widen below) := by
  cases alternative with
  | none => rfl
  | some other =>
    simp only [checkElse, (ha other rfl).push hd hc, ← Scope.widen_pop, pop_checkItems_push]

theorem checksWidened (below : List (String × ValueType)) (items : List Item) :
    ChecksWidened below items := by
  induction items using bodyInduction with
  | nil => exact fun scope _ _ => rfl
  | declaration d rest ih =>
    intro scope hd hc
    simp only [checkItems, Item.check, Declaration.check, itemSlots, Item.slots,
      Declaration.slots, Clean.append_iff, Clean.cons_iff] at hc
    simp only [checkItems, Item.check, Declaration.check, Expr.check_widen hc.1.2, ih scope hd hc.2]
  | assignment a rest ih =>
    intro scope hd hc
    simp only [checkItems, Item.check, itemSlots, Item.slots, Clean.append_iff] at hc
    have hrest := ih (a.check scope).2 (by rwa [a.depth_check]) hc.2
    simp only [checkItems, Item.check, Assignment.check_widen hc.1, hrest]
  | branch condition body alternative fault rest hb ha ih =>
    intro scope hd hc
    simp only [checkItems, Item.check, itemSlots, Item.slots, pop_checkItems_push,
      snd_checkElse, List.cons_append, Clean.cons_iff, Clean.append_iff] at hc
    obtain ⟨-, ⟨⟨hcc, hcb⟩, hca⟩, hcr⟩ := hc
    have hcondition : condition.check (scope.widen below).push = condition.check scope.push := by
      rw [← Scope.widen_push below hd, Expr.check_widen hcc]
    have hbody := hb.push hd hcb
    have helse := checkElse_widen below hd hca ha
    simp only [checkItems, Item.check, hcondition, hbody, ← Scope.widen_pop, pop_checkItems_push,
      helse, snd_checkElse, ih scope hd hcr]

theorem Member.depth_check (scope : Scope ValueType) (member : Member) :
    (member.check scope).2.depth = scope.depth := by
  cases member with
  | rule r => rw [check, Rule.snd_check]
  | assignment a => exact a.depth_check scope

theorem Member.check_widen {member : Member} (hd : 0 < scope.depth)
    (hc : Clean (member.check scope).1.slots) :
    member.check (scope.widen below) =
      ((member.check scope).1, (member.check scope).2.widen below) := by
  cases member with
  | rule r =>
    have hbody := (checksWidened below r.body).push hd hc
    simp only [check, Rule.check, hbody, ← Scope.widen_pop]
  | assignment a => simp only [check, Assignment.check_widen hc]

theorem depth_checkMembers (scope : Scope ValueType) (members : List Member) :
    (checkMembers scope members).2.depth = scope.depth := by
  induction members generalizing scope with
  | nil => rfl
  | cons member members ih => rw [checkMembers, ih, member.depth_check]

theorem checkMembers_widen (below : List (String × ValueType)) {members : List Member}
    (hd : 0 < scope.depth) (hc : Clean ((checkMembers scope members).1.flatMap Member.slots)) :
    checkMembers (scope.widen below) members =
      ((checkMembers scope members).1, (checkMembers scope members).2.widen below) := by
  induction members generalizing scope with
  | nil => rfl
  | cons member members ih =>
    simp only [checkMembers, List.flatMap_cons, Clean.append_iff] at hc
    have hrest := ih (by rwa [member.depth_check]) hc.2
    simp only [checkMembers, Member.check_widen hd hc.1, hrest]

end Check

section Flatten

variable {α β : Type} {below : List (String × Literal)} {scope : Scope Literal}

theorem Expr.eval?_widen {expr : Expr} {value : Literal} (h : expr.eval? scope = some value) :
    expr.eval? (scope.widen below) = some value := by
  induction expr generalizing value with
  | literal literal fault => exact h
  | reference name fault => exact Scope.resolve?_widen below h
  | operation op left right fault ihl ihr =>
    simp only [Expr.eval?, bind, Option.bind_eq_some_iff] at h ⊢
    obtain ⟨l, hl, r, hr, ho⟩ := h
    exact ⟨l, ihl hl, r, ihr hr, ho⟩

/-- Where the step succeeds it succeeds in a widened scope too, with the same result. -/
def Widens (below : List (String × Literal)) (step : Flatten α) : Prop :=
  ∀ ⦃scope result after⦄, 0 < scope.depth → step scope = .ok result after →
    step (scope.widen below) = .ok result (after.widen below) ∧ after.depth = scope.depth

namespace Widens

theorem pure (result : α) : Widens below (Pure.pure result : Flatten α) := by
  intro scope _ after _ h
  cases h
  exact ⟨rfl, rfl⟩

theorem bind {step : Flatten α} {next : α → Flatten β} (h : Widens below step)
    (hn : ∀ result, Widens below (next result)) : Widens below (step >>= next) := by
  intro scope result after hd hr
  obtain ⟨found, middle, hs, ha⟩ := Step.exists_of_bind_ok hr
  obtain ⟨hw, hm⟩ := h hd hs
  obtain ⟨hwn, hafter⟩ := hn found (hm ▸ hd) ha
  exact ⟨by rw [Step.bind_of_ok hw, hwn], hafter.trans hm⟩

theorem map {step : Flatten α} (change : α → β) (h : Widens below step) :
    Widens below (change <$> step) := by
  rw [map_eq_pure_bind]
  exact h.bind fun result => .pure (change result)

theorem inFrame {step : Flatten α} (h : Widens below step) :
    Widens below (Flatten.inFrame step) := by
  intro scope result after hd hr
  obtain ⟨inner, hs, rfl⟩ := Flatten.exists_of_inFrame_ok hr
  obtain ⟨hw, hi⟩ := h scope.depth_push_pos hs
  rw [Scope.widen_push below hd] at hw
  refine ⟨by rw [Flatten.inFrame, hw, Scope.widen_pop], ?_⟩
  rw [Scope.depth_pop, hi, Scope.depth_push, Nat.add_sub_cancel]

theorem value (expr : Expr) : Widens below (Flatten.value expr) := by
  intro scope result after hd hr
  cases he : expr.eval? scope with
  | none =>
    rw [Flatten.value_of_none he] at hr
    cases hr
  | some found =>
    rw [Flatten.value_of_some he] at hr
    cases hr
    exact ⟨Flatten.value_of_some (Expr.eval?_widen he), rfl⟩

theorem truth (condition : Expr) : Widens below (Flatten.truth condition) := by
  intro scope result after hd hr
  by_cases he : ∃ truth, condition.eval? scope = some (.bool truth)
  · obtain ⟨truth, he⟩ := he
    rw [Flatten.truth_of_some he] at hr
    cases hr
    exact ⟨Flatten.truth_of_some (Expr.eval?_widen he), rfl⟩
  · rw [Flatten.truth_of_ne fun truth h => he ⟨truth, h⟩] at hr
    cases hr

theorem assign (a : Assignment) : Widens below (Flatten.bind a) := by
  refine (value a.value).bind fun literal => ?_
  intro scope result after hd hr
  cases hr
  exact ⟨by rw [Scope.widen_declare]; rfl, Scope.depth_declare ..⟩

theorem items (items : List Item) : Widens below (flattenItems items) := by
  induction items using bodyInduction with
  | nil => exact .pure Yield.empty
  | declaration d rest ih =>
    refine .bind ((value d.value).bind fun value => .pure _) fun first => ?_
    exact ih.bind fun rest => .pure _
  | assignment a rest ih =>
    refine .bind ((assign a).bind fun _ => .pure _) fun first => ?_
    exact ih.bind fun rest => .pure _
  | branch condition body alternative fault rest hb ha ih =>
    have hframe : ∀ {inner}, Widens below (flattenItems inner) →
        Widens below (Flatten.inFrame (Yield.all <$> flattenItems inner)) :=
      fun h => (h.map _).inFrame
    have helse : Widens below (flattenElse alternative) := by
      cases alternative with
      | none => exact .pure _
      | some other => exact hframe (ha other rfl)
    refine .bind (.bind (truth condition) fun chosen => ?_) fun first => ih.bind fun rest => .pure _
    cases chosen with
    | true => exact (hframe hb).bind fun results => .pure _
    | false => exact helse.bind fun results => .pure _

theorem member (below : List (String × Literal)) (member : Member) :
    Widens below member.flatten := by
  cases member with
  | rule r => exact .bind ((items r.body).map _).inFrame fun declarations => .pure _
  | assignment a => exact (assign a).bind fun _ => .pure _

end Widens

theorem flattenMembers_widen (below : List (String × Literal)) {members : List Member}
    (hd : 0 < scope.depth) (hn : (flattenMembers scope members).1.failure = none) :
    flattenMembers (scope.widen below) members =
        ((flattenMembers scope members).1, (flattenMembers scope members).2.widen below) ∧
      (flattenMembers scope members).2.depth = scope.depth := by
  induction members generalizing scope with
  | nil => exact ⟨rfl, rfl⟩
  | cons member members ih =>
    obtain ⟨kept, after, hm, hrest⟩ := exists_of_flattenMembers_cons hn
    obtain ⟨hw, ha⟩ := Widens.member below member hd hm
    obtain ⟨hi, hdepth⟩ := ih (ha ▸ hd) hrest
    rw [flattenMembers_of_ok hw, flattenMembers_of_ok hm, hi]
    exact ⟨rfl, hdepth.trans ha⟩

end Flatten

end TypedStyle
