import TypedStyle.Proofs.Describes
import TypedStyle.Proofs.Listing
import TypedStyle.Proofs.Step
import Mathlib.Data.List.Forall2

set_option autoImplicit false

namespace TypedStyle

def Item.failure : Item → Failure
  | .declaration d => ⟨.unresolvedExpression d.value.text, none⟩
  | .assignment a => ⟨.unresolvedExpression a.value.text, none⟩
  | .branch condition _ _ _ => ⟨.nonBooleanCondition condition.text, none⟩

/-- An active item lacks what it needs, although the assignments that count there have values. -/
def Fails (env : Env) (items : List Item) (failure : Failure) : Prop :=
  ∃ place item within, Active env items place item within ∧ within.Bound Expr.valueBy ∧
    ¬item.Resolved within ∧ failure = item.failure

section Steps

variable {scope inner : Scope Literal}

theorem Flatten.value_of_some {expr : Expr} {value : Literal} (h : expr.eval? scope = some value) :
    Flatten.value expr scope = .ok value scope := by
  rw [Flatten.value, Step.get_bind, h]
  rfl

theorem Flatten.value_of_none {expr : Expr} (h : expr.eval? scope = none) :
    Flatten.value expr scope = .error ⟨.unresolvedExpression expr.text, none⟩ scope := by
  rw [Flatten.value, Step.get_bind, h]
  rfl

theorem Flatten.truth_of_some {condition : Expr} {truth : Bool}
    (h : condition.eval? scope = some (.bool truth)) :
    Flatten.truth condition scope = .ok truth scope := by
  rw [Flatten.truth, Step.get_bind, h]
  rfl

theorem Flatten.truth_of_ne {condition : Expr}
    (h : ∀ truth, condition.eval? scope ≠ some (.bool truth)) :
    Flatten.truth condition scope = .error ⟨.nonBooleanCondition condition.text, none⟩ scope := by
  rw [Flatten.truth, Step.get_bind]
  cases hc : condition.eval? scope with
  | none => rfl
  | some value =>
    cases value with
    | bool truth => exact absurd hc (h truth)
    | _ => rfl

theorem Flatten.bind_of_some {a : Assignment} {value : Literal}
    (h : a.value.eval? scope = some value) :
    Flatten.bind a scope = .ok () (scope.declare a.name value) := by
  rw [Flatten.bind, Step.bind_of_ok (Flatten.value_of_some h)]
  rfl

theorem Flatten.bind_of_none {a : Assignment} (h : a.value.eval? scope = none) :
    Flatten.bind a scope = .error ⟨.unresolvedExpression a.value.text, none⟩ scope := by
  rw [Flatten.bind, Step.bind_of_error (Flatten.value_of_none h)]

theorem Flatten.exists_of_inFrame_ok {α : Type} {step : Flatten α} {result : α}
    {after : Scope Literal} (h : Flatten.inFrame step scope = .ok result after) :
    ∃ inner, step scope.push = .ok result inner ∧ after = inner.pop := by
  rw [inFrame] at h
  cases hs : step scope.push with
  | error failure inner =>
    rw [hs] at h
    cases h
  | ok found inner =>
    rw [hs] at h
    cases h
    exact ⟨inner, rfl, rfl⟩

theorem Flatten.exists_of_inFrame_error {α : Type} {step : Flatten α} {failure : Failure}
    {after : Scope Literal} (h : Flatten.inFrame step scope = .error failure after) :
    ∃ inner, step scope.push = .error failure inner := by
  rw [inFrame] at h
  cases hs : step scope.push with
  | error found inner =>
    rw [hs] at h
    cases h
    exact ⟨inner, rfl⟩
  | ok found inner =>
    rw [hs] at h
    cases h

theorem flattenBody_of_ok {items : List Item} {yield : Yield}
    (h : flattenItems items scope.push = .ok yield inner) :
    flattenBody items scope = .ok yield.all inner.pop := by
  rw [flattenBody, Flatten.inFrame, Step.map_of_ok h]

theorem flattenBody_of_error {items : List Item} {failure : Failure}
    (h : flattenItems items scope.push = .error failure inner) :
    flattenBody items scope = .error failure inner.pop := by
  rw [flattenBody, Flatten.inFrame, Step.map_of_error h]

def Flattening.keep (kept : List Member) (run : Flattening) : Flattening :=
  ⟨⟨kept ++ run.sheet.members⟩, run.failure⟩

theorem flattenMembers_of_ok {member : Member} {members kept : List Member} {after : Scope Literal}
    (h : member.flatten scope = .ok kept after) : flattenMembers scope (member :: members) =
      ((flattenMembers after members).1.keep kept, (flattenMembers after members).2) := by
  rw [flattenMembers, h]
  rfl

theorem exists_of_flattenMembers_cons {member : Member} {members : List Member}
    (h : (flattenMembers scope (member :: members)).1.failure = none) :
    ∃ kept after, member.flatten scope = .ok kept after ∧
      (flattenMembers after members).1.failure = none := by
  cases hm : member.flatten scope with
  | error failure after =>
    rw [flattenMembers, hm] at h
    cases h
  | ok kept after =>
    rw [flattenMembers_of_ok hm] at h
    exact ⟨kept, after, rfl, h⟩

theorem Item.flatten_branch {condition : Expr} {side : Side} {body : List Item}
    {alternative : Option (List Item)} {fault : Option Fault} {chosen : List Item}
    (hc : condition.eval? scope = some (.bool side.truth))
    (hs : side.items? body alternative = some chosen) :
    (Item.branch condition body alternative fault).flatten scope =
      (Yield.mk [] <$> flattenBody chosen) scope := by
  rw [Item.flatten, Step.bind_of_ok (Flatten.truth_of_some hc)]
  cases side with
  | body =>
    cases hs
    rw [if_pos (show Side.body.truth = true from rfl), bind_pure_comp]
    rfl
  | alternative =>
    cases hs
    rw [if_neg (show ¬Side.alternative.truth = true by decide), flattenElse, bind_pure_comp]
    rfl

theorem Item.flatten_skipped {condition : Expr} {body : List Item} {fault : Option Fault}
    (hc : condition.eval? scope = some (.bool false)) :
    (Item.branch condition body none fault).flatten scope = .ok .empty scope := by
  rw [Item.flatten, Step.bind_of_ok (Flatten.truth_of_some hc)]
  rfl

theorem Item.flatten_branch_of_ne {condition : Expr} {body : List Item}
    {alternative : Option (List Item)} {fault : Option Fault}
    (hc : ¬∃ truth, condition.eval? scope = some (.bool truth)) :
    (Item.branch condition body alternative fault).flatten scope =
      .error (Item.branch condition body alternative fault).failure scope := by
  rw [Item.flatten, Step.bind_of_error (Flatten.truth_of_ne fun truth h => hc ⟨truth, h⟩),
    Item.failure]

end Steps

/-- A condition chooses a side of its branch, or an alternative that is not there, or nothing since
it has no truth value. -/
theorem Side.chosen_cases {body : List Item} {alternative : Option (List Item)}
    {holds : List Item → Prop} (value : Option Literal) (hb : holds body)
    (ha : ∀ other, alternative = some other → holds other) :
    (∃ side inner, value = some (.bool (Side.truth side)) ∧
      Side.items? body alternative side = some inner ∧ holds inner) ∨
    (value = some (.bool false) ∧ alternative = none) ∨
    ¬∃ truth, value = some (.bool truth) := by
  by_cases hv : ∃ truth, value = some (.bool truth)
  · obtain ⟨truth, rfl⟩ := hv
    cases truth with
    | true => exact .inl ⟨.body, body, rfl, rfl, hb⟩
    | false =>
      cases alternative with
      | none => exact .inr (.inl ⟨rfl, rfl⟩)
      | some other => exact .inl ⟨.alternative, other, rfl, rfl, ha other rfl⟩
  · exact .inr (.inr hv)

/-- What flattening a body in a frame of its own comes to. -/
def BodyFlattens (items : List Item) : Prop :=
  ∀ (env : Env) (scope : Scope Literal), env.Describes Expr.valueBy scope →
    (∃ results, flattenBody items scope = .ok results scope ∧
      AllResolved env items (fun _ => True) ∧ Lists env items (fun _ => True) results) ∨
    ∃ failure, flattenBody items scope = .error failure scope ∧ Fails env items failure

/-- What flattening the rest of a body comes to, in the frame of the body. -/
def RestFlattens (items : List Item) : Prop :=
  ∀ (env : Env) (before : List Item) (scope : Scope Literal),
    (env.past before).Describes Expr.valueBy scope →
    (∃ yield after, flattenItems items scope = .ok yield after ∧ after.pop = scope.pop ∧
      (env.past (before ++ items)).Describes Expr.valueBy after ∧
      Listing env (before ++ items) before.length (before ++ items).length yield) ∨
    ∃ failure after, flattenItems items scope = .error failure after ∧ after.pop = scope.pop ∧
      Fails env (before ++ items) failure

theorem RestFlattens.body {items : List Item} (h : RestFlattens items) : BodyFlattens items := by
  intro env scope hd
  rcases h env [] scope.push hd.push with ⟨yield, after, ho, hp, _, hl⟩ |
    ⟨failure, after, he, hp, hf⟩
  · refine .inl ⟨yield.all, ?_, Listing.all hl⟩
    rw [flattenBody_of_ok ho, hp, Scope.pop_push]
  · refine .inr ⟨failure, ?_, hf⟩
    rw [flattenBody_of_error he, hp, Scope.pop_push]

/-- What flattening the next item of a body comes to. -/
def HeadFlattens (env : Env) (before : List Item) (head : Item) (rest : List Item)
    (scope : Scope Literal) : Prop :=
  (∃ first mid, head.flatten scope = .ok first mid ∧ mid.pop = scope.pop ∧
    (env.past (before ++ [head])).Describes Expr.valueBy mid ∧
    Listing env (before ++ head :: rest) before.length (before.length + 1) first) ∨
  ∃ failure, head.flatten scope = .error failure scope ∧
    Fails env (before ++ head :: rest) failure

theorem RestFlattens.nil : RestFlattens [] := by
  intro env before scope hd
  refine .inl ⟨.empty, scope, rfl, rfl, ?_, .empty ?_⟩
  · simpa using hd
  · simp

theorem RestFlattens.cons {head : Item} {rest : List Item}
    (hh : ∀ env before scope, (Env.past env before).Describes Expr.valueBy scope →
      HeadFlattens env before head rest scope)
    (hr : RestFlattens rest) : RestFlattens (head :: rest) := by
  intro env before scope hd
  have happ : before ++ head :: rest = (before ++ [head]) ++ rest := by simp
  have hlen : (before ++ [head]).length = before.length + 1 := by simp
  rcases hh env before scope hd with ⟨first, mid, hf, hpm, hdm, hlf⟩ | ⟨failure, hf, hfail⟩
  -- the frame in which the rest is flattened holds what counts behind the head
  · rcases hr env (before ++ [head]) mid hdm with ⟨second, after, hs, hpa, hda, hls⟩ |
      ⟨failure, after, hs, hpa, hfail⟩
    · refine .inl ⟨first.append second, after, ?_, hpa.trans hpm, happ ▸ hda, ?_⟩
      · rw [flattenItems, Step.bind_of_ok hf, Step.bind_of_ok hs]
        rfl
      · rw [hlen, ← happ] at hls
        refine hlf.append hls (by omega) ?_
        simp only [List.length_append, List.length_cons]
        omega
    · refine .inr ⟨failure, after, ?_, hpa.trans hpm, happ ▸ hfail⟩
      rw [flattenItems, Step.bind_of_ok hf, Step.bind_of_error hs]
  · refine .inr ⟨failure, scope, ?_, rfl, hfail⟩
    rw [flattenItems, Step.bind_of_error hf]

section Head

variable {env : Env} {before rest : List Item} {scope : Scope Literal}

theorem Env.Describes.eval? {env : Env} (h : env.Describes Expr.valueBy scope) (expr : Expr) :
    expr.eval? scope = expr.valueIn? env := by
  rw [Expr.eval?_eq_valueBy, h.resolve, Expr.valueIn?]

theorem Fails.head {head : Item} (hd : (env.past before).Describes Expr.valueBy scope)
    (h : ¬head.Resolved (env.past before)) :
    Fails env (before ++ head :: rest) head.failure :=
  ⟨_, _, _, stands_here_iff.2 ⟨rfl, rfl⟩, hd.bound, h, rfl⟩

namespace HeadFlattens

theorem declaration {d : Declaration} (hd : (env.past before).Describes Expr.valueBy scope) :
    HeadFlattens env before (.declaration d) rest scope := by
  cases hv : d.value.valueIn? (env.past before) with
  | none =>
    refine .inr ⟨_, ?_, .head hd (by simp [Item.Resolved, hv])⟩
    have he : d.value.eval? scope = none := by rw [hd.eval?, hv]
    rw [Item.flatten, Step.bind_of_error (Flatten.value_of_none he), Item.failure]
  | some value =>
    have hr : (Item.declaration d).Resolved (env.past before) := ⟨value, hv⟩
    refine .inl ⟨⟨[{ d with value := .literal value }], []⟩, scope, ?_, rfl, ?_, ?_⟩
    · rw [Item.flatten, Step.bind_of_ok (Flatten.value_of_some (by rw [hd.eval?, hv]))]
      rfl
    · rwa [Env.past_declaration]
    · exact .ofDirect hd.bound hr (by simp) (.ofDeclaration hv)

theorem assignment {a : Assignment} (hd : (env.past before).Describes Expr.valueBy scope) :
    HeadFlattens env before (.assignment a) rest scope := by
  cases hv : a.value.valueIn? (env.past before) with
  | none =>
    refine .inr ⟨_, ?_, .head hd (by simp [Item.Resolved, hv])⟩
    have he : a.value.eval? scope = none := by rw [hd.eval?, hv]
    rw [Item.flatten, Step.bind_of_error (Flatten.bind_of_none he), Item.failure]
  | some value =>
    have hr : (Item.assignment a).Resolved (env.past before) := ⟨value, hv⟩
    refine .inl ⟨.empty, scope.declare a.name value, ?_, Scope.pop_declare .., ?_, ?_⟩
    · rw [Item.flatten, Step.bind_of_ok (Flatten.bind_of_some (by rw [hd.eval?, hv]))]
      rfl
    · rw [Env.past_assignment]
      exact hd.declare hv
    · exact .ofDirect hd.bound hr (by simp) (.ofOther (by simp))

variable {condition : Expr} {body : List Item} {alternative : Option (List Item)}
  {fault : Option Fault}

theorem side {side : Side} {inner : List Item}
    (hd : (env.past before).Describes Expr.valueBy scope)
    (hv : condition.valueIn? (env.past before) = some (.bool side.truth))
    (hs : side.items? body alternative = some inner) (hi : BodyFlattens inner) :
    HeadFlattens env before (.branch condition body alternative fault) rest scope := by
  have hrun : (Item.branch condition body alternative fault).flatten scope =
      (Yield.mk [] <$> flattenBody inner) scope :=
    Item.flatten_branch ((hd.eval? condition).trans hv) hs
  rcases hi (env.past before) scope hd with ⟨results, ho, hr, hl⟩ | ⟨failure, he, hf⟩
  · refine .inl ⟨⟨[], results⟩, scope, ?_, rfl, ?_, .ofBranch hd.bound hv hs hr hl⟩
    · rw [hrun, Step.map_of_ok ho]
    · rwa [Env.past_branch]
  · obtain ⟨place, item, within, ha, hb, hn, rfl⟩ := hf
    refine .inr ⟨item.failure, ?_, .inside before.length side place, item, within, ?_, hb, hn, rfl⟩
    · rw [hrun, Step.map_of_error he]
    · exact stands_inside_iff.2 ⟨_, _, _, _, _, rfl, hs, hv, ha⟩

theorem skipped (hd : (env.past before).Describes Expr.valueBy scope)
    (hv : condition.valueIn? (env.past before) = some (.bool false)) :
    HeadFlattens env before (.branch condition body none fault) rest scope := by
  have hr : (Item.branch condition body none fault).Resolved (env.past before) := ⟨false, hv⟩
  refine .inl ⟨.empty, scope, Item.flatten_skipped ((hd.eval? condition).trans hv), rfl, ?_, ?_⟩
  · rwa [Env.past_branch]
  · refine .ofDirect hd.bound hr ?_ (.ofOther (by simp))
    intro c b a f hh side inner hs
    cases hh
    cases side with
    | body => simp [hv, Side.truth]
    | alternative => cases hs

theorem branch (hd : (env.past before).Describes Expr.valueBy scope) (hb : BodyFlattens body)
    (ha : ∀ other, alternative = some other → BodyFlattens other) :
    HeadFlattens env before (.branch condition body alternative fault) rest scope := by
  rcases Side.chosen_cases (condition.valueIn? (env.past before)) hb ha with
    ⟨_, inner, hv, hs, hi⟩ | ⟨hv, rfl⟩ | hv
  · exact side hd hv hs hi
  · exact skipped hd hv
  · refine .inr ⟨_, Item.flatten_branch_of_ne ?_, .head hd hv⟩
    rwa [hd.eval?]

end HeadFlattens

end Head

theorem flattens (items : List Item) : RestFlattens items := by
  induction items using bodyInduction with
  | nil => exact .nil
  | declaration d rest ih => exact .cons (fun _ _ _ => .declaration) ih
  | assignment a rest ih => exact .cons (fun _ _ _ => .assignment) ih
  | branch condition body alternative fault rest hb ha ih =>
    exact .cons (fun _ _ _ hd => .branch hd hb.body fun other h => (ha other h).body) ih

namespace Sheet

def Fails (sheet : Sheet) (failure : Failure) : Prop :=
  ∃ number item env, sheet.Active number item env ∧ env.Bound Expr.valueBy ∧ ¬item.Resolved env ∧
    failure = item.failure

/-- What flattening the members from a number on comes to. -/
def MembersFlatten (sheet : Sheet) (number : Nat) (rest : List Member) (run : Flattening) : Prop :=
  (run.failure = none ∧
    (∀ later item env, number ≤ later → sheet.Active later item env →
      env.Bound Expr.valueBy ∧ item.Resolved env) ∧
    List.Forall₂ sheet.Flattened
      ((rest.zipIdx number).filterMap fun member => member.1.rule?.map (member.2, ·))
      run.sheet.members) ∨
  ∃ failure, run.failure = some failure ∧ sheet.Fails failure

theorem MembersFlatten.cons {sheet : Sheet} {number : Nat} {member : Member}
    {rest kept : List Member} {run : Flattening}
    (hr : ∀ item env, sheet.Active number item env → env.Bound Expr.valueBy ∧ item.Resolved env)
    (hk : List.Forall₂ sheet.Flattened (member.rule?.map (number, ·)).toList kept)
    (h : sheet.MembersFlatten (number + 1) rest run) :
    sheet.MembersFlatten number (member :: rest) ⟨⟨kept ++ run.sheet.members⟩, run.failure⟩ := by
  rcases h with ⟨hn, hres, hf⟩ | h
  · refine .inl ⟨hn, fun later item env hl ha => ?_, ?_⟩
    · rcases Nat.eq_or_lt_of_le hl with rfl | hl
      · exact hr item env ha
      · exact hres later item env hl ha
    · have happ := List.rel_append hk hf
      cases member <;> simpa [Member.rule?] using happ
  · exact .inr h

theorem flattens_members (sheet : Sheet) (rest before : List Member) (scope : Scope Literal)
    (hm : sheet.members = before ++ rest)
    (hd : (sheet.envAt before.length).Describes Expr.valueBy scope) :
    sheet.MembersFlatten before.length rest (flattenMembers scope rest).1 := by
  induction rest generalizing before scope with
  | nil =>
    refine .inl ⟨rfl, fun later item env hl ha => ?_, .nil⟩
    have hlt := ha.lt_length
    simp only [hm, List.append_nil] at hlt
    omega
  | cons member rest ih =>
    have hm' : sheet.members = (before ++ [member]) ++ rest := by simp [hm]
    have hlen : (before ++ [member]).length = before.length + 1 := by simp
    have henv := envAt_succ hm
    have ih := ih (before ++ [member])
    rw [hlen, henv] at ih
    cases member with
    | rule r =>
      rcases (flattens r.body).body _ _ hd with ⟨results, ho, hr, hl⟩ | ⟨failure, he, hf⟩
      · have hrun : (Member.rule r).flatten scope =
            .ok [.rule { r with body := results.map .declaration }] scope := by
          rw [Member.flatten, Step.bind_of_ok ho]
          rfl
        rw [flattenMembers, hrun]
        refine .cons (fun item env ha => ?_) (.cons ⟨results, hl, rfl⟩ .nil) (ih scope hm' hd)
        obtain ⟨place, ha⟩ := ha.rule hm
        exact hr place item env trivial ha
      · have hrun : (Member.rule r).flatten scope = .error failure scope := by
          rw [Member.flatten, Step.bind_of_error he]
        obtain ⟨place, item, within, ha, hb, hn, rfl⟩ := hf
        refine .inr ⟨item.failure, by rw [flattenMembers, hrun], ?_⟩
        exact ⟨before.length, item, within, .inRule (by simp [hm]) ha, hb, hn, rfl⟩
    | assignment a =>
      cases hv : a.value.valueIn? (sheet.envAt before.length) with
      | some value =>
        have hrun : (Member.assignment a).flatten scope =
            .ok [] (scope.declare a.name value) := by
          rw [Member.flatten, Step.bind_of_ok (Flatten.bind_of_some (by rw [hd.eval?, hv]))]
          rfl
        rw [flattenMembers, hrun]
        refine .cons (fun item env ha => ?_) .nil (ih _ hm' (hd.declare hv))
        obtain ⟨rfl, rfl⟩ := ha.assignment_eq hm
        exact ⟨hd.bound, value, hv⟩
      | none =>
        have hrun : (Member.assignment a).flatten scope =
            .error (Item.assignment a).failure scope := by
          rw [Member.flatten, Step.bind_of_error (Flatten.bind_of_none (by rw [hd.eval?, hv])),
            Item.failure]
        refine .inr ⟨_, by rw [flattenMembers, hrun], ?_⟩
        exact ⟨before.length, .assignment a, _, .assignment (by simp [hm]), hd.bound,
          by simp [Item.Resolved, hv], rfl⟩

theorem flatten_run (sheet : Sheet) : sheet.MembersFlatten 0 sheet.members sheet.flatten :=
  sheet.flattens_members sheet.members [] _ rfl .top

/-- Flattening succeeds just if all active items have what they need. Then it leaves the rules, in
their order and with their selectors, and in each the results of its active declarations. -/
theorem flatten_lexical (sheet : Sheet) :
    (sheet.flatten.failure = none ↔
      ∀ number item env, sheet.Active number item env → item.Resolved env) ∧
    (sheet.flatten.failure = none →
      List.Forall₂ sheet.Flattened sheet.rules sheet.flatten.sheet.members) := by
  rcases sheet.flatten_run with ⟨hn, hr, hf⟩ | ⟨failure, he, number, item, env, ha, -, hno, -⟩
  · refine ⟨⟨fun _ number item env ha => ?_, fun _ => hn⟩, fun _ => hf⟩
    exact (hr number item env (Nat.zero_le _) ha).2
  · have hne : sheet.flatten.failure ≠ none := by simp [he]
    refine ⟨⟨fun h => absurd h hne, fun h => ?_⟩, fun h => absurd h hne⟩
    exact absurd (h number item env ha) hno

end Sheet

end TypedStyle
