import TypedStyle.Proofs.Flattening
import TypedStyle.Proofs.Typed

set_option autoImplicit false

namespace TypedStyle

/-- The name has the value in the innermost frame, and the scopes differ in nothing else. Without
frames they do not differ at all. -/
def Scope.Rebinds {α : Type} (scope : Scope α) (name : String) (value : α) (after : Scope α) :
    Prop :=
  match scope.frames with
  | [] => after = scope
  | frame :: outer => ∃ changed, after.frames = changed :: outer ∧
      changed.lookup name = some value ∧
      ∀ other, other ≠ name → changed.lookup other = frame.lookup other

theorem Scope.rebinds_declare {α : Type} (scope : Scope α) (name : String) (value : α) :
    scope.Rebinds name value (scope.declare name value) := by
  obtain ⟨_ | ⟨frame, outer⟩⟩ := scope
  · rfl
  · refine ⟨(name, value) :: frame, rfl, List.lookup_cons_self, fun other ho => ?_⟩
    rw [List.lookup_cons, beq_eq_false_iff_ne.mpr ho]

section Check

variable (scope : Scope ValueType)

theorem Member.pop_check (member : Member) : (member.check scope).2.pop = scope.pop := by
  cases member with
  | rule r => rw [check, Rule.snd_check]
  | assignment a => exact a.pop_check scope

theorem pop_checkMembers (members : List Member) :
    (checkMembers scope members).2.pop = scope.pop := by
  induction members generalizing scope with
  | nil => rfl
  | cons member members ih => rw [checkMembers, ih, member.pop_check]

theorem Sheet.snd_checkIn (sheet : Sheet) : (sheet.checkIn scope).2 = scope := by
  rw [checkIn, pop_checkMembers, Scope.pop_push]

end Check

namespace Flatten

variable {α β : Type} {step : Flatten α} {next : α → Flatten β}

/-- The scope that a step leaves behind, whether it succeeds or fails. -/
def after (step : Flatten α) (scope : Scope Literal) : Scope Literal :=
  match step scope with
  | .ok _ after | .error _ after => after

def Preserves {γ : Type} (view : Scope Literal → γ) (step : Flatten α) : Prop :=
  ∀ scope, view (step.after scope) = view scope

abbrev Restores (step : Flatten α) : Prop :=
  Preserves id step

/-- At most the innermost frame is not the same any more. -/
abbrev Confined (step : Flatten α) : Prop :=
  Preserves Scope.pop step

theorem after_bind (step : Flatten α) (next : α → Flatten β) (scope : Scope Literal) :
    Flatten.after (step >>= next) scope = match step scope with
      | .ok result middle => (next result).after middle
      | .error _ middle => middle := by
  cases hs : step scope with
  | ok result middle => rw [after, Step.bind_of_ok hs]; rfl
  | error failure middle => rw [after, Step.bind_of_error hs]

theorem after_inFrame (step : Flatten α) (scope : Scope Literal) :
    (inFrame step).after scope = (step.after scope.push).pop := by
  rw [after, inFrame, after]
  cases step scope.push <;> rfl

namespace Preserves

variable {γ : Type} {view : Scope Literal → γ}

theorem pure (result : α) : Preserves view (Pure.pure result : Flatten α) :=
  fun _ => rfl

theorem of_ok (h : Preserves view step) {scope last : Scope Literal} {result : α}
    (hr : step scope = .ok result last) : view last = view scope := by
  have hs := h scope
  rwa [after, hr] at hs

theorem of_error (h : Preserves view step) {scope last : Scope Literal} {failure : Failure}
    (hr : step scope = .error failure last) : view last = view scope := by
  have hs := h scope
  rwa [after, hr] at hs

theorem bind (h : Preserves view step) (hn : ∀ result, Preserves view (next result)) :
    Preserves view (step >>= next) := by
  intro scope
  rw [after_bind]
  cases hr : step scope with
  | ok result middle => exact (hn result middle).trans (h.of_ok hr)
  | error failure middle => exact h.of_error hr

theorem map (change : α → β) (h : Preserves view step) : Preserves view (change <$> step) := by
  rw [map_eq_pure_bind]
  exact h.bind fun result => .pure (change result)

theorem confined (h : Restores step) : Confined step :=
  fun scope => congrArg Scope.pop (h scope)

theorem inFrame (h : Confined step) : Restores (inFrame step) := by
  intro scope
  show (Flatten.inFrame step).after scope = scope
  rw [after_inFrame, h scope.push, Scope.pop_push]

end Preserves

theorem restores_value (expr : Expr) : Restores (value expr) := by
  intro scope
  cases he : expr.eval? scope with
  | none => rw [after, value_of_none he]
  | some found => rw [after, value_of_some he]

theorem restores_truth (condition : Expr) : Restores (truth condition) := by
  intro scope
  by_cases he : ∃ truth, condition.eval? scope = some (.bool truth)
  · obtain ⟨truth, he⟩ := he
    rw [after, truth_of_some he]
  · rw [after, truth_of_ne fun truth h => he ⟨truth, h⟩]

theorem confined_bind (a : Assignment) : Confined (Flatten.bind a) :=
  (restores_value a.value).confined.bind fun value scope => scope.pop_declare a.name value

end Flatten

section Flatten

open Flatten

theorem Item.restores_declaration (d : Declaration) :
    Restores (Item.declaration d).flatten :=
  (restores_value d.value).bind fun _ => .pure _

theorem Item.restores_branch (condition : Expr) (fault : Option Fault) {body : List Item}
    {alternative : Option (List Item)} (hb : Restores (flattenBody body))
    (ha : ∀ other, alternative = some other → Restores (flattenBody other)) :
    Restores (Item.branch condition body alternative fault).flatten := by
  refine (restores_truth condition).bind fun chosen => ?_
  cases chosen with
  | true => exact hb.bind fun results => .pure _
  | false =>
    have helse : Restores (flattenElse alternative) := by
      cases alternative with
      | none => exact .pure _
      | some other => exact ha other rfl
    exact helse.bind fun results => .pure _

theorem confined_flattenItems (items : List Item) : Confined (flattenItems items) := by
  have hcons : ∀ {head : Item} {rest : List Item}, Confined head.flatten →
      Confined (flattenItems rest) → Confined (flattenItems (head :: rest)) :=
    fun hh hr => hh.bind fun first => hr.bind fun second => .pure _
  induction items using bodyInduction with
  | nil => exact .pure _
  | declaration d rest ih => exact hcons (Item.restores_declaration d).confined ih
  | assignment a rest ih => exact hcons ((confined_bind a).bind fun _ => .pure _) ih
  | branch condition body alternative fault rest hb ha ih =>
    have hframe : ∀ {inner}, Confined (flattenItems inner) → Restores (flattenBody inner) :=
      fun h => (h.map Yield.all).inFrame
    have hhead : Restores (Item.branch condition body alternative fault).flatten :=
      Item.restores_branch condition fault (hframe hb) fun other h => hframe (ha other h)
    exact hcons hhead.confined ih

theorem restores_flattenBody (items : List Item) : Restores (flattenBody items) :=
  ((confined_flattenItems items).map Yield.all).inFrame

theorem Member.restores_rule (rule : Rule) : Restores (Member.rule rule).flatten :=
  (restores_flattenBody rule.body).bind fun _ => .pure _

theorem Member.confined_flatten (member : Member) : Confined member.flatten := by
  cases member with
  | rule r => exact (Member.restores_rule r).confined
  | assignment a => exact (confined_bind a).bind fun _ => .pure _

theorem pop_flattenMembers (scope : Scope Literal) (members : List Member) :
    (flattenMembers scope members).2.pop = scope.pop := by
  induction members generalizing scope with
  | nil => rfl
  | cons member members ih =>
    rw [flattenMembers]
    cases hr : member.flatten scope with
    | ok kept middle => exact (ih middle).trans (member.confined_flatten.of_ok hr)
    | error failure middle => exact member.confined_flatten.of_error hr

theorem Sheet.snd_flattenIn (scope : Scope Literal) (sheet : Sheet) :
    (sheet.flattenIn scope).2 = scope := by
  rw [flattenIn, pop_flattenMembers, Scope.pop_push]

theorem Assignment.after_bind (scope : Scope Literal) (a : Assignment) :
    match a.value.eval? scope with
    | none => (Flatten.bind a).after scope = scope
    | some value => scope.Rebinds a.name value ((Flatten.bind a).after scope) := by
  cases he : a.value.eval? scope with
  | none =>
    show (Flatten.bind a).after scope = scope
    rw [after, bind_of_none he]
  | some value =>
    show scope.Rebinds a.name value ((Flatten.bind a).after scope)
    rw [after, bind_of_some he]
    exact scope.rebinds_declare a.name value

end Flatten

/-- Rules, branches, alternatives and sheets leave the scope as they have found it, on every path.
Expressions and declarations only read it. An assignment binds its name in the innermost frame and
changes nothing else. -/
theorem frames_closed :
    (∀ scope : Scope ValueType,
      (∀ rule : Rule, (rule.check scope).2 = scope) ∧
      (∀ condition body alternative fault,
        ((Item.branch condition body alternative fault).check scope).2 = scope) ∧
      (∀ alternative, (checkElse scope alternative).2 = scope) ∧
      (∀ sheet : Sheet, (sheet.checkIn scope).2 = scope) ∧
      (∀ d, ((Item.declaration d).check scope).2 = scope) ∧
      ∀ a : Assignment, scope.Rebinds a.name (a.value.check scope).2 (a.check scope).2) ∧
    ∀ scope : Scope Literal,
      (∀ items, (flattenBody items).after scope = scope) ∧
      (∀ condition body alternative fault,
        (Item.branch condition body alternative fault).flatten.after scope = scope) ∧
      (∀ sheet : Sheet, (sheet.flattenIn scope).2 = scope) ∧
      (∀ expr, (Flatten.value expr).after scope = scope) ∧
      (∀ d, (Item.declaration d).flatten.after scope = scope) ∧
      ∀ a : Assignment, match a.value.eval? scope with
        | none => (Flatten.bind a).after scope = scope
        | some value => scope.Rebinds a.name value ((Flatten.bind a).after scope) := by
  constructor
  · intro scope
    exact ⟨Rule.snd_check scope, Item.snd_check_branch scope, snd_checkElse scope,
      Sheet.snd_checkIn scope, fun _ => rfl, fun a => scope.rebinds_declare a.name _⟩
  · intro scope
    refine ⟨fun items => restores_flattenBody items scope,
      fun condition body alternative fault => ?_, Sheet.snd_flattenIn scope,
      fun expr => Flatten.restores_value expr scope, fun d => Item.restores_declaration d scope,
      Assignment.after_bind scope⟩
    exact Item.restores_branch condition fault (restores_flattenBody body)
      (fun other _ => restores_flattenBody other) scope

end TypedStyle
