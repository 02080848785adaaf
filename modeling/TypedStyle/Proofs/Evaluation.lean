import TypedStyle.Proofs.Meaning
import TypedStyle.Proofs.References
import Mathlib.Data.List.Forall2

set_option autoImplicit false

namespace TypedStyle

/-- The table of the operations: sums and differences within a measure, and products with a scalar
on one side. -/
inductive Exact.Combines : Operator → Exact → Exact → Exact → Prop where
  | sum (measure : Measure) (left right : Int) :
    Combines .add (.number measure left) (.number measure right) (.number measure (left + right))
  | difference (measure : Measure) (left right : Int) :
    Combines .subtract (.number measure left) (.number measure right)
      (.number measure (left - right))
  | scaled (measure : Measure) (left right : Int) :
    Combines .multiply (.number measure left) (.number .scalar right)
      (.number measure (left * right))
  | scaling (measure : Measure) (left right : Int) :
    Combines .multiply (.number .scalar left) (.number measure right)
      (.number measure (left * right))

namespace Expr

inductive Evaluates (scope : Scope Literal) : Expr → Exact → Prop where
  | literal (value : Literal) (fault : Option Fault) :
    Evaluates scope (.literal value fault) value.exact
  | reference {name : String} {value : Literal} (fault : Option Fault)
      (bound : scope.resolve? name = some value) :
    Evaluates scope (.reference name fault) value.exact
  | operation {op : Operator} {left right : Expr} {l r result : Exact} (fault : Option Fault)
      (onLeft : Evaluates scope left l) (onRight : Evaluates scope right r)
      (combined : Exact.Combines op l r result) :
    Evaluates scope (.operation op left right fault) result

/-- No part of the expression, the whole one included, has a result out of range. -/
def InRange (scope : Scope Literal) (expr : Expr) : Prop :=
  ∀ way part result, expr.at? way = some part → part.Evaluates scope result → ¬result.Outside

end Expr

/-- Both scopes have the same names, frame for frame, with types in the one and with values of these
types in the other. -/
def Scope.Types (types : Scope ValueType) (values : Scope Literal) : Prop :=
  List.Forall₂ (fun known bound => ∀ name, known.lookup name = (bound.lookup name).map Literal.type)
    types.frames values.frames

theorem Exact.combines_iff {op : Operator} {left right result : Exact} :
    Combines op left right result ↔ operate? op left right = some result := by
  constructor
  · rintro (_ | _ | ⟨measure⟩ | ⟨measure⟩)
    · simp [operate?, Operator.measure?, Operator.compute]
    · simp [operate?, Operator.measure?, Operator.compute]
    · cases measure <;> rfl
    · cases measure <;> rfl
  · intro h
    cases left with
    | number l left =>
      cases right with
      | number r right =>
        obtain ⟨measure, hm, rfl⟩ := Option.map_eq_some_iff.mp h
        cases op with
        | add =>
          obtain ⟨rfl, rfl⟩ : l = r ∧ l = measure := by simpa [Operator.measure?] using hm
          exact .sum l left right
        | subtract =>
          obtain ⟨rfl, rfl⟩ : l = r ∧ l = measure := by simpa [Operator.measure?] using hm
          exact .difference l left right
        | multiply =>
          cases l <;> cases r <;> cases hm <;>
            first
            | exact .scaling _ left right
            | exact .scaled _ left right
      | _ => cases h
    | _ => cases h

namespace Expr

variable {scope : Scope Literal}

theorem evaluates_iff {expr : Expr} {result : Exact} :
    expr.Evaluates scope result ↔ expr.exactBy scope.resolve? = some result := by
  constructor
  · intro h
    induction h with
    | literal value fault => rfl
    | reference fault bound => rw [exactBy, bound, Option.map_some]
    | operation fault _ _ combined ihl ihr =>
      simpa [exactBy, ihl, ihr] using Exact.combines_iff.mp combined
  · intro h
    induction expr generalizing result with
    | literal value fault =>
      cases h
      exact .literal value fault
    | reference name fault =>
      obtain ⟨value, hv, rfl⟩ := Option.map_eq_some_iff.mp h
      exact .reference fault hv
    | operation op left right fault ihl ihr =>
      simp only [exactBy, bind, Option.bind_eq_some_iff] at h
      obtain ⟨l, hl, r, hr, ho⟩ := h
      exact .operation fault (ihl hl) (ihr hr) (Exact.combines_iff.mpr ho)

theorem inRange_literal (value : Literal) (fault : Option Fault) :
    InRange scope (.literal value fault) := by
  intro way part result ha he
  cases way with
  | nil =>
    cases ha
    cases he
    exact Exact.not_outside_exact value
  | cons hand way => cases ha

theorem inRange_reference (name : String) (fault : Option Fault) :
    InRange scope (.reference name fault) := by
  intro way part result ha he
  cases way with
  | nil =>
    cases ha
    obtain _ | @⟨_, value, _, -⟩ := he
    exact Exact.not_outside_exact value
  | cons hand way => cases ha

theorem inRange_operation (op : Operator) (left right : Expr) (fault : Option Fault) :
    InRange scope (.operation op left right fault) ↔
      left.InRange scope ∧ right.InRange scope ∧
        ∀ result, Evaluates scope (.operation op left right fault) result → ¬result.Outside := by
  constructor
  · intro h
    exact ⟨fun way => h (.left :: way), fun way => h (.right :: way),
      fun result => h [] _ result rfl⟩
  · rintro ⟨hl, hr, htop⟩ way part result ha he
    cases way with
    | nil =>
      cases ha
      exact htop result he
    | cons hand way =>
      cases hand with
      | left => exact hl way part result ha he
      | right => exact hr way part result ha he

theorem inRange_iff (expr : Expr) : expr.InRange scope ↔ ¬expr.Overflows scope.resolve? := by
  induction expr with
  | literal value fault => exact ⟨fun _ h => h, fun _ => inRange_literal value fault⟩
  | reference name fault => exact ⟨fun _ h => h, fun _ => inRange_reference name fault⟩
  | operation op left right fault ihl ihr =>
    rw [inRange_operation, ihl, ihr]
    simp only [evaluates_iff, Overflows, not_or, not_exists, not_and]

theorem eval?_eq_some_iff {expr : Expr} {value : Literal} : expr.eval? scope = some value ↔
    expr.Evaluates scope value.exact ∧ expr.InRange scope := by
  rw [eval?_eq_valueBy, valueBy_eq_some_iff, evaluates_iff, inRange_iff]

theorem exists_eval?_iff (expr : Expr) : (∃ value, expr.eval? scope = some value) ↔
    (∃ result, expr.Evaluates scope result) ∧ expr.InRange scope := by
  constructor
  · rintro ⟨value, h⟩
    obtain ⟨he, hr⟩ := eval?_eq_some_iff.mp h
    exact ⟨⟨_, he⟩, hr⟩
  · rintro ⟨⟨result, he⟩, hr⟩
    obtain ⟨value, rfl⟩ := Exact.exists_exact_eq (hr [] expr result rfl he)
    exact ⟨value, eval?_eq_some_iff.mpr ⟨he, hr⟩⟩

theorem type_operationType (op : Operator) (left right : Expr) (l r : ValueType) :
    (match operationType op left right l r with
      | .ok type => type
      | .error _ => .undefined) = (op.type? l r).getD .undefined := by
  cases l with
  | number l =>
    cases r with
    | number r =>
      cases hm : op.measure? l r with
      | some measure => simp [operationType, Operator.type?, hm]
      | none => cases op <;> simp [operationType, Operator.type?, hm]
    | _ => rfl
  | _ => cases r <;> rfl

theorem exactBy_of_unfit {look : String → Option Literal} {op : Operator} {left right : Expr}
    {fault : Option Fault} (h : left.Unfit ∨ right.Unfit) :
    exactBy look (.operation op left right fault) = none := by
  rcases h with h | h
  · cases left with
    | literal value found =>
      rw [exactBy]
      cases value with
      | number measure value => exact absurd h not_false
      | _ => cases right.exactBy look <;> rfl
    | _ => exact absurd h not_false
  · cases right with
    | literal value found =>
      rw [exactBy]
      cases value with
      | number measure value => exact absurd h not_false
      | _ => cases left.exactBy look with
        | none => rfl
        | some l => cases l <;> rfl
    | _ => exact absurd h not_false

theorem snd_check_of_fit {scope : Scope ValueType} {op : Operator} {left right : Expr}
    {fault : Option Fault} (h : ¬(left.Unfit ∨ right.Unfit)) :
    (check scope (.operation op left right fault)).2 =
      (op.type? (left.check scope).2 (right.check scope).2).getD .undefined := by
  rw [check_of_fit h, ← type_operationType op left right]
  cases operationType op left right (left.check scope).2 (right.check scope).2 <;> rfl

end Expr

namespace Scope.Types

variable {types : Scope ValueType} {values : Scope Literal}

theorem resolve? (h : types.Types values) (name : String) :
    types.resolve? name = (values.resolve? name).map Literal.type := by
  obtain ⟨known⟩ := types
  obtain ⟨bound⟩ := values
  replace h : List.Forall₂ _ known bound := h
  rw [Scope.resolve?, Scope.resolve?]
  induction h with
  | nil => rfl
  | @cons frame bindings known bound hf _ ih =>
    rw [List.findSome?_cons, List.findSome?_cons, hf name]
    cases bindings.lookup name with
    | some value => rfl
    | none => exact ih

theorem type_check (h : types.Types values) (expr : Expr) : (expr.check types).2 =
    ((expr.exactBy values.resolve?).map Exact.type).getD .undefined := by
  induction expr with
  | literal value fault => exact (Exact.type_exact value).symm
  | reference name fault =>
    rw [Expr.check, h.resolve?, Expr.exactBy]
    cases values.resolve? name with
    | none => rfl
    | some value => exact (Exact.type_exact value).symm
  | operation op left right fault ihl ihr =>
    -- the checker refuses literals for sides without looking at the table
    by_cases hu : left.Unfit ∨ right.Unfit
    · rw [Expr.check_of_unfit hu, Expr.exactBy_of_unfit hu]
      rfl
    · rw [Expr.snd_check_of_fit hu, ihl, ihr, Expr.exactBy]
      cases left.exactBy values.resolve? with
      | none => rfl
      | some l =>
        cases right.exactBy values.resolve? with
        | none => cases l <;> rfl
        | some r =>
          simp only [Option.map_some, Option.getD_some, Option.bind_eq_bind, Option.bind_some,
            Expr.type_operate?]

theorem type_of_evaluates (h : types.Types values) {expr : Expr} {result : Exact}
    (he : expr.Evaluates values result) : (expr.check types).2 = result.type := by
  rw [h.type_check, Expr.evaluates_iff.mp he]
  rfl

theorem check_ne_undefined_iff (h : types.Types values) (expr : Expr) :
    (expr.check types).2 ≠ .undefined ↔ ∃ result, expr.Evaluates values result := by
  simp only [Expr.evaluates_iff]
  rw [h.type_check]
  cases expr.exactBy values.resolve? with
  | none => simp
  | some result => cases result <;> simp [Exact.type]

/-- An expression has a type just if it works out, and the type of what comes out. It has a value
just if all numbers on the way are in range, and then just that one. -/
theorem check_agrees (h : types.Types values) (expr : Expr) :
    ((expr.check types).2 ≠ .undefined ↔ ∃ result, expr.Evaluates values result) ∧
      (∀ result, expr.Evaluates values result → result.type = (expr.check types).2) ∧
      ((∃ value, expr.eval? values = some value) ↔
        (expr.check types).2 ≠ .undefined ∧ expr.InRange values) ∧
      ∀ value, expr.eval? values = some value →
        ∀ result, expr.Evaluates values result ↔ result = value.exact := by
  refine ⟨h.check_ne_undefined_iff expr, fun result he => (h.type_of_evaluates he).symm, ?_, ?_⟩
  · rw [h.check_ne_undefined_iff, Expr.exists_eval?_iff]
  · intro value hv result
    have he := (Expr.eval?_eq_some_iff.mp hv).1
    rw [Expr.evaluates_iff] at he ⊢
    rw [he, Option.some.injEq, eq_comm]

/-- The number is in range again in the end, but not on the way. -/
theorem check_agrees_of_detour :
    let values : Scope Literal := ⟨[[("W", .number .pixel 9223372036854775807)], []]⟩
    let types : Scope ValueType := ⟨[[("W", .number .pixel)], []]⟩
    let detour : Expr := .operation .subtract (.operation .add (.reference "W")
      (.literal (.number .pixel 1))) (.literal (.number .pixel 1))
    types.Types values ∧ (∃ result, detour.Evaluates values result ∧ result.type = .number .pixel) ∧
      detour.eval? values = none ∧ ¬detour.InRange values := by
  intro values types detour
  have htypes : types.Types values := by
    refine .cons (fun name => ?_) (.cons (fun name => rfl) .nil)
    rw [List.lookup_cons, List.lookup_cons]
    cases name == "W" <;> rfl
  have hnone : detour.eval? values = none := by decide
  have htype : (detour.check types).2 = .number .pixel := by decide
  obtain ⟨hdefined, hsame, hvalue, -⟩ := check_agrees htypes detour
  obtain ⟨result, he⟩ := hdefined.mp (by decide)
  refine ⟨htypes, ⟨result, he, (hsame result he).trans htype⟩, hnone, fun hr => ?_⟩
  obtain ⟨value, hv⟩ := hvalue.mpr ⟨by decide, hr⟩
  rw [hnone] at hv
  cases hv

end Scope.Types

end TypedStyle
