import TypedStyle.Flatten

/-!
What expressions mean when their names are looked up: a value, an exact value whose numbers have
no bounds, and a type.
-/

set_option autoImplicit false

namespace TypedStyle

/-- A value whose number may have any size. -/
inductive Exact where
  | bool (value : Bool)
  | color (value : String)
  | number (measure : Measure) (value : Int)
  deriving Repr, DecidableEq

def Literal.exact : Literal → Exact
  | .bool value => .bool value
  | .color value => .color value
  | .number measure value => .number measure value.toInt

namespace Exact

def type : Exact → ValueType
  | .bool _ => .bool
  | .color _ => .color
  | .number measure _ => .number measure

def operate? (op : Operator) : Exact → Exact → Option Exact
  | .number left l, .number right r =>
    (op.measure? left right).map fun measure => .number measure (op.compute l r)
  | _, _ => none

def Outside : Exact → Prop
  | .number _ value => value < Int64.minValue.toInt ∨ Int64.maxValue.toInt < value
  | _ => False

@[simp]
theorem type_exact (value : Literal) : value.exact.type = value.type := by
  cases value <;> rfl

end Exact

def Operator.type? (op : Operator) : ValueType → ValueType → Option ValueType
  | .number left, .number right => (op.measure? left right).map .number
  | _, _ => none

namespace Expr

def valueBy (look : String → Option Literal) : Expr → Option Literal
  | .literal value _ => some value
  | .reference name _ => look name
  | .operation op left right _ => do
    let l ← left.valueBy look
    let r ← right.valueBy look
    Literal.operate? op l r

def exactBy (look : String → Option Literal) : Expr → Option Exact
  | .literal value _ => some value.exact
  | .reference name _ => (look name).map Literal.exact
  | .operation op left right _ => do
    let l ← left.exactBy look
    let r ← right.exactBy look
    Exact.operate? op l r

def typeBy (look : String → Option ValueType) : Expr → Option ValueType
  | .literal value _ => some value.type
  | .reference name _ => look name
  | .operation op left right _ => do
    let l ← left.typeBy look
    let r ← right.typeBy look
    op.type? l r

/-- Some arithmetic in the expression, the last or an earlier one, has a result out of range. -/
def Overflows (look : String → Option Literal) : Expr → Prop
  | .operation op left right fault =>
    left.Overflows look ∨ right.Overflows look ∨
      ∃ result, exactBy look (.operation op left right fault) = some result ∧ result.Outside
  | _ => False

theorem eval?_eq_valueBy (scope : Scope Literal) (expr : Expr) :
    expr.eval? scope = expr.valueBy scope.resolve? := by
  induction expr <;> simp_all [eval?, valueBy]

theorem type_operate? (op : Operator) (left right : Exact) :
    (Exact.operate? op left right).map Exact.type = op.type? left.type right.type := by
  cases left <;> cases right <;>
    simp [Exact.operate?, Operator.type?, Exact.type, Function.comp_def]

theorem type_exactBy (look : String → Option Literal) (expr : Expr) :
    (expr.exactBy look).map Exact.type = expr.typeBy fun name => (look name).map Literal.type := by
  induction expr with
  | literal value fault => simp [exactBy, typeBy]
  | reference name fault => simp [exactBy, typeBy, Function.comp_def]
  | operation op left right fault ihl ihr =>
    simp only [exactBy, typeBy, ← ihl, ← ihr]
    cases left.exactBy look <;> cases right.exactBy look <;> simp [type_operate?]

end Expr

theorem minValue_toInt : Int64.minValue.toInt = -9223372036854775808 := by
  decide

theorem maxValue_toInt : Int64.maxValue.toInt = 9223372036854775807 := by
  decide

theorem int64?_eq_some_iff (value : Int) (word : Int64) :
    int64? value = some word ↔ word.toInt = value := by
  rw [int64?, minValue_toInt, maxValue_toInt]
  constructor
  · intro h
    split at h
    · next hr =>
      cases h
      exact Int64.toInt_ofInt_of_le (by omega) (by omega)
    · simp at h
  · intro h
    subst h
    have hl := word.le_toInt
    have hu := word.toInt_lt
    rw [if_pos (by omega), Int64.ofInt_toInt]

namespace Exact

theorem exact_injective {value other : Literal} (h : value.exact = other.exact) :
    value = other := by
  cases value <;> cases other <;> simp_all [Literal.exact, ← Int64.toInt_inj]

theorem not_outside_exact (value : Literal) : ¬value.exact.Outside := by
  cases value with
  | number measure word =>
    have hl := word.le_toInt
    have hu := word.toInt_lt
    simp only [Literal.exact, Outside, minValue_toInt, maxValue_toInt]
    omega
  | _ => simp [Literal.exact, Outside]

theorem exists_exact_eq {result : Exact} (h : ¬result.Outside) :
    ∃ value : Literal, value.exact = result := by
  cases result with
  | bool value => exact ⟨.bool value, rfl⟩
  | color value => exact ⟨.color value, rfl⟩
  | number measure value =>
    simp only [Outside, minValue_toInt, maxValue_toInt] at h
    refine ⟨.number measure (.ofInt value), ?_⟩
    rw [Literal.exact, Int64.toInt_ofInt_of_le (by omega) (by omega)]

end Exact

theorem Literal.operate?_eq_some_iff (op : Operator) (left right value : Literal) :
    Literal.operate? op left right = some value ↔
      Exact.operate? op left.exact right.exact = some value.exact := by
  cases left <;> cases right <;> try simp [operate?, Exact.operate?, Literal.exact]
  rename_i l left r right
  cases op.measure? l r with
  | none => simp
  | some measure =>
    cases value <;> simp [Option.bind_eq_some_iff, int64?_eq_some_iff]
    rename_i m word
    constructor
    · intro h
      exact ⟨h.2, h.1.symm⟩
    · intro h
      exact ⟨h.2.symm, h.1⟩

namespace Expr

theorem not_outside_of_not_overflows {look : String → Option Literal} {expr : Expr}
    {result : Exact} (h : expr.exactBy look = some result) (ho : ¬expr.Overflows look) :
    ¬result.Outside := by
  cases expr with
  | literal value fault =>
    obtain rfl : value.exact = result := by simpa [exactBy] using h
    exact Exact.not_outside_exact value
  | reference name fault =>
    obtain ⟨value, -, rfl⟩ := Option.map_eq_some_iff.1 h
    exact Exact.not_outside_exact value
  | operation op left right fault =>
    intro hr
    exact ho (.inr (.inr ⟨result, h, hr⟩))

/-- The arithmetic on words is that on integers, as long as nothing leaves the range. -/
theorem valueBy_eq_some_iff (look : String → Option Literal) (expr : Expr) (value : Literal) :
    expr.valueBy look = some value ↔
      expr.exactBy look = some value.exact ∧ ¬expr.Overflows look := by
  induction expr generalizing value with
  | literal v fault =>
    simp only [valueBy, exactBy, Overflows, Option.some.injEq, not_false_eq_true, and_true]
    exact ⟨congrArg Literal.exact, Exact.exact_injective⟩
  | reference name fault =>
    cases h : look name with
    | none => simp [valueBy, exactBy, h]
    | some v =>
      simp only [valueBy, exactBy, Overflows, h, Option.map_some, Option.some.injEq,
        not_false_eq_true, and_true]
      exact ⟨congrArg Literal.exact, Exact.exact_injective⟩
  | operation op left right fault ihl ihr =>
    constructor
    · intro h
      simp only [valueBy, bind, Option.bind_eq_some_iff] at h
      obtain ⟨l, hl, r, hr, ho⟩ := h
      obtain ⟨hle, hlo⟩ := (ihl l).1 hl
      obtain ⟨hre, hro⟩ := (ihr r).1 hr
      have he : exactBy look (.operation op left right fault) = some value.exact := by
        simpa [exactBy, hle, hre] using (Literal.operate?_eq_some_iff op l r value).1 ho
      refine ⟨he, ?_⟩
      intro h
      obtain h | h | ⟨result, h, hout⟩ := h
      · exact hlo h
      · exact hro h
      · rw [he] at h
        cases h
        exact Exact.not_outside_exact value hout
    · intro h
      obtain ⟨he, hno⟩ := h
      simp only [Overflows, not_or] at hno
      -- the sides have values by themselves, since neither of them leaves the range
      obtain ⟨hlo, hro, -⟩ := hno
      simp only [exactBy, bind, Option.bind_eq_some_iff] at he
      obtain ⟨x, hx, y, hy, ho⟩ := he
      obtain ⟨l, rfl⟩ := Exact.exists_exact_eq (not_outside_of_not_overflows hx hlo)
      obtain ⟨r, rfl⟩ := Exact.exists_exact_eq (not_outside_of_not_overflows hy hro)
      have hv := (Literal.operate?_eq_some_iff op l r value).2 ho
      simpa [valueBy, (ihl l).2 ⟨hx, hlo⟩, (ihr r).2 ⟨hy, hro⟩] using hv

theorem overflows_of_valueBy_eq_none {look : String → Option Literal} {expr : Expr}
    {result : Exact} (he : expr.exactBy look = some result) (hv : expr.valueBy look = none) :
    expr.Overflows look := by
  apply Classical.byContradiction
  intro ho
  obtain ⟨value, rfl⟩ := Exact.exists_exact_eq (not_outside_of_not_overflows he ho)
  rw [(valueBy_eq_some_iff look expr value).2 ⟨he, ho⟩] at hv
  simp at hv

theorem type_of_valueBy {look : String → Option Literal} {expr : Expr} {value : Literal}
    (h : expr.valueBy look = some value) :
    expr.typeBy (fun name => (look name).map Literal.type) = some value.type := by
  rw [← type_exactBy, ((valueBy_eq_some_iff look expr value).1 h).1]
  simp

end Expr

end TypedStyle
