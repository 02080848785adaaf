import TypedStyle.Proofs.Flattening
import TypedStyle.Proofs.Typed

set_option autoImplicit false

namespace TypedStyle

theorem Env.Bound.lookUp_type {env : Env} (h : env.Bound Expr.valueBy) :
    env.lookUp Expr.typeBy = fun name => (env.lookUp Expr.valueBy name).map Literal.type := by
  induction env with
  | nil =>
    funext name
    simp [lookUp]
  | cons a earlier ih =>
    obtain ⟨⟨value, hv⟩, hb⟩ := h
    funext name
    simp only [lookUp, ih hb]
    split
    · rw [hv]
      exact Expr.type_of_valueBy hv
    · rfl

theorem Env.Bound.typeIn? {env : Env} (h : env.Bound Expr.valueBy) (expr : Expr) :
    expr.typeIn? env = (expr.exactIn? env).map Exact.type := by
  rw [Expr.typeIn?, h.lookUp_type, Expr.exactIn?, Expr.type_exactBy]

/-- A truth value is written or named, since there is no arithmetic on it. -/
theorem Env.Bound.valueIn?_of_bool {env : Env} (h : env.Bound Expr.valueBy) {expr : Expr}
    (ht : expr.typeIn? env = some .bool) : ∃ truth, expr.valueIn? env = some (.bool truth) := by
  have hbool : ∀ {value : Literal}, value.type = .bool → ∃ truth, value = .bool truth := by
    intro value hv
    cases value <;> simp_all [Literal.type]
  rw [Expr.typeIn?, h.lookUp_type] at ht
  cases expr with
  | literal value fault =>
    obtain ⟨truth, rfl⟩ := hbool (Option.some.inj ht)
    exact ⟨truth, rfl⟩
  | reference name fault =>
    obtain ⟨value, hv, hvt⟩ := Option.map_eq_some_iff.1 ht
    obtain ⟨truth, rfl⟩ := hbool hvt
    exact ⟨truth, hv⟩
  | operation op left right fault =>
    simp only [Expr.typeBy, bind, Option.bind_eq_some_iff] at ht
    obtain ⟨l, -, r, -, ht⟩ := ht
    cases l <;> cases r <;> simp [Operator.type?] at ht

def Item.expression? : Item → Option Expr
  | .declaration d => some d.value
  | .assignment a => some a.value
  | .branch _ _ _ _ => none

theorem Env.Bound.overflows {env : Env} (h : env.Bound Expr.valueBy) {expr : Expr}
    {type : ValueType} (ht : expr.typeIn? env = some type)
    (hn : ¬∃ value, expr.valueIn? env = some value) :
    ∃ result, expr.exactIn? env = some result ∧ expr.OverflowsIn env := by
  rw [h.typeIn?] at ht
  obtain ⟨result, hr, -⟩ := Option.map_eq_some_iff.1 ht
  refine ⟨result, hr, Expr.overflows_of_valueBy_eq_none hr ?_⟩
  cases hv : expr.valueIn? env with
  | none => exact hv
  | some value => exact absurd ⟨value, hv⟩ hn

theorem Item.Typed.overflows {env : Env} {item : Item} (ht : item.Typed env)
    (hb : env.Bound Expr.valueBy) (hn : ¬item.Resolved env) :
    ∃ expr result, item.expression? = some expr ∧ expr.exactIn? env = some result ∧
      expr.OverflowsIn env ∧ item.failure = ⟨.unresolvedExpression expr.text, none⟩ := by
  cases item with
  | declaration d =>
    obtain ⟨type, ht, -⟩ := ht
    obtain ⟨result, hr, ho⟩ := hb.overflows ht hn
    exact ⟨d.value, result, rfl, hr, ho, rfl⟩
  | assignment a =>
    obtain ⟨type, ht⟩ := ht
    obtain ⟨result, hr, ho⟩ := hb.overflows ht hn
    exact ⟨a.value, result, rfl, hr, ho, rfl⟩
  | branch condition body alternative fault => exact absurd (hb.valueIn?_of_bool ht) hn

theorem Sheet.mem_rules {sheet : Sheet} {number : Nat} {rule : Rule}
    (h : (number, rule) ∈ sheet.rules) : sheet.members[number]? = some (.rule rule) := by
  simp only [rules, List.mem_filterMap, Prod.exists] at h
  obtain ⟨member, index, hm, hr⟩ := h
  cases member with
  | rule r =>
    cases hr
    exact List.mem_zipIdx_iff_getElem?.1 hm
  | assignment a => cases hr

def Rule.Fits (rule : Rule) : Prop :=
  ∀ item ∈ rule.body, ∃ declaration value, item = .declaration declaration ∧
    declaration.value = .literal value ∧ TypedStyle.Fits declaration.property value.type

theorem Sheet.Flattened.fits {sheet : Sheet} {number : Nat} {rule : Rule} {member : Member}
    (h : sheet.Flattened (number, rule) member)
    (hb : ∀ place item within, TypedStyle.Active (sheet.envAt number) rule.body place item within →
      within.Bound Expr.valueBy ∧ item.Typed within) :
    ∃ flat, member = .rule flat ∧ flat.Fits := by
  obtain ⟨results, ⟨entries, rfl, -, -, hm⟩, rfl⟩ := h
  refine ⟨_, rfl, fun item hi => ?_⟩
  simp only [List.mem_map, Prod.exists] at hi
  obtain ⟨result, ⟨place, result', he, rfl⟩, rfl⟩ := hi
  obtain ⟨-, source, within, value, ha, hv, rfl⟩ := (hm place result').1 he
  obtain ⟨hbound, type, ht, hf⟩ := hb place _ within ha
  refine ⟨_, value, rfl, rfl, ?_⟩
  have hvt : source.value.typeIn? within = some value.type := by
    rw [Expr.typeIn?, hbound.lookUp_type]
    exact Expr.type_of_valueBy hv
  rw [hvt] at ht
  cases ht
  exact hf

theorem Sheet.exists_rule {sheet : Sheet} {rules : List (Nat × Rule)} {members : List Member}
    (h : List.Forall₂ sheet.Flattened rules members) {member : Member} (hm : member ∈ members) :
    ∃ rule ∈ rules, sheet.Flattened rule member := by
  induction h with
  | nil => simp at hm
  | @cons rule head rules members hr _ ih =>
    rcases List.mem_cons.1 hm with rfl | hm
    · exact ⟨rule, by simp, hr⟩
    · obtain ⟨rule, hrule, hf⟩ := ih hm
      exact ⟨rule, by simp [hrule], hf⟩

/-- Flattening succeeded and has left nothing but rules of fitting declarations. -/
def Flattening.Fits (run : Flattening) : Prop :=
  run.failure = none ∧ ∀ member ∈ run.sheet.members, ∃ rule, member = .rule rule ∧ rule.Fits

/-- Flattening stops at an active expression that has an exact value, but some number in its
arithmetic is out of range. -/
def Sheet.Overflows (sheet : Sheet) : Prop :=
  ∃ number item env expr result, sheet.Active number item env ∧ item.expression? = some expr ∧
    expr.exactIn? env = some result ∧ expr.OverflowsIn env ∧
    sheet.flatten.failure = some ⟨.unresolvedExpression expr.text, none⟩

theorem Sheet.fits_flatten {sheet : Sheet}
    (ht : ∀ number item env, sheet.Active number item env → item.Typed env)
    (hf : sheet.flatten.failure = none) : sheet.flatten.Fits := by
  rcases sheet.flatten_run with ⟨hn, hr, hrules⟩ | ⟨failure, hfail, -⟩
  · refine ⟨hn, fun member hm => ?_⟩
    obtain ⟨⟨number, rule⟩, hrule, hflat⟩ := Sheet.exists_rule hrules hm
    refine hflat.fits fun place item within ha => ?_
    have ha' : sheet.Active number item within := .inRule (Sheet.mem_rules hrule) ha
    exact ⟨(hr number item within (Nat.zero_le _) ha').1, ht number item within ha'⟩
  · rw [hf] at hfail
    cases hfail

theorem Sheet.flatten_check_sound (sheet : Sheet) (hc : Clean sheet.slots)
    (hk : Clean sheet.check.slots) : sheet.check.flatten.Fits ∨ sheet.check.Overflows := by
  obtain ⟨he, ht⟩ := Sheet.typed_of_clean hc hk
  rw [he]
  have hta : ∀ number item env, sheet.Active number item env → item.Typed env :=
    fun _ _ _ ha => ht _ _ _ (ha.mono fun _ _ _ _ => trivial)
  -- on success all active items are resolved; a failure names an active one that is not
  rcases sheet.flatten_run with ⟨hn, -⟩ | ⟨failure, hfail, number, item, env, ha, hb, hno, rfl⟩
  · exact .inl (Sheet.fits_flatten hta hn)
  · obtain ⟨expr, result, hx, hexact, ho, hfe⟩ := (hta _ _ _ ha).overflows hb hno
    exact .inr ⟨number, item, env, expr, result, ha, hx, hexact, ho, by rw [hfail, hfe]⟩

/-- The largest number and one more, in the alternative of a branch. -/
theorem Sheet.overflows_succ_max :
    let sum : Expr := .operation .add (.reference "W") (.literal (.number .pixel 1))
    let sheet : Sheet := ⟨[.assignment ⟨"B", .literal (.bool false)⟩,
      .rule ⟨[.tag "a"], [.assignment ⟨"W", .literal (.number .pixel 9223372036854775807)⟩,
        .branch (.reference "B") [] (some [.declaration ⟨"width", sum, none⟩])]⟩]⟩
    Clean sheet.slots ∧ Clean sheet.check.slots ∧ sheet.check.Overflows := by
  refine ⟨by decide, by decide, ?_⟩
  refine (Sheet.flatten_check_sound _ (by decide) (by decide)).resolve_left fun h => ?_
  exact absurd h.1 (by decide)

end TypedStyle
