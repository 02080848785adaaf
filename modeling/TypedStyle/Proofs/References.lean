import TypedStyle.Proofs.Sites
import TypedStyle.Proofs.Typed

set_option autoImplicit false

namespace TypedStyle

namespace Expr

theorem unfit_iff (expr : Expr) : expr.Unfit ↔ expr.operandFault?.isSome = true := by
  cases expr with
  | literal value fault => cases value <;> simp [Unfit, operandFault?, Literal.isOperand]
  | _ => simp [Unfit, operandFault?]

theorem at?_mark (expr : Expr) (way : List Hand) (name : String) (fault : Option Fault) :
    (expr.mark expr.operandFault?).at? way = some (.reference name fault) ↔
      expr.at? way = some (.reference name fault) := by
  cases expr with
  | literal value found => cases way <;> simp [mark, at?]
  | _ => rfl

section Check

variable {scope : Scope ValueType} {op : Operator} {left right : Expr} {fault : Option Fault}

theorem check_of_unfit (h : left.Unfit ∨ right.Unfit) :
    check scope (.operation op left right fault) =
      (.operation op (left.mark left.operandFault?) (right.mark right.operandFault?) fault,
        .undefined) := by
  rw [unfit_iff, unfit_iff, ← Bool.or_eq_true] at h
  rw [check, if_pos h]

theorem check_unfit (h : left.Unfit ∨ right.Unfit) :
    (check scope (.operation op left right fault)).1 =
      .operation op (left.mark left.operandFault?) (right.mark right.operandFault?) fault := by
  rw [check_of_unfit h]

theorem check_of_fit (h : ¬(left.Unfit ∨ right.Unfit)) :
    check scope (.operation op left right fault) =
      match operationType op left right (left.check scope).2 (right.check scope).2 with
      | .ok type => (.operation op (left.check scope).1 (right.check scope).1 fault, type)
      | .error found =>
        (.operation op (left.check scope).1 (right.check scope).1 (some found), .undefined) := by
  rw [unfit_iff, unfit_iff, ← Bool.or_eq_true] at h
  rw [check]
  exact if_neg h

theorem exists_check_fit (h : ¬(left.Unfit ∨ right.Unfit)) :
    ∃ found, (check scope (.operation op left right fault)).1 =
      .operation op (left.check scope).1 (right.check scope).1 found := by
  rw [check_of_fit h]
  cases operationType op left right (left.check scope).2 (right.check scope).2 with
  | ok type => exact ⟨fault, rfl⟩
  | error found => exact ⟨some found, rfl⟩

/-- What the check finds out about a reference. -/
def Verdict (visible barred : Prop) (name : String) (fault : Option Fault) : Prop :=
  fault = some (.undefinedVariable name) ∧ ¬visible ∧ ¬barred ∨ fault = none ∧ (visible ∨ barred)

theorem at?_check {expr : Expr} (hc : Clean expr.slots) (scope : Scope ValueType)
    (way : List Hand) (name : String) (fault : Option Fault) :
    (expr.check scope).1.at? way = some (.reference name fault) ↔
      expr.at? way = some (.reference name none) ∧
        Verdict ((scope.resolve? name).isSome = true) (expr.Barred way) name fault := by
  induction expr generalizing way with
  | literal value found => cases way <;> simp [check, at?]
  | reference other found =>
    obtain rfl : found = none := by simpa [slots] using hc
    cases way with
    | cons hand way => cases hr : scope.resolve? other <;> simp [check, hr, at?]
    | nil =>
      cases hr : scope.resolve? other <;>
        simp only [check, hr, at?, Barred, Verdict, Option.some.injEq, reference.injEq,
          and_true] <;>
        grind
  | operation op left right found ihl ihr =>
    simp only [slots, Clean.append_iff, Clean.cons_iff] at hc
    obtain ⟨⟨-, hl⟩, hr⟩ := hc
    by_cases hu : left.Unfit ∨ right.Unfit
    · rw [check_unfit hu]
      cases way with
      | nil => simp [at?]
      | cons hand way =>
        have hside : Clean (hand.side left right).slots := by cases hand <;> assumption
        have hbarred : Barred (hand :: way) (.operation op left right found) :=
          or_assoc.mp (.inl hu)
        have hat : ((hand.side (left.mark left.operandFault?) (right.mark right.operandFault?)).at?
            way = some (.reference name fault)) ↔
              (hand.side left right).at? way = some (.reference name fault) := by
          cases hand <;> exact at?_mark _ _ _ _
        -- nothing is said about the references of such an operation
        have hfault : (hand.side left right).at? way = some (.reference name fault) →
            fault = none := by
          intro h
          simpa [slots] using clean_of_at? hside h
        simp only [at?, hat, Verdict, hbarred, not_true_eq_false, and_false, false_or, or_true,
          and_true]
        exact ⟨fun h => hfault h ▸ ⟨h, rfl⟩, fun h => h.2 ▸ h.1⟩
    · obtain ⟨after, he⟩ : ∃ after, (check scope (.operation op left right found)).1 =
          .operation op (left.check scope).1 (right.check scope).1 after := exists_check_fit hu
      rw [he]
      cases way with
      | nil => simp [at?]
      | cons hand way =>
        have hbarred : Barred (hand :: way) (.operation op left right found) ↔
            (hand.side left right).Barred way := by
          simp only [Barred, ← or_assoc, hu, false_or]
        simp only [at?, Verdict, hbarred]
        cases hand with
        | left => exact ihl hl way
        | right => exact ihr hr way

end Check

end Expr

structure Scope.Binds {α : Type} (scope : Scope α) (names : String → Prop) : Prop where
  depth_pos : 0 < scope.depth
  bound : ∀ name, (scope.resolve? name).isSome = true ↔ names name

namespace Scope.Binds

variable {α : Type} {scope : Scope α} {names others : String → Prop}

theorem congr (h : scope.Binds names) (ho : ∀ name, names name ↔ others name) :
    scope.Binds others :=
  ⟨h.depth_pos, fun name => (h.bound name).trans (ho name)⟩

theorem push (h : scope.Binds names) : scope.push.Binds names :=
  ⟨scope.depth_push_pos, fun name => by rw [resolve?_push, h.bound]⟩

theorem declare (h : scope.Binds names) (name : String) (value : α) :
    (scope.declare name value).Binds fun other => names other ∨ name = other := by
  refine ⟨by simpa using h.depth_pos, fun other => ?_⟩
  rw [resolve?_declare _ _ _ _ h.depth_pos]
  by_cases ho : other = name
  · simp [ho]
  · simp [ho, Ne.symm ho, h.bound]

end Scope.Binds

section Bodies

variable {scope : Scope ValueType} {names : String → Prop}

theorem binds_checkItems (h : scope.Binds names) (items : List Item) :
    (checkItems scope items).2.Binds fun name =>
      names name ∨ Assigned (items.filterMap Item.assignment?) name := by
  induction items generalizing scope names with
  | nil => exact h.congr fun name => by simp
  | cons item items ih =>
    rw [checkItems]
    cases item with
    | declaration d => exact ih h
    | assignment a =>
      refine (ih (h.declare a.name (a.value.check scope).2)).congr fun name => ?_
      simp [Item.assignment?, or_assoc]
    | branch condition body alternative fault =>
      rw [Item.snd_check_branch]
      exact ih h

theorem getElem?_checkItems (scope : Scope ValueType) (items : List Item) (index : Nat) :
    (checkItems scope items).1[index]? =
      items[index]?.map fun item => (item.check (checkItems scope (items.take index)).2).1 := by
  induction items generalizing scope index with
  | nil => rfl
  | cons item items ih =>
    cases index with
    | zero => rfl
    | succ index =>
      rw [checkItems, List.getElem?_cons_succ, ih, List.getElem?_cons_succ, List.take_succ_cons,
        checkItems]

theorem side?_check (scope : Scope ValueType) (item : Item) (side : Side) :
    (item.check scope).1.side? side =
      (item.side? side).map fun inner => (checkItems scope.push inner).1 := by
  cases item with
  | branch condition body alternative fault =>
    cases side with
    | body => rfl
    | alternative =>
      rw [Item.check, pop_checkItems_push]
      cases alternative <;> rfl
  | _ => rfl

theorem Expr.check_push (scope : Scope ValueType) (expr : Expr) :
    expr.check scope.push = expr.check scope := by
  induction expr with
  | operation op left right fault ihl ihr => rw [check, check, ihl, ihr]
  | _ => simp [check]

theorem Item.expr_check (scope : Scope ValueType) (item : Item) :
    (item.check scope).1.expr = (item.expr.check scope).1 := by
  cases item with
  | branch condition body alternative fault => rw [expr, ← Expr.check_push]; rfl
  | _ => rfl

theorem itemAt?_checkItems (place : Place) (items : List Item) (h : scope.Binds names) :
    ∃ inner : Scope ValueType,
      itemAt? place (checkItems scope items).1 =
        (itemAt? place items).map (fun item => (item.check inner).1) ∧
      inner.Binds fun name => names name ∨ VisibleAmong items name place := by
  induction place generalizing scope names items with
  | here index =>
    refine ⟨_, getElem?_checkItems scope items index, ?_⟩
    exact (binds_checkItems h _).congr fun name => by rw [visibleAmong_here]
  | inside index side place ih =>
    have hbefore := binds_checkItems h (items.take index)
    have hside : (checkItems scope items).1[index]?.bind (Item.side? side) =
        (items[index]?.bind (Item.side? side)).map fun inner =>
          (checkItems (checkItems scope (items.take index)).2.push inner).1 := by
      rw [getElem?_checkItems, Option.bind_map, Option.map_bind]
      exact congrArg _ (funext fun item => side?_check _ item side)
    cases hi : items[index]?.bind (Item.side? side) with
    | none =>
      refine ⟨(checkItems scope (items.take index)).2, ?_, ?_⟩
      · rw [itemAt?, itemAt?, hside, hi]
        rfl
      · exact hbefore.congr fun name => by simp [visibleAmong_inside, hi]
    | some body =>
      obtain ⟨inner, he, hb⟩ := ih body hbefore.push
      refine ⟨inner, ?_, hb.congr fun name => ?_⟩
      · rw [itemAt?, itemAt?, hside, hi]
        exact he
      · simp [visibleAmong_inside, hi, or_assoc]

end Bodies

section Members

variable {scope : Scope ValueType} {names : String → Prop}

theorem binds_checkMembers (h : scope.Binds names) (members : List Member) :
    (checkMembers scope members).2.Binds fun name =>
      names name ∨ Assigned (members.filterMap Member.assignment?) name := by
  induction members generalizing scope names with
  | nil => exact h.congr fun name => by simp
  | cons member members ih =>
    rw [checkMembers]
    cases member with
    | rule r =>
      rw [Member.check, Rule.snd_check]
      exact ih h
    | assignment a =>
      refine (ih (h.declare a.name (a.value.check scope).2)).congr fun name => ?_
      simp [Member.assignment?, or_assoc]

theorem getElem?_checkMembers (scope : Scope ValueType) (members : List Member) (number : Nat) :
    (checkMembers scope members).1[number]? = members[number]?.map fun member =>
      (member.check (checkMembers scope (members.take number)).2).1 := by
  induction members generalizing scope number with
  | nil => rfl
  | cons member members ih =>
    cases number with
    | zero => rfl
    | succ number =>
      rw [checkMembers, List.getElem?_cons_succ, ih, List.getElem?_cons_succ, List.take_succ_cons,
        checkMembers]

end Members

namespace Sheet

theorem members_check (sheet : Sheet) :
    sheet.check.members = (checkMembers Scope.empty.push sheet.members).1 := rfl

theorem itemAt?_check (sheet : Sheet) (site : Site) : ∃ inner : Scope ValueType,
    sheet.check.itemAt? site =
      (sheet.itemAt? site).map (fun item => (item.check inner).1) ∧
    inner.Binds fun name => sheet.Visible name site := by
  have htop : (Scope.empty : Scope ValueType).push.Binds fun _ => False :=
    ⟨Scope.depth_push_pos _, fun name => by simp⟩
  have hbefore := binds_checkMembers htop (sheet.members.take site.number)
  have hmember := getElem?_checkMembers Scope.empty.push sheet.members site.number
  cases site with
  | top number =>
    rw [Site.number] at hmember hbefore
    refine ⟨_, ?_, hbefore.congr fun name => by simp [visible_top]⟩
    rw [itemAt?, itemAt?, members_check, hmember]
    cases sheet.members[number]? with
    | none => rfl
    | some member => cases member <;> rfl
  | inRule number place =>
    rw [Site.number] at hmember hbefore
    rw [itemAt?, itemAt?, members_check, hmember]
    cases hm : sheet.members[number]? with
    | none => exact ⟨_, rfl, hbefore.congr fun name => by simp [visible_inRule, hm]⟩
    | some member =>
      cases member with
      | assignment a =>
        exact ⟨_, rfl, hbefore.congr fun name => by simp [visible_inRule, hm]⟩
      | rule r =>
        obtain ⟨inner, he, hb⟩ := itemAt?_checkItems place r.body hbefore.push
        exact ⟨inner, he, hb.congr fun name => by simp [visible_inRule, hm]⟩

/-- References are found in the checked sheet where they are in the sheet itself, and each of them
is either marked as undefined or not at all. -/
theorem check_reference_iff {sheet : Sheet} (hc : Clean sheet.slots) (site : Site)
    (way : List Hand) (name : String) (fault : Option Fault) :
    sheet.check.partAt? site way = some (.reference name fault) ↔
      sheet.partAt? site way = some (.reference name none) ∧
        (fault = some (.undefinedVariable name) ∧
            ¬sheet.Visible name site ∧ ¬sheet.Barred site way ∨
          fault = none ∧ (sheet.Visible name site ∨ sheet.Barred site way)) := by
  obtain ⟨inner, he, hb⟩ := sheet.itemAt?_check site
  rw [partAt?, partAt?, Barred, he]
  cases hi : sheet.itemAt? site with
  | none => simp
  | some item =>
    have hexpr := Expr.at?_check (Item.clean_expr (clean_of_itemAt? hc hi)) inner way name fault
    rw [Expr.Verdict, hb.bound] at hexpr
    simpa [Item.expr_check] using hexpr

/-- The other side of a branch does not see what its body assigns. -/
theorem check_reference_iff_alternative :
    let assignment : Assignment := ⟨"B", .literal (.number .pixel 1)⟩
    let sum : Expr := .operation .add (.literal (.number .pixel 1)) (.reference "B")
    let sheet : Sheet := ⟨[.rule ⟨[.tag "a"], [.branch (.literal (.bool false))
      [.assignment assignment] (some [.declaration ⟨"width", sum, none⟩])]⟩]⟩
    let site : Site := .inRule 0 (.inside 0 .alternative (.here 0))
    Clean sheet.slots ∧ ¬sheet.Visible "B" site ∧ ¬sheet.Barred site [.right] ∧
      sheet.check.partAt? site [.right] =
        some (.reference "B" (some (.undefinedVariable "B"))) := by
  intro assignment sum sheet site
  have hclean : Clean sheet.slots := by decide
  have hmarked : sheet.check.partAt? site [.right] =
      some (.reference "B" (some (.undefinedVariable "B"))) := by decide
  obtain ⟨-, ⟨-, hv, hb⟩ | ⟨hf, -⟩⟩ := (check_reference_iff hclean site [.right] "B" _).mp hmarked
  · exact ⟨hclean, hv, hb, hmarked⟩
  · cases hf

end Sheet

end TypedStyle
