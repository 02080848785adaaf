import TypedStyle.Proofs.Frames
import TypedStyle.Proofs.Joining

set_option autoImplicit false

namespace TypedStyle

theorem length_checkMembers (scope : Scope ValueType) (members : List Member) :
    (checkMembers scope members).1.length = members.length := by
  induction members generalizing scope with
  | nil => rfl
  | cons member members ih => rw [checkMembers, List.length_cons, ih, List.length_cons]

theorem checkMembers_rules (scope : Scope ValueType) (rules : List Rule) (after : List Member) :
    checkMembers scope (rules.map .rule ++ after) =
      (rules.map (fun rule => Member.rule (rule.check scope).1) ++ (checkMembers scope after).1,
        (checkMembers scope after).2) := by
  induction rules with
  | nil => rfl
  | cons rule rules ih =>
    rw [List.map_cons, List.cons_append, checkMembers, Member.check, rule.snd_check, ih]
    rfl

def Rule.FlattensTo (scope : Scope Literal) (rule flat : Rule) : Prop :=
  (Member.rule rule).flatten scope = .ok [.rule flat] scope

theorem Rule.exists_flattensTo {scope after : Scope Literal} {rule : Rule} {kept : List Member}
    (h : (Member.rule rule).flatten scope = .ok kept after) :
    ∃ flat, rule.FlattensTo scope flat ∧ kept = [.rule flat] ∧ after = scope := by
  obtain rfl : after = scope := (Member.restores_rule rule).of_ok h
  obtain ⟨declarations, middle, -, hp⟩ := Step.exists_of_bind_ok h
  cases hp
  exact ⟨_, h, rfl, rfl⟩

theorem flattenMembers_rules {scope : Scope Literal} {rules flats : List Rule}
    (h : List.Forall₂ (Rule.FlattensTo scope) rules flats) (after : List Member) :
    flattenMembers scope (rules.map .rule ++ after) =
      ((flattenMembers scope after).1.keep (flats.map .rule), (flattenMembers scope after).2) := by
  induction h with
  | nil => rfl
  | cons hr _ ih =>
    rw [List.map_cons, List.cons_append, flattenMembers_of_ok hr, ih]
    rfl

theorem exists_of_flattenMembers_rules {scope : Scope Literal} {rules : List Rule}
    {after : List Member}
    (h : (flattenMembers scope (rules.map .rule ++ after)).1.failure = none) :
    (∃ flats, List.Forall₂ (Rule.FlattensTo scope) rules flats) ∧
      (flattenMembers scope after).1.failure = none := by
  induction rules with
  | nil => exact ⟨⟨[], .nil⟩, h⟩
  | cons rule rules ih =>
    obtain ⟨kept, middle, hm, hrest⟩ := exists_of_flattenMembers_cons h
    obtain ⟨flat, hr, -, rfl⟩ := Rule.exists_flattensTo hm
    obtain ⟨⟨flats, hflats⟩, hafter⟩ := ih hrest
    exact ⟨⟨flat :: flats, .cons hr hflats⟩, hafter⟩

namespace Sheet

variable (before after : List Member)

/-- Between the same members every rule is checked to the same, whatever other rules stand there. -/
theorem check_rules : ∃ (first second : List Member) (checked : Rule → Rule),
    first.length = before.length ∧ ∀ rules : List Rule,
      (Sheet.mk (before ++ (rules.map .rule ++ after))).check =
        ⟨first ++ (rules.map (fun rule => Member.rule (checked rule)) ++ second)⟩ := by
  let scope := (checkMembers Scope.empty.push before).2
  refine ⟨(checkMembers Scope.empty.push before).1, (checkMembers scope after).1,
    fun rule => (rule.check scope).1, length_checkMembers _ _, fun rules => ?_⟩
  rw [check, checkIn, checkMembers_append, checkMembers_rules]

theorem flatten_rules (rules : List Rule)
    (h : (Sheet.mk (before ++ (rules.map .rule ++ after))).flatten.failure = none) :
    ∃ (first second : List Member) (scope : Scope Literal),
      (Sheet.mk before).flatten = ⟨⟨first⟩, none⟩ ∧
      (∃ flats, List.Forall₂ (Rule.FlattensTo scope) rules flats) ∧
      ∀ others flats, List.Forall₂ (Rule.FlattensTo scope) others flats →
        (Sheet.mk (before ++ (others.map .rule ++ after))).flatten =
          ⟨⟨first ++ (flats.map .rule ++ second)⟩, none⟩ := by
  have hbefore := flattenMembers_of_append h
  have hrun := flattenMembers_append hbefore
  rw [flatten, flattenIn, hrun] at h
  obtain ⟨hflats, hafter⟩ := exists_of_flattenMembers_rules h
  let scope := (flattenMembers Scope.empty.push before).2
  refine ⟨_, (flattenMembers scope after).1.sheet.members, scope,
    congrArg (Flattening.mk _) hbefore, hflats, fun others flats ho => ?_⟩
  rw [flatten, flattenIn, hrun, flattenMembers_rules ho]
  exact congrArg (Flattening.mk _) hafter

/-- Without a rule the other members are checked and flattened to the same, and neighbouring rules
are exchanged with what they are checked and flattened to. -/
theorem rules_isolated (rule other : Rule) :
    (∃ (first second : List Member) (checked : Rule), first.length = before.length ∧
      (Sheet.mk (before ++ .rule rule :: after)).check = ⟨first ++ .rule checked :: second⟩ ∧
      (Sheet.mk (before ++ after)).check = ⟨first ++ second⟩) ∧
    ((Sheet.mk (before ++ .rule rule :: after)).flatten.failure = none →
      ∃ (first second : List Member) (flat : Rule), (Sheet.mk before).flatten = ⟨⟨first⟩, none⟩ ∧
        (Sheet.mk (before ++ .rule rule :: after)).flatten =
          ⟨⟨first ++ .rule flat :: second⟩, none⟩ ∧
        (Sheet.mk (before ++ after)).flatten = ⟨⟨first ++ second⟩, none⟩) ∧
    (∃ (first second : List Member) (checked checked' : Rule), first.length = before.length ∧
      (Sheet.mk (before ++ .rule rule :: .rule other :: after)).check =
        ⟨first ++ .rule checked :: .rule checked' :: second⟩ ∧
      (Sheet.mk (before ++ .rule other :: .rule rule :: after)).check =
        ⟨first ++ .rule checked' :: .rule checked :: second⟩) ∧
    ((Sheet.mk (before ++ .rule rule :: .rule other :: after)).flatten.failure = none →
      ∃ (first second : List Member) (flat flat' : Rule),
        (Sheet.mk before).flatten = ⟨⟨first⟩, none⟩ ∧
        (Sheet.mk (before ++ .rule rule :: .rule other :: after)).flatten =
          ⟨⟨first ++ .rule flat :: .rule flat' :: second⟩, none⟩ ∧
        (Sheet.mk (before ++ .rule other :: .rule rule :: after)).flatten =
          ⟨⟨first ++ .rule flat' :: .rule flat :: second⟩, none⟩) := by
  obtain ⟨first, second, checked, hlength, hcheck⟩ := check_rules before after
  refine ⟨⟨first, second, checked rule, hlength, hcheck [rule], hcheck []⟩, fun h => ?_,
    ⟨first, second, checked rule, checked other, hlength, hcheck [rule, other],
      hcheck [other, rule]⟩, fun h => ?_⟩
  · obtain ⟨first, second, scope, hfirst, ⟨flats, hflats⟩, hrun⟩ :=
      flatten_rules before after [rule] h
    obtain ⟨flat, rest, hr, hnil, rfl⟩ := List.forall₂_cons_left_iff.mp hflats
    obtain rfl := List.forall₂_nil_left_iff.mp hnil
    exact ⟨first, second, flat, hfirst, hrun [rule] [flat] hflats, hrun [] [] .nil⟩
  · obtain ⟨first, second, scope, hfirst, ⟨flats, hflats⟩, hrun⟩ :=
      flatten_rules before after [rule, other] h
    obtain ⟨flat, rest, hr, hrest, rfl⟩ := List.forall₂_cons_left_iff.mp hflats
    obtain ⟨flat', rest, ho, hnil, rfl⟩ := List.forall₂_cons_left_iff.mp hrest
    obtain rfl := List.forall₂_nil_left_iff.mp hnil
    exact ⟨first, second, flat, flat', hfirst, hrun _ _ hflats,
      hrun [other, rule] [flat', flat] (.cons ho (.cons hr .nil))⟩

/-- Both rules bind the name of a variable that the member behind them binds once more. -/
theorem rules_isolated_rebound :
    let px (value : Int64) : Expr := .literal (.number .pixel value)
    let rule : Rule := ⟨[.tag "a"], [.assignment ⟨"A", .literal (.bool true)⟩,
      .branch (.reference "A") [.declaration ⟨"width", px 2, none⟩] none]⟩
    let other : Rule := ⟨[.tag "b"], [.declaration ⟨"width", .reference "A", none⟩,
      .assignment ⟨"A", px 3⟩, .declaration ⟨"height", .reference "A", none⟩]⟩
    let before : List Member := [.assignment ⟨"A", px 1⟩]
    let after : List Member := [.assignment ⟨"A", .operation .add (.reference "A") (px 4)⟩]
    (Sheet.mk (before ++ .rule rule :: .rule other :: after)).flatten.failure = none ∧
      ∃ (first second : List Member) (flat flat' : Rule),
        (Sheet.mk before).flatten = ⟨⟨first⟩, none⟩ ∧
        (Sheet.mk (before ++ .rule rule :: .rule other :: after)).flatten =
          ⟨⟨first ++ .rule flat :: .rule flat' :: second⟩, none⟩ ∧
        (Sheet.mk (before ++ .rule other :: .rule rule :: after)).flatten =
          ⟨⟨first ++ .rule flat' :: .rule flat :: second⟩, none⟩ := by
  intro px rule other before after
  let sheet : Sheet := ⟨before ++ .rule rule :: .rule other :: after⟩
  have hnone : sheet.flatten.failure = none := by decide
  exact ⟨hnone, (rules_isolated before after rule other).2.2.2 hnone⟩

end Sheet

end TypedStyle
