import TypedStyle.Proofs.Frames
import TypedStyle.Proofs.Joining
import TypedStyle.Proofs.Sites

set_option autoImplicit false

namespace TypedStyle

/-- The order of the source: a branch comes before what is inside it, and its body before its
alternative. -/
def Place.Before : Place → Place → Prop
  | .here i, .here j => i < j
  | .here i, .inside j _ _ => i ≤ j
  | .inside i _ _, .here j => i < j
  | .inside i side place, .inside j other place' =>
    i < j ∨ i = j ∧ (side = .body ∧ other = .alternative ∨ side = other ∧ place.Before place')

def Site.Before : Site → Site → Prop
  | .inRule m place, .inRule n place' => m < n ∨ m = n ∧ place.Before place'
  | .top m, site | .inRule m _, site => m < site.number

theorem Place.Before.index_le {place later : Place} (h : place.Before later) :
    place.index ≤ later.index := by
  cases place <;> cases later <;> simp only [Before, index] at h ⊢ <;> omega

theorem Place.before_inside_iff {index : Nat} {side : Side} {place later : Place} :
    (inside index side place).Before (.inside index side later) ↔ place.Before later := by
  cases side <;> simp [Before]

theorem Site.Before.number_le {site later : Site} (h : site.Before later) :
    site.number ≤ later.number := by
  cases site <;> cases later <;> simp only [Before, number] at h ⊢ <;> omega

namespace Sheet

def take (sheet : Sheet) (count : Nat) : Sheet :=
  ⟨sheet.members.take count⟩

/-- The item at the site is active, and these assignments count there. -/
def ActiveAt (sheet : Sheet) : Site → Item → Env → Prop
  | .top number, item, env => ∃ a, sheet.members[number]? = some (.assignment a) ∧
      item = .assignment a ∧ env = sheet.envAt number
  | .inRule number place, item, env => ∃ rule, sheet.members[number]? = some (.rule rule) ∧
      TypedStyle.Active (sheet.envAt number) rule.body place item env

/-- The item at the site is active and lacks what it needs, as no active item before it does. -/
def StopsAt (sheet : Sheet) (site : Site) (item : Item) : Prop :=
  (∃ env, sheet.ActiveAt site item env ∧ ¬item.Resolved env) ∧
    ∀ earlier other env, earlier.Before site → sheet.ActiveAt earlier other env →
      other.Resolved env

theorem ActiveAt.active {sheet : Sheet} {site : Site} {item : Item} {env : Env}
    (h : sheet.ActiveAt site item env) : sheet.Active site.number item env := by
  cases site with
  | top number =>
    obtain ⟨a, hm, rfl, rfl⟩ := h
    exact .assignment hm
  | inRule number place =>
    obtain ⟨rule, hm, ha⟩ := h
    exact .inRule hm ha

end Sheet

def Stops (env : Env) (items : List Item) (low : Nat) (failure : Failure) : Prop :=
  ∃ place item within, low ≤ place.index ∧ Active env items place item within ∧
    ¬item.Resolved within ∧ failure = item.failure ∧
    ∀ earlier other around, low ≤ earlier.index → earlier.Before place →
      Active env items earlier other around → other.Resolved around

namespace Stops

variable {env : Env} {before rest : List Item} {failure : Failure}

theorem head {head : Item} (h : ¬head.Resolved (env.past before)) :
    Stops env (before ++ head :: rest) before.length head.failure := by
  refine ⟨.here before.length, head, _, Nat.le_refl _, stands_here_iff.mpr ⟨rfl, rfl⟩, h, rfl, ?_⟩
  intro earlier other around hl hb
  cases earlier <;> simp only [Place.Before, Place.index] at hb hl <;> omega

theorem inside {condition : Expr} {body inner : List Item} {alternative : Option (List Item)}
    {fault : Option Fault} {side : Side}
    (hv : condition.valueIn? (env.past before) = some (.bool side.truth))
    (hs : side.items? body alternative = some inner) (h : Stops (env.past before) inner 0 failure) :
    Stops env (before ++ .branch condition body alternative fault :: rest) before.length
      failure := by
  obtain ⟨place, item, within, -, ha, hn, rfl, hfirst⟩ := h
  refine ⟨.inside before.length side place, item, within, Nat.le_refl _,
    stands_inside_iff.mpr ⟨_, _, _, _, _, rfl, hs, hv, ha⟩, hn, rfl, ?_⟩
  intro earlier other around hl hb hother
  -- what is active before the place is the branch itself, or stands on the same side of it
  have hindex : earlier.index = before.length := Nat.le_antisymm hb.index_le hl
  rcases hother.at_branch hv hs hindex with ⟨-, rfl, rfl⟩ | ⟨place', rfl, hinner⟩
  · exact ⟨_, hv⟩
  · exact hfirst place' other around (Nat.zero_le _) (Place.before_inside_iff.mp hb) hinner

theorem later {items : List Item} {low mid : Nat} (h : Stops env items mid failure)
    (hr : AllResolved env items (Place.Between low mid)) (hl : low ≤ mid) :
    Stops env items low failure := by
  obtain ⟨place, item, within, hp, ha, hn, he, hfirst⟩ := h
  refine ⟨place, item, within, Nat.le_trans hl hp, ha, hn, he, ?_⟩
  intro earlier other around hlow hb hother
  by_cases hm : mid ≤ earlier.index
  · exact hfirst earlier other around hm hb hother
  · exact (hr earlier other around ⟨hlow, Nat.lt_of_not_le hm⟩ hother).2

end Stops

def HeadStops (env : Env) (before : List Item) (head : Item) (rest : List Item)
    (scope : Scope Literal) : Prop :=
  ∀ failure after, head.flatten scope = .error failure after →
    Stops env (before ++ head :: rest) before.length failure

def RestStops (items : List Item) : Prop :=
  ∀ (env : Env) (before : List Item) (scope : Scope Literal),
    (env.past before).Describes Expr.valueBy scope → ∀ failure after,
      flattenItems items scope = .error failure after →
      Stops env (before ++ items) before.length failure

def BodyStops (items : List Item) : Prop :=
  ∀ (env : Env) (scope : Scope Literal), env.Describes Expr.valueBy scope → ∀ failure after,
    flattenBody items scope = .error failure after → Stops env items 0 failure

theorem RestStops.body {items : List Item} (h : RestStops items) : BodyStops items := by
  intro env scope hd failure after he
  obtain ⟨inner, hs⟩ := Flatten.exists_of_inFrame_error he
  exact h env [] scope.push hd.push failure inner (Step.error_of_map_error hs)

theorem RestStops.cons {head : Item} {rest : List Item}
    (hh : ∀ env before scope, (Env.past env before).Describes Expr.valueBy scope →
      HeadFlattens env before head rest scope)
    (hs : ∀ env before scope, (Env.past env before).Describes Expr.valueBy scope →
      HeadStops env before head rest scope)
    (hr : RestStops rest) : RestStops (head :: rest) := by
  intro env before scope hd failure after he
  rcases hh env before scope hd with ⟨first, mid, hf, -, hdm, hl⟩ | ⟨found, hf, -⟩
  · rw [flattenItems, Step.bind_of_ok hf] at he
    rcases Step.exists_of_bind_error he with hrest | ⟨second, last, -, hp⟩
    · have hstops := hr env (before ++ [head]) mid hdm failure after hrest
      rw [List.append_assoc, List.singleton_append, List.length_append, List.length_singleton]
        at hstops
      exact hstops.later hl.resolved (Nat.le_succ _)
    · cases hp
  · rw [flattenItems, Step.bind_of_error hf] at he
    cases he
    exact hs env before scope hd _ _ hf

namespace HeadStops

variable {env : Env} {before rest : List Item} {scope : Scope Literal}

theorem declaration {d : Declaration} (hd : (env.past before).Describes Expr.valueBy scope) :
    HeadStops env before (.declaration d) rest scope := by
  intro failure after he
  have hv := hd.eval? d.value
  rw [Item.flatten] at he
  cases h : d.value.eval? scope with
  | some value =>
    rw [Step.bind_of_ok (Flatten.value_of_some h)] at he
    cases he
  | none =>
    rw [Step.bind_of_error (Flatten.value_of_none h)] at he
    cases he
    refine @Stops.head env before rest (.declaration d) ?_
    simp [Item.Resolved, ← hv, h]

theorem assignment {a : Assignment} (hd : (env.past before).Describes Expr.valueBy scope) :
    HeadStops env before (.assignment a) rest scope := by
  intro failure after he
  have hv := hd.eval? a.value
  rw [Item.flatten] at he
  cases h : a.value.eval? scope with
  | some value =>
    rw [Step.bind_of_ok (Flatten.bind_of_some h)] at he
    cases he
  | none =>
    rw [Step.bind_of_error (Flatten.bind_of_none h)] at he
    cases he
    refine @Stops.head env before rest (.assignment a) ?_
    simp [Item.Resolved, ← hv, h]

variable {condition : Expr} {body : List Item} {alternative : Option (List Item)}
  {fault : Option Fault}

theorem side {side : Side} {inner : List Item}
    (hd : (env.past before).Describes Expr.valueBy scope)
    (hv : condition.valueIn? (env.past before) = some (.bool side.truth))
    (hs : side.items? body alternative = some inner) (hi : BodyStops inner) :
    HeadStops env before (.branch condition body alternative fault) rest scope := by
  intro failure after he
  rw [Item.flatten_branch ((hd.eval? condition).trans hv) hs] at he
  exact .inside hv hs (hi _ scope hd failure after (Step.error_of_map_error he))

theorem branch (hd : (env.past before).Describes Expr.valueBy scope) (hb : BodyStops body)
    (ha : ∀ other, alternative = some other → BodyStops other) :
    HeadStops env before (.branch condition body alternative fault) rest scope := by
  rcases Side.chosen_cases (condition.valueIn? (env.past before)) hb ha with
    ⟨_, inner, hv, hs, hi⟩ | ⟨hv, rfl⟩ | hv
  · exact side hd hv hs hi
  · intro failure after he
    rw [Item.flatten_skipped ((hd.eval? condition).trans hv)] at he
    cases he
  · intro failure after he
    rw [Item.flatten_branch_of_ne (by rwa [hd.eval?])] at he
    cases he
    exact @Stops.head env before rest (.branch condition body alternative fault) hv

end HeadStops

theorem stops (items : List Item) : RestStops items := by
  induction items using bodyInduction with
  | nil =>
    intro env before scope hd failure after he
    cases he
  | declaration d rest ih =>
    exact .cons (fun _ _ _ => .declaration) (fun _ _ _ => .declaration) ih
  | assignment a rest ih =>
    exact .cons (fun _ _ _ => .assignment) (fun _ _ _ => .assignment) ih
  | branch condition body alternative fault rest hb ha ih =>
    refine .cons (fun _ _ _ hd => ?_) (fun _ _ _ hd => ?_) ih
    · exact .branch hd (flattens body).body fun other _ => (flattens other).body
    · exact .branch hd hb.body fun other h => (ha other h).body

section Members

variable {scope : Scope Literal} {members kept rest : List Member} {member : Member}
  {failure : Failure} {after : Scope Literal}

theorem Env.Describes.past_members {env : Env} (hd : env.Describes Expr.valueBy scope)
    (h : (flattenMembers scope members).1.failure = none) :
    Describes Expr.valueBy ((members.filterMap Member.assignment?).reverse ++ env)
      (flattenMembers scope members).2 := by
  induction members generalizing env scope with
  | nil => exact hd
  | cons member members ih =>
    obtain ⟨kept, after, hm, hrest⟩ := exists_of_flattenMembers_cons h
    rw [flattenMembers_of_ok hm]
    cases member with
    | rule r =>
      obtain rfl : after = scope := (Member.restores_rule r).of_ok hm
      exact ih hd hrest
    | assignment a =>
      rw [Member.flatten] at hm
      cases hv : a.value.eval? scope with
      | none =>
        rw [Step.bind_of_error (Flatten.bind_of_none hv)] at hm
        cases hm
      | some value =>
        rw [Step.bind_of_ok (Flatten.bind_of_some hv)] at hm
        cases hm
        have hdeclared := hd.declare ((hd.eval? a.value).symm.trans hv)
        simpa [Member.assignment?] using ih hdeclared hrest

theorem exists_of_flattenMembers_error
    (h : (flattenMembers scope members).1.failure = some failure) :
    ∃ kept member rest after, members = kept ++ member :: rest ∧
      (flattenMembers scope kept).1.failure = none ∧
      member.flatten (flattenMembers scope kept).2 = .error failure after := by
  induction members generalizing scope with
  | nil => cases h
  | cons member members ih =>
    cases hm : member.flatten scope with
    | error found after =>
      rw [flattenMembers, hm] at h
      cases h
      exact ⟨[], member, members, after, rfl, rfl, hm⟩
    | ok kept after =>
      rw [flattenMembers_of_ok hm] at h
      obtain ⟨others, last, rest, final, rfl, hn, he⟩ := ih h
      refine ⟨member :: others, last, rest, final, rfl, ?_, ?_⟩
      · rw [flattenMembers_of_ok hm]
        exact hn
      · rw [flattenMembers_of_ok hm]
        exact he

theorem flattenMembers_of_stop (hk : (flattenMembers scope kept).1.failure = none)
    (he : member.flatten (flattenMembers scope kept).2 = .error failure after)
    (rest : List Member) : (flattenMembers scope (kept ++ member :: rest)).1 =
      ⟨⟨(flattenMembers scope kept).1.sheet.members ++ member :: rest⟩, some failure⟩ := by
  rw [flattenMembers_append hk, flattenMembers, he]
  rfl

theorem failure_flattenMembers_take (hk : (flattenMembers scope kept).1.failure = none)
    (he : member.flatten (flattenMembers scope kept).2 = .error failure after)
    (rest : List Member) (count : Nat) :
    (flattenMembers scope ((kept ++ member :: rest).take count)).1.failure =
      if count ≤ kept.length then none else some failure := by
  split
  · next hc =>
    rw [List.take_append_of_le_length hc]
    rw [← List.take_append_drop count kept] at hk
    exact flattenMembers_of_append hk
  · next hc =>
    obtain ⟨more, rfl⟩ := Nat.exists_eq_add_of_lt (Nat.lt_of_not_le hc)
    rw [Nat.add_assoc, List.take_length_add_append, List.take_succ_cons,
      flattenMembers_of_stop hk he]

end Members

namespace Sheet

variable {sheet : Sheet} {kept rest : List Member} {member : Member} {failure : Failure}

theorem envAt_take {number count : Nat} (h : number ≤ count) :
    (sheet.take count).envAt number = sheet.envAt number := by
  rw [envAt, take, List.take_take, Nat.min_eq_left h, envAt]

theorem ActiveAt.take {site : Site} {item : Item} {env : Env} {count : Nat}
    (h : sheet.ActiveAt site item env) (hn : site.number < count) :
    (sheet.take count).ActiveAt site item env := by
  have hmembers : (sheet.take count).members[site.number]? = sheet.members[site.number]? :=
    List.getElem?_take_of_lt hn
  cases site with
  | top number =>
    obtain ⟨a, hm, rfl, rfl⟩ := h
    exact ⟨a, hmembers.trans hm, rfl, (envAt_take (Nat.le_of_lt hn)).symm⟩
  | inRule number place =>
    obtain ⟨rule, hm, ha⟩ := h
    have hlt : number < count := hn
    refine ⟨rule, hmembers.trans hm, ?_⟩
    rw [envAt_take (Nat.le_of_lt hlt)]
    exact ha

theorem resolved_of_take {count : Nat} (h : (sheet.take count).flatten.failure = none)
    {site : Site} {item : Item} {env : Env} (hn : site.number < count)
    (ha : sheet.ActiveAt site item env) : item.Resolved env := by
  rcases (sheet.take count).flatten_run with ⟨-, hr, -⟩ | ⟨failure, hf, -⟩
  · exact (hr site.number item env (Nat.zero_le _) (ha.take hn).active).2
  · rw [h] at hf
    cases hf

theorem exists_stopsAt {number : Nat} {scope after : Scope Literal}
    (hm : sheet.members[number]? = some member)
    (hd : (sheet.envAt number).Describes Expr.valueBy scope)
    (he : member.flatten scope = .error failure after)
    (hbefore : ∀ site item env, site.number < number → sheet.ActiveAt site item env →
      item.Resolved env) :
    ∃ site item, site.number = number ∧ sheet.StopsAt site item ∧ failure = item.failure := by
  cases member with
  | assignment a =>
    rw [Member.flatten] at he
    cases hv : a.value.eval? scope with
    | some value =>
      rw [Step.bind_of_ok (Flatten.bind_of_some hv)] at he
      cases he
    | none =>
      rw [Step.bind_of_error (Flatten.bind_of_none hv)] at he
      cases he
      have hn : ¬(Item.assignment a).Resolved (sheet.envAt number) := by
        simp [Item.Resolved, ← hd.eval?, hv]
      refine ⟨.top number, .assignment a, rfl, ⟨⟨_, ⟨a, hm, rfl, rfl⟩, hn⟩, ?_⟩, rfl⟩
      intro earlier other env hb ha
      refine hbefore earlier other env ?_ ha
      cases earlier <;> exact hb
  | rule r =>
    rw [Member.flatten] at he
    rcases Step.exists_of_bind_error he with hbody | ⟨_, _, -, hp⟩
    · obtain ⟨place, item, within, -, ha, hn, rfl, hfirst⟩ :=
        (stops r.body).body _ scope hd failure after hbody
      refine ⟨.inRule number place, item, rfl, ⟨⟨within, ⟨r, hm, ha⟩, hn⟩, ?_⟩, rfl⟩
      intro earlier other env hb hother
      rcases Nat.eq_or_lt_of_le hb.number_le with hnumber | hnumber
      · cases earlier with
        | top m => exact absurd hnumber (Nat.ne_of_lt hb)
        | inRule m place' =>
          obtain rfl : m = number := hnumber
          obtain ⟨r', hm', hactive⟩ := hother
          obtain rfl : r = r' := by simpa [hm] using hm'
          have hplace : place'.Before place := by simpa [Site.Before] using hb
          exact hfirst place' other env (Nat.zero_le _) hplace hactive
      · exact hbefore earlier other env hnumber hother
    · cases hp

/-- When flattening fails, there is a member up to which all goes well on its own, and from which on
it fails. What stands before this member is flattened, all else stays, and the failure names the
first active item in this member that lacks what it needs. -/
theorem flatten_stops (h : sheet.flatten.failure = some failure) :
    ∃ number, number < sheet.members.length ∧
      (∀ count, (sheet.take count).flatten.failure =
        if count ≤ number then none else some failure) ∧
      sheet.flatten.sheet.members =
        (sheet.take number).flatten.sheet.members ++ sheet.members.drop number ∧
      List.Forall₂ (sheet.take number).Flattened (sheet.take number).rules
        (sheet.take number).flatten.sheet.members ∧
      ∃ site item, site.number = number ∧ sheet.StopsAt site item ∧ failure = item.failure := by
  obtain ⟨kept, member, rest, after, hm, hk, he⟩ := exists_of_flattenMembers_error h
  have hcount : ∀ count, (sheet.take count).flatten.failure =
      if count ≤ kept.length then none else some failure := by
    intro count
    rw [flatten, flattenIn, take, hm]
    exact failure_flattenMembers_take hk he rest count
  have htake : sheet.take kept.length = ⟨kept⟩ := by simp [take, hm]
  have hnone : (sheet.take kept.length).flatten.failure = none := by simp [hcount]
  have hdescribes : (sheet.envAt kept.length).Describes Expr.valueBy
      (flattenMembers Scope.empty.push kept).2 := by
    have hd := Env.Describes.top.past_members hk
    simpa [envAt, hm] using hd
  refine ⟨kept.length, by simp [hm], hcount, ?_, ?_, ?_⟩
  · rw [htake, flatten, flattenIn, hm, flattenMembers_of_stop hk he, List.drop_left]
    rfl
  · rcases (sheet.take kept.length).flatten_run with ⟨-, -, hf⟩ | ⟨found, hf, -⟩
    · exact hf
    · rw [hnone] at hf
      cases hf
  · refine exists_stopsAt (by simp [hm]) hdescribes he fun site item env hn ha => ?_
    exact resolved_of_take hnone hn ha

/-- The failure is in the branch that is taken, behind a rule and an assignment that succeed, and
there are others behind it. -/
theorem flatten_stops_inside :
    let fine : Rule := ⟨[.tag "a"], [.declaration ⟨"width", .reference "A", none⟩]⟩
    let failing : Rule := ⟨[.tag "b"], [.branch (.literal (.bool true))
      [.assignment ⟨"B", .literal (.bool false)⟩, .declaration ⟨"width", .reference "A", none⟩,
        .branch (.reference "B") [.declaration ⟨"width", .reference "C", none⟩]
          (some [.declaration ⟨"height", .reference "D", none⟩])] none,
      .declaration ⟨"color", .reference "E", none⟩]⟩
    let sheet : Sheet := ⟨[.assignment ⟨"A", .literal (.number .pixel 1)⟩, .rule fine,
      .rule failing, .assignment ⟨"F", .reference "G"⟩]⟩
    sheet.flatten.failure = some ⟨.unresolvedExpression "D", none⟩ ∧
      sheet.flatten.sheet.members = (sheet.take 2).flatten.sheet.members ++ sheet.members.drop 2 ∧
      ∃ site item, site.number = 2 ∧ sheet.StopsAt site item ∧
        ⟨.unresolvedExpression "D", none⟩ = item.failure := by
  intro fine failing sheet
  have hfailure : sheet.flatten.failure = some ⟨.unresolvedExpression "D", none⟩ := by decide
  obtain ⟨number, -, hcount, hmembers, -, hstops⟩ := flatten_stops hfailure
  have htwo : (sheet.take 2).flatten.failure = none := by decide
  have hthree : (sheet.take 3).flatten.failure ≠ none := by decide
  obtain rfl : number = 2 := by
    rw [hcount] at htwo hthree
    have hle : 2 ≤ number := by
      split at htwo
      · next h => exact h
      · cases htwo
    have hlt : ¬3 ≤ number := fun h => hthree (if_pos h)
    omega
  exact ⟨hfailure, hmembers, hstops⟩

end Sheet

end TypedStyle
