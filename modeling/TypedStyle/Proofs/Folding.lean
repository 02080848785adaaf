import TypedStyle.Proofs.Widening

set_option autoImplicit false

namespace TypedStyle

def Declaration.Folded (declaration : Declaration) : Prop :=
  ∃ value, declaration.value = .literal value

def AllFolded (declarations : List Declaration) : Prop :=
  ∀ d ∈ declarations, d.Folded

def Member.Folded (member : Member) : Prop :=
  ∃ (rule : Rule) (declarations : List Declaration), member = .rule rule ∧
    rule.body = declarations.map .declaration ∧ AllFolded declarations

section Yields

variable {α β : Type} {step : Flatten α} {p : α → Prop} {q : β → Prop}

/-- Whatever the step succeeds with has the property. -/
def Yields (step : Flatten α) (p : α → Prop) : Prop :=
  ∀ ⦃scope result after⦄, step scope = .ok result after → p result

namespace Yields

theorem pure {result : α} (h : p result) : Yields (Pure.pure result : Flatten α) p := by
  intro scope _ after hr
  cases hr
  exact h

theorem trivial (step : Flatten α) : Yields step fun _ => True :=
  fun _ _ _ _ => True.intro

theorem bind {next : α → Flatten β} (h : Yields step p)
    (hn : ∀ result, p result → Yields (next result) q) : Yields (step >>= next) q := by
  intro scope result after hr
  obtain ⟨found, middle, hs, ha⟩ := Step.exists_of_bind_ok hr
  exact hn found (h hs) ha

theorem map {change : α → β} (h : Yields step p) (hc : ∀ result, p result → q (change result)) :
    Yields (change <$> step) q := by
  rw [map_eq_pure_bind]
  exact h.bind fun result hp => .pure (hc result hp)

theorem inFrame (h : Yields step p) : Yields (Flatten.inFrame step) p := by
  intro scope result after hr
  obtain ⟨inner, hs, -⟩ := Flatten.exists_of_inFrame_ok hr
  exact h hs

end Yields

def Yield.Folded (yield : Yield) : Prop :=
  AllFolded yield.all

theorem Yield.Folded.append {first second : Yield} (hf : first.Folded) (hs : second.Folded) :
    (first.append second).Folded := by
  intro d hd
  simp only [Yield.append, Yield.all, List.mem_append] at hd
  have hfirst : d ∈ first.own ∨ d ∈ first.chosen → d.Folded := fun h => hf d (List.mem_append.mpr h)
  have hsecond : d ∈ second.own ∨ d ∈ second.chosen → d.Folded :=
    fun h => hs d (List.mem_append.mpr h)
  tauto

theorem Yields.body {items : List Item} (h : Yields (flattenItems items) Yield.Folded) :
    Yields (flattenBody items) AllFolded := by
  have hall : Yields (Yield.all <$> flattenItems items) AllFolded := h.map fun _ hy => hy
  exact hall.inFrame

theorem yields_folded (items : List Item) : Yields (flattenItems items) Yield.Folded := by
  have hempty : Yield.empty.Folded := fun d hd => by cases hd
  have hcons : ∀ {head : Item} {rest : List Item}, Yields head.flatten Yield.Folded →
      Yields (flattenItems rest) Yield.Folded → Yields (flattenItems (head :: rest)) Yield.Folded :=
    fun hh hr => hh.bind fun _ hf => hr.bind fun _ hs => .pure (hf.append hs)
  induction items using bodyInduction with
  | nil => exact .pure hempty
  | declaration d rest ih =>
    refine hcons (.bind (.trivial _) fun value _ => .pure ?_) ih
    intro result hr
    obtain rfl : result = { d with value := .literal value } := List.mem_singleton.mp hr
    exact ⟨value, rfl⟩
  | assignment a rest ih => exact hcons (.bind (.trivial _) fun _ _ => .pure hempty) ih
  | branch condition body alternative fault rest hb ha ih =>
    have helse : Yields (flattenElse alternative) AllFolded := by
      cases alternative with
      | none => exact .pure fun d hd => by cases hd
      | some other => exact (ha other rfl).body
    refine hcons (.bind (.trivial _) fun chosen _ => ?_) ih
    cases chosen with
    | true => exact hb.body.bind fun _ hd => .pure hd
    | false => exact helse.bind fun _ hd => .pure hd

theorem Member.yields_folded (member : Member) :
    Yields member.flatten fun kept => ∀ other ∈ kept, other.Folded := by
  cases member with
  | rule r =>
    refine (TypedStyle.yields_folded r.body).body.bind fun declarations hd => .pure ?_
    intro other ho
    obtain rfl := List.mem_singleton.mp ho
    exact ⟨_, declarations, rfl, rfl, hd⟩
  | assignment a => exact .bind (.trivial _) fun _ _ => .pure fun other ho => by cases ho

end Yields

theorem flattenItems_of_folded {declarations : List Declaration} (h : AllFolded declarations)
    (scope : Scope Literal) :
    flattenItems (declarations.map .declaration) scope = .ok ⟨declarations, []⟩ scope := by
  induction declarations with
  | nil => rfl
  | cons d declarations ih =>
    obtain ⟨⟨value, hv⟩, hrest⟩ := List.forall_mem_cons.mp h
    have hfirst : (Item.declaration d).flatten scope = .ok ⟨[d], []⟩ scope := by
      have he : d.value.eval? scope = some value := by rw [hv]; rfl
      rw [Item.flatten, Step.bind_of_ok (Flatten.value_of_some he), ← hv]
      rfl
    rw [List.map_cons, flattenItems, Step.bind_of_ok hfirst, Step.bind_of_ok (ih hrest)]
    rfl

theorem Member.Folded.flatten {member : Member} (h : member.Folded) (scope : Scope Literal) :
    member.flatten scope = .ok [member] scope := by
  obtain ⟨rule, declarations, rfl, hb, hd⟩ := h
  have hitems := flattenItems_of_folded hd scope.push
  have hall : (Yield.mk declarations []).all = declarations := List.append_nil _
  rw [← hb] at hitems
  rw [Member.flatten, Step.bind_of_ok (flattenBody_of_ok hitems), hall, ← hb]
  rfl

theorem flattenMembers_of_folded {kept : List Member} (h : ∀ member ∈ kept, member.Folded)
    (scope : Scope Literal) (members : List Member) :
    flattenMembers scope (kept ++ members) =
      ((flattenMembers scope members).1.keep kept, (flattenMembers scope members).2) := by
  induction kept with
  | nil => rfl
  | cons member kept ih =>
    obtain ⟨hm, hkept⟩ := List.forall_mem_cons.mp h
    rw [List.cons_append, flattenMembers_of_ok (hm.flatten scope), ih hkept]
    rfl

/-- Without the bindings of the first run, a second one leaves all as it is and ends alike. -/
def Flattening.Repeats (run : Flattening) : Prop :=
  (flattenMembers Scope.empty.push run.sheet.members).1.sheet = run.sheet ∧
    ((flattenMembers Scope.empty.push run.sheet.members).1.failure = none ↔ run.failure = none)

theorem Flattening.Repeats.keep {run : Flattening} (h : run.Repeats) {kept : List Member}
    (hk : ∀ member ∈ kept, member.Folded) : (run.keep kept).Repeats := by
  rw [Repeats, Flattening.keep, flattenMembers_of_folded hk, Flattening.keep, h.1]
  exact ⟨rfl, h.2⟩

/-- A member that succeeds without bindings succeeds with any, so one that has failed with the
bindings of the first run fails without them. -/
theorem Member.exists_error {member : Member} {scope after : Scope Literal} {failure : Failure}
    (hd : scope.depth = 1) (h : member.flatten scope = .error failure after) :
    ∃ other end_, member.flatten Scope.empty.push = .error other end_ := by
  obtain ⟨below, rfl⟩ := Scope.eq_widen_of_depth hd
  cases hm : member.flatten Scope.empty.push with
  | error other end_ => exact ⟨other, end_, rfl⟩
  | ok kept end_ =>
    have hw := (Widens.member below member (Scope.depth_push_pos _) hm).1
    rw [h] at hw
    cases hw

theorem repeats_flattenMembers {scope : Scope Literal} (hd : scope.depth = 1)
    (members : List Member) : (flattenMembers scope members).1.Repeats := by
  induction members generalizing scope with
  | nil => exact ⟨rfl, Iff.rfl⟩
  | cons member members ih =>
    cases hm : member.flatten scope with
    | error failure after =>
      obtain ⟨other, end_, he⟩ := member.exists_error hd hm
      rw [flattenMembers, hm, Flattening.Repeats, flattenMembers, he]
      simp
    | ok kept after =>
      have hafter : after.depth = 1 :=
        (Widens.member [] member (hd ▸ Nat.one_pos) hm).2.trans hd
      rw [flattenMembers_of_ok hm]
      exact (ih hafter).keep (member.yields_folded hm)

/-- A second run changes nothing in what the first one has left, and fails just if that has. -/
theorem Sheet.flatten_flatten (sheet : Sheet) :
    sheet.flatten.sheet.flatten.sheet = sheet.flatten.sheet ∧
      (sheet.flatten.sheet.flatten.failure = none ↔ sheet.flatten.failure = none) :=
  repeats_flattenMembers (show (Scope.empty.push : Scope Literal).depth = 1 from rfl)
    sheet.members

end TypedStyle
