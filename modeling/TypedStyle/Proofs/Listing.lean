import TypedStyle.Proofs.Entries
import TypedStyle.Proofs.Lexical

set_option autoImplicit false

namespace TypedStyle

def AllResolved (env : Env) (items : List Item) (among : Place → Prop) : Prop :=
  ∀ place item within, among place → Active env items place item within →
    within.Bound Expr.valueBy ∧ item.Resolved within

namespace Place

def Direct : Place → Prop
  | .here _ => True
  | .inside _ _ _ => False

def Between (low high : Nat) (place : Place) : Prop :=
  low ≤ place.index ∧ place.index < high

theorem index_eq_of_between {low : Nat} {place : Place} (h : place.Between low (low + 1)) :
    place.index = low :=
  Nat.le_antisymm (Nat.le_of_lt_succ h.2) h.1

theorem precedes_of_index_lt {place later : Place} (h : place.index < later.index)
    (hd : later.Direct → place.Direct) : place.Precedes later := by
  cases place <;> cases later <;> simp_all [Precedes, index, Direct]

theorem precedes_of_direct {place later : Place} (h : place.Direct) (hl : ¬later.Direct) :
    place.Precedes later := by
  cases place <;> cases later <;> simp_all [Precedes, Direct]

end Place

namespace Lists

variable {env : Env} {items : List Item} {among other both : Place → Prop}
  {results more : List Declaration}

theorem iff_collects : Lists env items among results ↔ Collects Place.Precedes
    (fun place result => among place ∧ Gives env items place result) results :=
  ⟨fun ⟨entries, hr, _, hp, hm⟩ => ⟨entries, hr, hp, hm⟩,
    fun h => h.exists_nodup Place.not_precedes_self⟩

theorem congr (h : Lists env items among results)
    (he : ∀ place result, Gives env items place result → (among place ↔ other place)) :
    Lists env items other results :=
  iff_collects.mpr ((iff_collects.mp h).congr fun place result => and_congr_left (he place result))

theorem none (h : ∀ place result, among place → ¬Gives env items place result) :
    Lists env items among [] :=
  iff_collects.mpr (.nil fun place result hg => h place result hg.1 hg.2)

theorem append (h : Lists env items among results) (ho : Lists env items other more)
    (hp : ∀ place later, among place → other later → place.Precedes later)
    (hb : ∀ place, both place ↔ among place ∨ other place) :
    Lists env items both (results ++ more) := by
  have hall := (iff_collects.mp h).append (iff_collects.mp ho)
    fun place later result result' hf hl => hp place later hf.1 hl.1
  exact iff_collects.mpr (hall.congr fun place result => by rw [hb, or_and_right])

end Lists

/-- The yield of a stretch of a body, in which all is resolved. -/
structure Listing (env : Env) (items : List Item) (low high : Nat) (yield : Yield) : Prop where
  resolved : AllResolved env items (Place.Between low high)
  own : Lists env items (fun place => place.Direct ∧ place.Between low high) yield.own
  chosen : Lists env items (fun place => ¬place.Direct ∧ place.Between low high) yield.chosen

namespace Listing

variable {env : Env} {items : List Item} {low mid high : Nat} {first second : Yield}

theorem empty (h : high ≤ low) : Listing env items low high .empty := by
  refine ⟨fun place _ _ hb => ?_, .none fun place _ hb => ?_, .none fun place _ hb => ?_⟩ <;>
    simp only [Place.Between] at hb <;> omega

theorem append (hf : Listing env items low mid first) (hs : Listing env items mid high second)
    (hl : low ≤ mid) (hh : mid ≤ high) :
    Listing env items low high (first.append second) := by
  have hb : ∀ place : Place,
      place.Between low high ↔ place.Between low mid ∨ place.Between mid high := by
    intro place
    simp only [Place.Between]
    omega
  refine ⟨fun place item within hp ha => ?_, ?_, ?_⟩
  · rcases (hb place).1 hp with hp | hp
    · exact hf.resolved place item within hp ha
    · exact hs.resolved place item within hp ha
  · refine hf.own.append hs.own (fun place later h h' => ?_) fun place => ?_
    · exact Place.precedes_of_index_lt (Nat.lt_of_lt_of_le h.2.2 h'.2.1) fun _ => h.1
    · rw [hb, and_or_left]
  · refine hf.chosen.append hs.chosen (fun place later h h' => ?_) fun place => ?_
    · exact Place.precedes_of_index_lt (Nat.lt_of_lt_of_le h.2.2 h'.2.1) fun hd => absurd hd h'.1
    · rw [hb, and_or_left]

theorem all (h : Listing env items 0 items.length first) :
    AllResolved env items (fun _ => True) ∧ Lists env items (fun _ => True) first.all := by
  have hb : ∀ {place item within}, Active env items place item within →
      place.Between 0 items.length := fun ha => ⟨Nat.zero_le _, ha.index_lt⟩
  have hall : Lists env items (Place.Between 0 items.length) first.all := by
    refine h.own.append h.chosen
      (fun place later hp hl => Place.precedes_of_direct hp.1 hl.1) fun place => ?_
    by_cases hd : place.Direct <;> simp [hd]
  refine ⟨fun place item within _ ha => h.resolved place item within (hb ha) ha, ?_⟩
  refine hall.congr ?_
  intro place result hg
  obtain ⟨source, within, value, ha, _⟩ := hg
  simp [hb ha]

end Listing

section Head

variable {env : Env} {before rest : List Item} {head : Item}

theorem Listing.ofDirect (hbound : (env.past before).Bound Expr.valueBy)
    (hr : head.Resolved (env.past before))
    (hb : ∀ condition body alternative fault,
      head = .branch condition body alternative fault →
        ∀ (side : Side) inner, side.items? body alternative = some inner →
          condition.valueIn? (env.past before) ≠ some (.bool side.truth))
    {own : List Declaration}
    (ho : Lists env (before ++ head :: rest) (· = .here before.length) own) :
    Listing env (before ++ head :: rest) before.length (before.length + 1) ⟨own, []⟩ := by
  have hd : ∀ {place item within}, Active env (before ++ head :: rest) place item within →
      place.Between before.length (before.length + 1) →
      place = .here before.length ∧ item = head ∧ within = env.past before := by
    intro place item within ha hp
    rcases ha.at_length (Place.index_eq_of_between hp) with h |
      ⟨side, inner, c, b, a, f, _, _, hh, hs, hv, _⟩
    · exact h
    · exact absurd hv (hb c b a f hh side inner hs)
  refine ⟨fun place item within hp ha => ?_, ho.congr ?_, .none ?_⟩
  · obtain ⟨-, rfl, rfl⟩ := hd ha hp
    exact ⟨hbound, hr⟩
  · intro place result hg
    obtain ⟨source, within, value, ha, _⟩ := hg
    constructor
    · intro hp
      subst hp
      simp [Place.Direct, Place.Between, Place.index]
    · exact fun hp => (hd ha hp.2).1
  · intro place result hp hg
    obtain ⟨source, within, value, ha, _⟩ := hg
    obtain ⟨rfl, _⟩ := hd ha hp.2
    exact hp.1 trivial

theorem Lists.ofDeclaration {d : Declaration} {value : Literal}
    (hv : d.value.valueIn? (env.past before) = some value) :
    Lists env (before ++ .declaration d :: rest) (· = .here before.length)
      [{ d with value := .literal value }] := by
  have hsingle : Collects Place.Precedes _ [{ d with value := .literal value }] :=
    .option (Place.here before.length) (some { d with value := .literal value })
  refine Lists.iff_collects.mpr (hsingle.congr fun place result => and_congr_right fun hp => ?_)
  subst hp
  constructor
  · intro hr
    cases hr
    exact ⟨d, _, value, stands_here_iff.2 ⟨rfl, rfl⟩, hv, rfl⟩
  · intro hg
    obtain ⟨source, within, other, ha, ho, rfl⟩ := hg
    obtain ⟨hs, rfl⟩ := stands_here_iff.1 ha
    cases hs
    rw [hv] at ho
    cases ho
    rfl

theorem Lists.ofOther (h : ∀ d, head ≠ .declaration d) :
    Lists env (before ++ head :: rest) (· = .here before.length) [] := by
  refine .none ?_
  intro place result hp hg
  subst hp
  obtain ⟨source, within, value, ha, _⟩ := hg
  exact h source (stands_here_iff.1 ha).1.symm

theorem Active.at_branch {condition : Expr} {body : List Item} {alternative : Option (List Item)}
    {fault : Option Fault} {side : Side} {inner : List Item} {place : Place} {item : Item}
    {within : Env}
    (ha : Active env (before ++ .branch condition body alternative fault :: rest) place item within)
    (hv : condition.valueIn? (env.past before) = some (.bool side.truth))
    (hs : side.items? body alternative = some inner) (hp : place.index = before.length) :
    place = .here before.length ∧ item = .branch condition body alternative fault ∧
        within = env.past before ∨
      ∃ place', place = .inside before.length side place' ∧
        Active (env.past before) inner place' item within := by
  rcases ha.at_length hp with h | ⟨other, inner', _, _, _, _, place', hplace, hh, ho, hov, ha⟩
  · exact .inl h
  · cases hh
    have hside : other = side := by
      have htruth := hov.symm.trans hv
      cases side <;> cases other <;> simp_all [Side.truth]
    subst hside
    rw [hs] at ho
    cases ho
    exact .inr ⟨place', hplace, ha⟩

theorem Listing.ofBranch {condition : Expr} {body : List Item} {alternative : Option (List Item)}
    {fault : Option Fault} {side : Side} {inner : List Item} {chosen : List Declaration}
    (hbound : (env.past before).Bound Expr.valueBy)
    (hv : condition.valueIn? (env.past before) = some (.bool side.truth))
    (hs : side.items? body alternative = some inner)
    (hr : AllResolved (env.past before) inner fun _ => True)
    (hl : Lists (env.past before) inner (fun _ => True) chosen) :
    Listing env (before ++ .branch condition body alternative fault :: rest) before.length
      (before.length + 1) ⟨[], chosen⟩ := by
  refine ⟨fun place item within hp ha => ?_, .none ?_, ?_⟩
  · rcases ha.at_branch hv hs (Place.index_eq_of_between hp) with ⟨_, hi, hw⟩ | ⟨place', _, ha⟩
    · subst hi hw
      exact ⟨hbound, _, hv⟩
    · exact hr place' item within trivial ha
  · intro place result hd hg
    obtain ⟨source, within, value, ha, _⟩ := hg
    rcases ha.at_branch hv hs (Place.index_eq_of_between hd.2) with ⟨_, hi, _⟩ | ⟨place', hp, _⟩
    · cases hi
    · subst hp
      exact hd.1
  · have hinside : Collects Place.Precedes _ chosen :=
      (Lists.iff_collects.mp hl).under (Place.inside before.length side) fun place later h =>
        Or.inr ⟨rfl, Or.inr ⟨rfl, h⟩⟩
    refine Lists.iff_collects.mpr (hinside.congr fun place result => ?_)
    constructor
    · rintro ⟨place', rfl, -, source, within, value, ha, hsv, rfl⟩
      refine ⟨⟨id, Nat.le_refl _, Nat.lt_succ_self _⟩, source, within, value, ?_, hsv, rfl⟩
      exact stands_inside_iff.2 ⟨_, _, _, _, _, rfl, hs, hv, ha⟩
    · rintro ⟨⟨hd, hp⟩, source, within, value, ha, hsv, rfl⟩
      rcases ha.at_branch hv hs (Place.index_eq_of_between hp) with ⟨hplace, _⟩ |
        ⟨place', hplace, hi⟩
      · subst hplace
        exact absurd trivial hd
      · exact ⟨place', hplace, trivial, source, within, value, hi, hsv, rfl⟩

end Head

end TypedStyle
