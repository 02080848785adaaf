import Mathlib.Data.List.Basic

set_option autoImplicit false

namespace TypedStyle

/-- The results are those that are found, one for each place, in the order of the places. -/
def Collects {α β : Type} (before : α → α → Prop) (found : α → β → Prop) (results : List β) :
    Prop :=
  ∃ entries : List (α × β), results = entries.map Prod.snd ∧
    (entries.map Prod.fst).Pairwise before ∧
    ∀ place result, (place, result) ∈ entries ↔ found place result

namespace Collects

variable {α β γ : Type} {before : α → α → Prop} {found other : α → β → Prop}
  {results more : List β}

theorem congr (h : Collects before found results)
    (he : ∀ place result, found place result ↔ other place result) :
    Collects before other results := by
  obtain ⟨entries, rfl, hp, hm⟩ := h
  exact ⟨entries, rfl, hp, fun place result => (hm place result).trans (he place result)⟩

theorem nil (h : ∀ place result, ¬found place result) : Collects before found [] :=
  ⟨[], rfl, .nil, fun place result => by simpa using h place result⟩

theorem option (place : α) (result? : Option β) :
    Collects before (fun other result => other = place ∧ result? = some result)
      result?.toList := by
  cases result? with
  | none => exact nil (by simp)
  | some result => exact ⟨[(place, result)], rfl, by simp, by simp [eq_comm]⟩

theorem append (h : Collects before found results) (ho : Collects before other more)
    (hb : ∀ place later result result', found place result → other later result' →
      before place later) :
    Collects before (fun place result => found place result ∨ other place result)
      (results ++ more) := by
  obtain ⟨entries, rfl, hp, hm⟩ := h
  obtain ⟨later, rfl, hpl, hml⟩ := ho
  refine ⟨entries ++ later, by rw [List.map_append], ?_, fun place result => ?_⟩
  · rw [List.map_append, List.pairwise_append]
    refine ⟨hp, hpl, fun place h after h' => ?_⟩
    obtain ⟨⟨_, result⟩, he, rfl⟩ := List.mem_map.1 h
    obtain ⟨⟨_, result'⟩, hl, rfl⟩ := List.mem_map.1 h'
    exact hb _ _ _ _ ((hm _ _).1 he) ((hml _ _).1 hl)
  · rw [List.mem_append, hm, hml]

theorem under {outer : γ → γ → Prop} (outward : α → γ) (h : Collects before found results)
    (hb : ∀ place later, before place later → outer (outward place) (outward later)) :
    Collects outer (fun place result => ∃ inner, place = outward inner ∧ found inner result)
      results := by
  obtain ⟨entries, rfl, hp, hm⟩ := h
  refine ⟨entries.map fun entry => (outward entry.1, entry.2), by simp, ?_, fun place result => ?_⟩
  · rw [List.map_map, List.pairwise_map]
    rw [List.pairwise_map] at hp
    exact hp.imp fun {entry later} h => hb entry.1 later.1 h
  · simp only [List.mem_map, Prod.exists, Prod.mk.injEq, ← hm]
    constructor
    · rintro ⟨inner, _, he, rfl, rfl⟩
      exact ⟨inner, rfl, he⟩
    · rintro ⟨inner, rfl, he⟩
      exact ⟨inner, result, he, rfl, rfl⟩

theorem exists_nodup (h : Collects before found results) (hn : ∀ place, ¬before place place) :
    ∃ entries : List (α × β), results = entries.map Prod.snd ∧ (entries.map Prod.fst).Nodup ∧
      (entries.map Prod.fst).Pairwise before ∧
      ∀ place result, (place, result) ∈ entries ↔ found place result := by
  obtain ⟨entries, rfl, hp, hm⟩ := h
  refine ⟨entries, rfl, hp.imp ?_, hp, hm⟩
  intro place later h he
  exact hn place (he ▸ h)

end Collects

end TypedStyle
