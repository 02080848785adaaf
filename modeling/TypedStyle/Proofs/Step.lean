/-!
The runs of steps that change a state and may fail, put together from those of their parts.
-/

set_option autoImplicit false

namespace TypedStyle.Step

variable {ε σ α β : Type} {step : EStateM ε σ α} {next : α → EStateM ε σ β} {state after : σ}
  {result : α} {error : ε}

theorem get_bind (next : σ → EStateM ε σ β) (state : σ) :
    (get >>= next) state = next state state := rfl

theorem bind_of_ok (h : step state = .ok result after) :
    (step >>= next) state = next result after := by
  show EStateM.bind step next state = _
  rw [EStateM.bind, h]

theorem bind_of_error (h : step state = .error error after) :
    (step >>= next) state = .error error after := by
  show EStateM.bind step next state = _
  rw [EStateM.bind, h]

theorem map_of_ok {change : α → β} (h : step state = .ok result after) :
    (change <$> step) state = .ok (change result) after := by
  show EStateM.map change step state = _
  rw [EStateM.map, h]

theorem map_of_error {change : α → β} (h : step state = .error error after) :
    (change <$> step) state = .error error after := by
  show EStateM.map change step state = _
  rw [EStateM.map, h]

theorem exists_of_bind_ok {other : β} (h : (step >>= next) state = .ok other after) :
    ∃ found middle, step state = .ok found middle ∧ next found middle = .ok other after := by
  change EStateM.bind step next state = _ at h
  rw [EStateM.bind] at h
  cases hs : step state with
  | error failure middle =>
    rw [hs] at h
    cases h
  | ok found middle =>
    rw [hs] at h
    exact ⟨found, middle, rfl, h⟩

theorem exists_of_bind_error (h : (step >>= next) state = .error error after) :
    step state = .error error after ∨
      ∃ found middle, step state = .ok found middle ∧ next found middle = .error error after := by
  change EStateM.bind step next state = _ at h
  rw [EStateM.bind] at h
  cases hs : step state with
  | error failure middle =>
    rw [hs] at h
    cases h
    exact .inl rfl
  | ok found middle =>
    rw [hs] at h
    exact .inr ⟨found, middle, rfl, h⟩

theorem error_of_map_error {change : α → β} (h : (change <$> step) state = .error error after) :
    step state = .error error after := by
  rw [map_eq_pure_bind] at h
  rcases exists_of_bind_error h with hs | ⟨found, middle, -, hp⟩
  · exact hs
  · cases hp

end TypedStyle.Step
