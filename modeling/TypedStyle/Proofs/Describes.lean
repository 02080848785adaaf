import TypedStyle.Proofs.Lexical

set_option autoImplicit false

namespace TypedStyle

variable {α : Type}

@[simp]
theorem Scope.pop_declare (scope : Scope α) (name : String) (value : α) :
    (scope.declare name value).pop = scope.pop := by
  unfold declare
  split <;> simp_all [pop]

theorem Scope.depth_push_pos (scope : Scope α) : 0 < scope.push.depth :=
  Nat.succ_pos _

namespace Env

structure Describes (meaning : (String → Option α) → Expr → Option α) (env : Env)
    (scope : Scope α) : Prop where
  depth_pos : 0 < scope.depth
  bound : env.Bound meaning
  resolve : scope.resolve? = env.lookUp meaning

namespace Describes

variable {meaning : (String → Option α) → Expr → Option α} {env : Env} {scope : Scope α}

theorem top : Describes meaning [] (Scope.empty : Scope α).push := by
  refine ⟨by simp, trivial, ?_⟩
  funext name
  simp [lookUp]

theorem push (h : env.Describes meaning scope) : env.Describes meaning scope.push := by
  refine ⟨by simp, h.bound, ?_⟩
  funext name
  rw [Scope.resolve?_push, h.resolve]

theorem declare (h : env.Describes meaning scope) {a : Assignment} {value : α}
    (hv : meaning (env.lookUp meaning) a.value = some value) :
    Describes meaning (a :: env) (scope.declare a.name value) := by
  refine ⟨by simpa using h.depth_pos, ⟨⟨value, hv⟩, h.bound⟩, ?_⟩
  funext name
  rw [Scope.resolve?_declare _ _ _ _ h.depth_pos, h.resolve]
  by_cases hn : name = a.name
  · rw [if_pos hn, lookUp, if_pos hn.symm]
    exact hv.symm
  · rw [if_neg hn, lookUp, if_neg (Ne.symm hn)]

end Describes

end Env

end TypedStyle
