/-!
Scopes: nested frames of bindings, of which the innermost binding of a name counts.
-/

set_option autoImplicit false

namespace TypedStyle

/-- The innermost frame stands first, and in a frame the newest binding. -/
structure Scope (α : Type) where
  frames : List (List (String × α))
  deriving Repr, DecidableEq

namespace Scope

variable {α : Type}

def empty : Scope α :=
  ⟨[]⟩

def depth (scope : Scope α) : Nat :=
  scope.frames.length

def push (scope : Scope α) : Scope α :=
  ⟨[] :: scope.frames⟩

def pop (scope : Scope α) : Scope α :=
  ⟨scope.frames.tail⟩

/-- A name is bound in the innermost frame; without frames it stays unbound. -/
def declare (scope : Scope α) (name : String) (value : α) : Scope α :=
  match scope.frames with
  | [] => scope
  | frame :: outer => ⟨((name, value) :: frame) :: outer⟩

def resolve? (scope : Scope α) (name : String) : Option α :=
  scope.frames.findSome? (·.lookup name)

def isDefined (scope : Scope α) (name : String) : Bool :=
  (scope.resolve? name).isSome

@[simp]
theorem pop_push (scope : Scope α) : scope.push.pop = scope := rfl

@[simp]
theorem resolve?_empty (name : String) : (empty : Scope α).resolve? name = none := rfl

@[simp]
theorem resolve?_push (scope : Scope α) (name : String) :
    scope.push.resolve? name = scope.resolve? name := by
  simp [resolve?, push, List.findSome?_cons]

@[simp]
theorem depth_push (scope : Scope α) : scope.push.depth = scope.depth + 1 := rfl

@[simp]
theorem depth_pop (scope : Scope α) : scope.pop.depth = scope.depth - 1 := by
  simp [depth, pop]

@[simp]
theorem depth_declare (scope : Scope α) (name : String) (value : α) :
    (scope.declare name value).depth = scope.depth := by
  unfold declare
  split <;> simp_all [depth]

theorem resolve?_declare (scope : Scope α) (name other : String) (value : α)
    (h : 0 < scope.depth) :
    (scope.declare name value).resolve? other =
      if other = name then some value else scope.resolve? other := by
  unfold declare
  split
  · simp_all [depth]
  · rename_i frame outer hf
    simp only [resolve?, hf, List.findSome?_cons, List.lookup_cons]
    by_cases ho : other = name
    · simp [ho]
    · simp [ho, beq_eq_false_iff_ne.2 ho]

end Scope

end TypedStyle
