import TypedStyle.Proofs.Flattening
import TypedStyle.Proofs.References

set_option autoImplicit false

namespace TypedStyle

def operandText (name : String) (type : ValueType) : String :=
  name ++ " of type " ++ type.name

/-- Among the operands only variables are called by names, and only by one of these. -/
def renameOperand (r : String → String) (names : List String) (operand : String) : String :=
  let renamed? := names.findSome? fun name => ValueType.all.findSome? fun type =>
    if operand = operandText name type then some (operandText (r name) type) else none
  renamed?.getD operand

/-- The fault says the same under the other names. Its node has these variables for its sides. -/
def Fault.rename (r : String → String) (names : List String) : Fault → Fault
  | .undefinedVariable name => .undefinedVariable (r name)
  | .illegalOperand operand => .illegalOperand (renameOperand r names operand)
  | fault => fault

namespace Expr

def name? : Expr → Option String
  | .reference name _ => some name
  | _ => none

def sideNames (left right : Expr) : List String :=
  [left, right].filterMap name?

def rename (r : String → String) : Expr → Expr
  | .literal value fault => .literal value fault
  | .reference name fault => .reference (r name) (fault.map (Fault.rename r []))
  | .operation op left right fault =>
    .operation op (left.rename r) (right.rename r)
      (fault.map (Fault.rename r (sideNames left right)))

end Expr

def Declaration.rename (r : String → String) (declaration : Declaration) : Declaration :=
  { declaration with value := declaration.value.rename r }

def Assignment.rename (r : String → String) (assignment : Assignment) : Assignment :=
  ⟨r assignment.name, assignment.value.rename r⟩

mutual

def Item.rename (r : String → String) : Item → Item
  | .declaration d => .declaration (d.rename r)
  | .assignment a => .assignment (a.rename r)
  | .branch condition body alternative fault =>
    .branch (condition.rename r) (renameItems r body) (renameElse r alternative) fault

def renameItems (r : String → String) : List Item → List Item
  | [] => []
  | item :: items => item.rename r :: renameItems r items

def renameElse (r : String → String) : Option (List Item) → Option (List Item)
  | none => none
  | some body => some (renameItems r body)

end

def Member.rename (r : String → String) : Member → Member
  | .rule ⟨selectors, body⟩ => .rule ⟨selectors, renameItems r body⟩
  | .assignment a => .assignment (a.rename r)

def Sheet.rename (r : String → String) (sheet : Sheet) : Sheet :=
  ⟨sheet.members.map (Member.rename r)⟩

namespace Scope

variable {α : Type}

def renameFrame (r : String → String) (frame : List (String × α)) : List (String × α) :=
  frame.map fun binding => (r binding.1, binding.2)

def rename (r : String → String) (scope : Scope α) : Scope α :=
  ⟨scope.frames.map (renameFrame r)⟩

theorem rename_empty (r : String → String) : (empty : Scope α).rename r = empty := rfl

theorem rename_push (r : String → String) (scope : Scope α) :
    scope.push.rename r = (scope.rename r).push := rfl

theorem rename_pop (r : String → String) (scope : Scope α) :
    scope.pop.rename r = (scope.rename r).pop := by
  obtain ⟨_ | ⟨frame, outer⟩⟩ := scope <;> rfl

theorem rename_declare (r : String → String) (scope : Scope α) (name : String) (value : α) :
    (scope.declare name value).rename r = (scope.rename r).declare (r name) value := by
  obtain ⟨_ | ⟨frame, outer⟩⟩ := scope <;> rfl

variable {r : String → String}

theorem lookup_renameFrame (hr : Function.Injective r) (frame : List (String × α))
    (name : String) : (renameFrame r frame).lookup (r name) = frame.lookup name := by
  induction frame with
  | nil => rfl
  | cons binding frame ih =>
    obtain ⟨other, value⟩ := binding
    have hsame : (r name == r other) = (name == other) := by
      rw [Bool.eq_iff_iff, beq_iff_eq, beq_iff_eq, hr.eq_iff]
    rw [renameFrame, List.map_cons, List.lookup_cons, List.lookup_cons, hsame]
    cases name == other with
    | true => rfl
    | false => exact ih

theorem resolve?_rename (hr : Function.Injective r) (scope : Scope α) (name : String) :
    (scope.rename r).resolve? (r name) = scope.resolve? name := by
  simp only [resolve?, rename, List.findSome?_map, Function.comp_def, lookup_renameFrame hr]

end Scope

section Faults

theorem ValueType.eq_of_suffix : ∀ type ∈ all, ∀ other ∈ all,
    (" of type " ++ type.name).toList <:+ (" of type " ++ other.name).toList → type = other := by
  decide

theorem toList_operandText (name : String) (type : ValueType) :
    (operandText name type).toList = name.toList ++ (" of type " ++ type.name).toList := by
  rw [operandText, String.append_assoc, String.toList_append]

theorem operandText_inj {name other : String} {type type' : ValueType}
    (h : operandText name type = operandText other type') : name = other ∧ type = type' := by
  have hlist := congrArg String.toList h
  rw [toList_operandText, toList_operandText] at hlist
  have hsuffix : (" of type " ++ type.name).toList <:+
      other.toList ++ (" of type " ++ type'.name).toList := ⟨name.toList, hlist⟩
  -- both types end the same text, so the name of one ends that of the other
  have htype : type = type' := by
    rcases List.suffix_or_suffix_of_suffix hsuffix ⟨other.toList, rfl⟩ with hs | hs
    · exact ValueType.eq_of_suffix _ type.mem_all _ type'.mem_all hs
    · exact (ValueType.eq_of_suffix _ type'.mem_all _ type.mem_all hs).symm
  subst htype
  exact ⟨String.toList_inj.mp (List.append_cancel_right hlist), rfl⟩

theorem renameOperand_operandText (r : String → String) {names : List String} {name : String}
    (hm : name ∈ names) (type : ValueType) :
    renameOperand r names (operandText name type) = operandText (r name) type := by
  rw [renameOperand]
  cases hf : names.findSome? _ with
  | none =>
    have hnone := List.findSome?_eq_none_iff.mp (List.findSome?_eq_none_iff.mp hf name hm) type
      type.mem_all
    simp at hnone
  | some found =>
    obtain ⟨other, -, ho⟩ := List.exists_of_findSome?_eq_some hf
    obtain ⟨type', -, ht⟩ := List.exists_of_findSome?_eq_some ho
    simp only [Option.ite_none_right_eq_some, Option.some.injEq] at ht
    obtain ⟨rfl, rfl⟩ := operandText_inj ht.1
    exact ht.2.symm

end Faults

section Check

namespace Expr

theorem unfit_rename (r : String → String) (expr : Expr) : (expr.rename r).Unfit ↔ expr.Unfit := by
  cases expr <;> rfl

theorem mark_rename (r : String → String) (expr : Expr) :
    (expr.rename r).mark (expr.rename r).operandFault? =
      (expr.mark expr.operandFault?).rename r := by
  cases expr <;> rfl

theorem undefined_or_number {op : Operator} {left right : Expr} {l r type : ValueType}
    (h : operationType op left right l r = .ok type) :
    type = .undefined ∨ ∃ measure, type = .number measure := by
  cases l with
  | number l =>
    cases r with
    | number r =>
      cases hm : op.measure? l r with
      | some measure => exact .inr ⟨measure, by simpa [operationType, hm] using h.symm⟩
      | none => cases op <;> simp [operationType, hm] at h
    | _ => simp_all [operationType]
  | _ => cases r <;> simp_all [operationType]

def Nameable (side : Expr) : ValueType → Prop
  | .undefined | .number _ => True
  | _ => ∃ name fault, side = .reference name fault

theorem nameable_check {scope : Scope ValueType} {side : Expr} (hu : ¬side.Unfit) :
    side.Nameable (side.check scope).2 := by
  cases side with
  | literal value fault =>
    cases value with
    | number measure value => trivial
    | _ => exact absurd trivial hu
  | reference name fault => cases h : ((reference name fault).check scope).2 <;> simp [Nameable]
  | operation op left right fault =>
    by_cases hs : left.Unfit ∨ right.Unfit
    · rw [check_of_unfit hs]
      trivial
    · rw [check_of_fit hs]
      cases ht : operationType op left right (left.check scope).2 (right.check scope).2 with
      | error found => trivial
      | ok type => obtain rfl | ⟨measure, rfl⟩ := undefined_or_number ht <;> trivial

theorem rename_illegalSide (r : String → String) {names : List String} {name : String}
    {fault : Option Fault} (hm : name ∈ names) (type : ValueType) :
    (illegalSide (.reference name fault) type).rename r names =
      illegalSide ((Expr.reference name fault).rename r) type :=
  congrArg Fault.illegalOperand (renameOperand_operandText r hm type)

theorem operationType_rename (r : String → String) (op : Operator) {left right : Expr}
    {lt rt : ValueType} (hl : left.Nameable lt) (hr : right.Nameable rt) :
    operationType op (left.rename r) (right.rename r) lt rt =
      (operationType op left right lt rt).mapError (Fault.rename r (sideNames left right)) := by
  have hside : ∀ {side : Expr} {name fault} (type : ValueType), side = .reference name fault →
      name ∈ sideNames left right →
      .error (illegalSide (side.rename r) type) = (Except.error (illegalSide side type) :
        Except Fault ValueType).mapError (Fault.rename r (sideNames left right)) := by
    rintro side name fault type rfl hm
    exact congrArg Except.error (rename_illegalSide r hm type).symm
  -- the left side is blamed first, and only for a type that no literal has here
  cases lt with
  | undefined => rfl
  | number l =>
    cases rt with
    | undefined => rfl
    | number m =>
      cases hm : op.measure? l m with
      | some measure => simp only [operationType, hm]; rfl
      | none => cases op <;> simp only [operationType, hm] <;> rfl
    | bool | color =>
      obtain ⟨name, fault, rfl⟩ := hr
      exact hside _ rfl (by simp [sideNames, name?])
  | bool | color =>
    obtain ⟨name, fault, rfl⟩ := hl
    cases rt with
    | undefined => rfl
    | _ => exact hside _ rfl List.mem_cons_self

theorem name?_mark (found : Option Fault) (expr : Expr) : (expr.mark found).name? = expr.name? := by
  cases expr <;> rfl

theorem name?_check (scope : Scope ValueType) (expr : Expr) :
    (expr.check scope).1.name? = expr.name? := by
  cases expr with
  | literal value fault => rfl
  | reference name fault =>
    rw [check]
    cases scope.resolve? name <;> rfl
  | operation op left right fault =>
    by_cases hu : left.Unfit ∨ right.Unfit
    · rw [check_of_unfit hu]
      rfl
    · obtain ⟨found, he⟩ : ∃ found, (check scope (.operation op left right fault)).1 =
          .operation op (left.check scope).1 (right.check scope).1 found := exists_check_fit hu
      rw [he]
      rfl

theorem sideNames_congr {left right left' right' : Expr} (hl : left'.name? = left.name?)
    (hr : right'.name? = right.name?) : sideNames left' right' = sideNames left right := by
  simp only [sideNames, List.filterMap_cons, List.filterMap_nil, hl, hr]

theorem check_rename {r : String → String} (hr : Function.Injective r) (scope : Scope ValueType)
    (expr : Expr) : (expr.rename r).check (scope.rename r) =
      ((expr.check scope).1.rename r, (expr.check scope).2) := by
  induction expr with
  | literal value fault => rfl
  | reference name fault =>
    rw [rename, check, check, Scope.resolve?_rename hr]
    cases scope.resolve? name <;> rfl
  | operation op left right fault ihl ihr =>
    have hunfit := or_congr (unfit_rename r left) (unfit_rename r right)
    by_cases hu : left.Unfit ∨ right.Unfit
    -- the sides get their faults themselves, and keep their names
    · rw [rename, check_of_unfit (hunfit.mpr hu), check_of_unfit hu, mark_rename, mark_rename,
        rename, sideNames_congr (name?_mark _ left) (name?_mark _ right)]
    · obtain ⟨hl, hr⟩ := not_or.mp hu
      rw [rename, check_of_fit (hunfit.not.mpr hu), check_of_fit hu, ihl, ihr,
        operationType_rename r op (nameable_check hl) (nameable_check hr)]
      have hnames := sideNames_congr (name?_check scope left) (name?_check scope right)
      cases operationType op left right (left.check scope).2 (right.check scope).2 with
      | ok type => simp only [Except.mapError, rename, hnames]
      | error found => simp only [Except.mapError, rename, hnames, Option.map_some]

end Expr

variable {r : String → String}

theorem Assignment.check_rename (hr : Function.Injective r) (scope : Scope ValueType)
    (a : Assignment) : (a.rename r).check (scope.rename r) =
      ((a.check scope).1.rename r, (a.check scope).2.rename r) := by
  simp only [check, rename, Expr.check_rename hr, Scope.rename_declare]

theorem Declaration.check_rename (hr : Function.Injective r) (scope : Scope ValueType)
    (d : Declaration) : (d.rename r).check (scope.rename r) = (d.check scope).rename r := by
  simp only [check, rename, Expr.check_rename hr]

theorem checkItems_rename (hr : Function.Injective r) (scope : Scope ValueType)
    (items : List Item) : checkItems (scope.rename r) (renameItems r items) =
      (renameItems r (checkItems scope items).1, (checkItems scope items).2.rename r) := by
  induction items using bodyInduction generalizing scope with
  | nil => rfl
  | declaration d rest ih =>
    simp only [renameItems, Item.rename, checkItems, Item.check, d.check_rename hr, ih]
  | assignment a rest ih =>
    simp only [renameItems, Item.rename, checkItems, Item.check, a.check_rename hr, ih]
  | branch condition body alternative fault rest hb ha ih =>
    have helse : ∀ scope : Scope ValueType,
        checkElse (scope.rename r) (renameElse r alternative) =
          (renameElse r (checkElse scope alternative).1,
            (checkElse scope alternative).2.rename r) := by
      intro scope
      cases alternative with
      | none => rfl
      | some other =>
        simp only [renameElse, checkElse, ← Scope.rename_push, ha other rfl, Scope.rename_pop]
    simp only [renameItems, Item.rename, checkItems, Item.check, ← Scope.rename_push,
      Expr.check_rename hr, hb, ← Scope.rename_pop, helse, ih]

theorem Member.check_rename (hr : Function.Injective r) (scope : Scope ValueType)
    (member : Member) : (member.rename r).check (scope.rename r) =
      ((member.check scope).1.rename r, (member.check scope).2.rename r) := by
  cases member with
  | rule known =>
    simp only [rename, check, Rule.check, ← Scope.rename_push, checkItems_rename hr,
      Scope.rename_pop]
  | assignment a => simp only [rename, check, a.check_rename hr]

theorem checkMembers_rename (hr : Function.Injective r) (scope : Scope ValueType)
    (members : List Member) : checkMembers (scope.rename r) (members.map (Member.rename r)) =
      ((checkMembers scope members).1.map (Member.rename r),
        (checkMembers scope members).2.rename r) := by
  induction members generalizing scope with
  | nil => rfl
  | cons member members ih =>
    simp only [List.map_cons, checkMembers, member.check_rename hr, ih]

theorem Sheet.check_rename (hr : Function.Injective r) (sheet : Sheet) :
    (sheet.rename r).check = sheet.check.rename r := by
  have hmembers := checkMembers_rename hr Scope.empty.push sheet.members
  rw [Scope.rename_push, Scope.rename_empty] at hmembers
  simp only [check, checkIn, rename, hmembers]

end Check

section Flatten

variable {r : String → String} {α β : Type}

/-- With the other names the other step does what the step does. What a failure says is left
open. -/
def Renames (r : String → String) (step other : Flatten α) : Prop :=
  ∀ scope, match step scope with
    | .ok result after => other (scope.rename r) = .ok result (after.rename r)
    | .error _ after => ∃ failure, other (scope.rename r) = .error failure (after.rename r)

namespace Renames

variable {step other : Flatten α}

theorem of_ok (h : Renames r step other) {scope after : Scope Literal} {result : α}
    (hs : step scope = .ok result after) :
    other (scope.rename r) = .ok result (after.rename r) := by
  have hscope := h scope
  rwa [hs] at hscope

theorem of_error (h : Renames r step other) {scope after : Scope Literal} {failure : Failure}
    (hs : step scope = .error failure after) :
    ∃ failure, other (scope.rename r) = .error failure (after.rename r) := by
  have hscope := h scope
  rwa [hs] at hscope

theorem pure (result : α) : Renames r (Pure.pure result) (Pure.pure result) :=
  fun _ => rfl

theorem bind {next next' : α → Flatten β} (h : Renames r step other)
    (hn : ∀ result, Renames r (next result) (next' result)) :
    Renames r (step >>= next) (other >>= next') := by
  intro scope
  cases hs : step scope with
  | ok result middle =>
    rw [Step.bind_of_ok hs, Step.bind_of_ok (h.of_ok hs)]
    exact hn result middle
  | error failure middle =>
    obtain ⟨failure', ho⟩ := h.of_error hs
    rw [Step.bind_of_error hs]
    exact ⟨failure', Step.bind_of_error ho⟩

theorem map (change : α → β) (h : Renames r step other) :
    Renames r (change <$> step) (change <$> other) := by
  rw [map_eq_pure_bind, map_eq_pure_bind]
  exact h.bind fun result => .pure (change result)

theorem inFrame (h : Renames r step other) :
    Renames r (Flatten.inFrame step) (Flatten.inFrame other) := by
  intro scope
  rw [Flatten.inFrame, Flatten.inFrame, ← Scope.rename_push]
  cases hs : step scope.push with
  | ok result inner =>
    rw [h.of_ok hs]
    exact congrArg (EStateM.Result.ok result) (Scope.rename_pop r inner).symm
  | error failure inner =>
    obtain ⟨failure', ho⟩ := h.of_error hs
    rw [ho]
    exact ⟨failure', congrArg (EStateM.Result.error failure') (Scope.rename_pop r inner).symm⟩

end Renames

theorem Expr.eval?_rename (hr : Function.Injective r) (scope : Scope Literal) (expr : Expr) :
    (expr.rename r).eval? (scope.rename r) = expr.eval? scope := by
  induction expr with
  | literal value fault => rfl
  | reference name fault => exact Scope.resolve?_rename hr scope name
  | operation op left right fault ihl ihr => rw [rename, eval?, eval?, ihl, ihr]

namespace Renames

theorem value (hr : Function.Injective r) (expr : Expr) :
    Renames r (Flatten.value expr) (Flatten.value (expr.rename r)) := by
  intro scope
  have heval := expr.eval?_rename hr scope
  cases he : expr.eval? scope with
  | some value =>
    rw [Flatten.value_of_some he]
    exact Flatten.value_of_some (heval.trans he)
  | none =>
    rw [Flatten.value_of_none he]
    exact ⟨_, Flatten.value_of_none (heval.trans he)⟩

theorem truth (hr : Function.Injective r) (condition : Expr) :
    Renames r (Flatten.truth condition) (Flatten.truth (condition.rename r)) := by
  intro scope
  have heval := condition.eval?_rename hr scope
  by_cases he : ∃ truth, condition.eval? scope = some (.bool truth)
  · obtain ⟨truth, he⟩ := he
    rw [Flatten.truth_of_some he]
    exact Flatten.truth_of_some (heval.trans he)
  · rw [Flatten.truth_of_ne fun truth h => he ⟨truth, h⟩]
    exact ⟨_, Flatten.truth_of_ne fun truth h => he ⟨truth, heval ▸ h⟩⟩

theorem assign (hr : Function.Injective r) (a : Assignment) :
    Renames r (Flatten.bind a) (Flatten.bind (a.rename r)) :=
  (value hr a.value).bind fun literal scope =>
    congrArg (EStateM.Result.ok ()) (scope.rename_declare r a.name literal).symm

theorem items (hr : Function.Injective r) (items : List Item) :
    Renames r (flattenItems items) (flattenItems (renameItems r items)) := by
  have hcons : ∀ {head : Item} {rest : List Item}, Renames r head.flatten (head.rename r).flatten →
      Renames r (flattenItems rest) (flattenItems (renameItems r rest)) →
      Renames r (flattenItems (head :: rest)) (flattenItems (renameItems r (head :: rest))) :=
    fun hh ht => hh.bind fun _ => ht.bind fun _ => .pure _
  induction items using bodyInduction with
  | nil => exact .pure _
  | declaration d rest ih => exact hcons ((value hr d.value).bind fun _ => .pure _) ih
  | assignment a rest ih => exact hcons ((assign hr a).bind fun _ => .pure _) ih
  | branch condition body alternative fault rest hb ha ih =>
    have helse : Renames r (flattenElse alternative) (flattenElse (renameElse r alternative)) := by
      cases alternative with
      | none => exact .pure _
      | some other => exact ((ha other rfl).map _).inFrame
    refine hcons ((truth hr condition).bind fun chosen => ?_) ih
    cases chosen with
    | true => exact (hb.map _).inFrame.bind fun _ => .pure _
    | false => exact helse.bind fun _ => .pure _

theorem member (hr : Function.Injective r) (member : Member) :
    Renames r member.flatten (member.rename r).flatten := by
  cases member with
  | rule known => exact ((items hr known.body).map _).inFrame.bind fun _ => .pure _
  | assignment a => exact (assign hr a).bind fun _ => .pure _

end Renames

def Flattening.Alike (run other : Flattening) : Prop :=
  (other.failure = none ↔ run.failure = none) ∧
    (run.failure = none → other.sheet = run.sheet)

theorem alike_flattenMembers (hr : Function.Injective r) (scope : Scope Literal)
    (members : List Member) : (flattenMembers scope members).1.Alike
      (flattenMembers (scope.rename r) (members.map (Member.rename r))).1 := by
  induction members generalizing scope with
  | nil => exact ⟨Iff.rfl, fun _ => rfl⟩
  | cons member members ih =>
    have hm := Renames.member hr member
    rw [List.map_cons]
    cases hs : member.flatten scope with
    | ok kept after =>
      obtain ⟨hfailure, hsheet⟩ := ih after
      rw [flattenMembers_of_ok hs, flattenMembers_of_ok (hm.of_ok hs)]
      refine ⟨hfailure, fun h => ?_⟩
      simp only [Flattening.keep, hsheet h]
    | error failure after =>
      obtain ⟨failure', ho⟩ := hm.of_error hs
      rw [flattenMembers, hs, flattenMembers, ho]
      exact ⟨by simp, by simp⟩

end Flatten

/-- Under other names for the variables the checker finds the same, said with these names, and
flattening succeeds just if it has, with the same declarations and so the same text. -/
theorem Sheet.rename_alike {r : String → String} (hr : Function.Injective r) (sheet : Sheet) :
    (sheet.rename r).check = sheet.check.rename r ∧
      ((sheet.rename r).flatten.failure = none ↔ sheet.flatten.failure = none) ∧
      (sheet.flatten.failure = none → (sheet.rename r).flatten.sheet = sheet.flatten.sheet ∧
        ∀ indent, (sheet.rename r).flatten.sheet.css indent = sheet.flatten.sheet.css indent) := by
  obtain ⟨hfailure, hsheet⟩ := alike_flattenMembers hr Scope.empty.push sheet.members
  refine ⟨sheet.check_rename hr, hfailure, fun h => ?_⟩
  have hsame : (sheet.rename r).flatten.sheet = sheet.flatten.sheet := hsheet h
  exact ⟨hsame, fun indent => by rw [hsame]⟩

/-- A colour that is blamed by the name of its variable, which is hidden in one of the rules, and a
variable that is not defined where it is used. -/
theorem Sheet.rename_alike_prefixed :
    let r : String → String := ("My" ++ ·)
    let sum : String → Expr := fun name => .operation .add (.literal (.number .pixel 1))
      (.reference name)
    let width : Expr → Item := fun value => .declaration ⟨"width", value, none⟩
    let sheet : Expr → Sheet := fun value => ⟨[.assignment ⟨"A", .literal (.color "#fafafa")⟩,
      .rule ⟨[.tag "a"], [.assignment ⟨"A", .literal (.number .pixel 2)⟩, width (sum "A")]⟩,
      .rule ⟨[.tag "b"], [width value]⟩]⟩
    Function.Injective r ∧
      (sheet (sum "A")).check.slots.filterMap id =
        [.illegalOperand "A of type COLOR"] ∧
      ((sheet (sum "A")).rename r).check.slots.filterMap id =
        [.illegalOperand "MyA of type COLOR"] ∧
      (sheet (.reference "B")).check.slots.filterMap id = [.undefinedVariable "B"] ∧
      ((sheet (.reference "B")).rename r).check.slots.filterMap id =
        [.undefinedVariable "MyB"] ∧
      ((sheet (.literal (.number .pixel 4))).rename r).flatten.sheet.css 1 =
        "a \x7b\n width: 3px;\n\x7d\n\nb \x7b\n width: 4px;\n\x7d\n" := by
  intro r sum width sheet
  have hr : Function.Injective r := fun _ _ => (String.append_right_inj "My").mp
  refine ⟨hr, by decide, ?_, by decide, ?_, ?_⟩
  · rw [(Sheet.rename_alike hr _).1]
    decide
  · rw [(Sheet.rename_alike hr _).1]
    decide
  · rw [((Sheet.rename_alike hr _).2.2 (by decide)).2]
    decide

end TypedStyle
