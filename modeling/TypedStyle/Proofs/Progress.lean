import TypedStyle.Proofs.Clocked
import TypedStyle.Proofs.Kinds

/-!
Every loop of a reader comes to its end, because each of its turns passes a token and an end of
file stops it. So the fuel never cuts a loop short.
-/

set_option autoImplicit false

namespace TypedStyle

namespace Reader

variable {α β : Type} {reader middle after : Reader} {m n least : Nat}

/-- The second reader is the first one behind some of its tokens, at least so many. -/
def LeadsTo (reader : Reader) (least : Nat) (after : Reader) : Prop :=
  ∃ count, least ≤ count ∧ count ≤ reader.ahead.length ∧ after = reader.passed count

namespace LeadsTo

theorem refl : reader.LeadsTo 0 reader :=
  ⟨0, Nat.le_refl 0, Nat.zero_le _, reader.passed_zero.symm⟩

theorem mono (h : reader.LeadsTo n after) (hm : m ≤ n) : reader.LeadsTo m after := by
  obtain ⟨count, hn, hl, he⟩ := h
  exact ⟨count, Nat.le_trans hm hn, hl, he⟩

theorem trans (h : reader.LeadsTo m middle) (ha : middle.LeadsTo n after) :
    reader.LeadsTo (m + n) after := by
  obtain ⟨count, hm, hc, rfl⟩ := h
  obtain ⟨more, hn, hl, rfl⟩ := ha
  rw [passed, List.length_drop] at hl
  exact ⟨count + more, by omega, by omega, passed_passed ..⟩

theorem grammar (h : reader.LeadsTo n after) : after.grammar = reader.grammar := by
  obtain ⟨count, -, -, rfl⟩ := h
  rfl

theorem length_ahead (h : reader.LeadsTo n after) :
    after.ahead.length + n ≤ reader.ahead.length := by
  obtain ⟨count, hn, hl, rfl⟩ := h
  rw [passed, List.length_drop]
  omega

end LeadsTo

theorem kind_current_of_ahead (h : reader.ahead = []) : reader.current.kind = .eof := by
  rw [current, h]
  exact reader.last_eof

theorem leadsTo_passed : reader.LeadsTo 0 (reader.passed 1) := by
  cases h : reader.ahead with
  | nil =>
    have he : reader.passed 1 = reader.passed 0 := by simp [passed, h]
    rw [he, passed_zero]
    exact .refl
  | cons token rest => exact ⟨1, Nat.zero_le 1, by simp [h], rfl⟩

theorem leadsTo_next (hk : reader.current.kind ≠ .eof) : reader.LeadsTo 1 (reader.passed 1) := by
  have hne : reader.ahead ≠ [] := fun h => hk (kind_current_of_ahead h)
  exact ⟨1, Nat.le_refl 1, List.length_pos_iff.mpr hne, rfl⟩

/-- A run from this reader only passes tokens, and so many of them at least if it succeeds. -/
def Forward (reader : Reader) (least : Nat) : EStateM.Result Failure Reader α → Prop
  | .ok _ after => reader.LeadsTo least after
  | .error _ after => reader.LeadsTo 0 after

namespace Forward

variable {result : EStateM.Result Failure Reader α}

theorem mono (h : reader.Forward n result) (hm : m ≤ n) : reader.Forward m result := by
  cases result with
  | ok value after => exact LeadsTo.mono h hm
  | error failure after => exact h

theorem trans (h : reader.LeadsTo m middle) (hf : middle.Forward n result) :
    reader.Forward (m + n) result := by
  cases result with
  | ok value after => exact LeadsTo.trans h hf
  | error failure after => exact (LeadsTo.trans h hf).mono (Nat.zero_le _)

theorem final (h : reader.Forward least result) : reader.LeadsTo 0 (final result) := by
  cases result with
  | ok value after => exact LeadsTo.mono h (Nat.zero_le least)
  | error failure after => exact h

end Forward

/-- From this reader, the attempt ends if the clock is set high enough, and it ends like the step.
The step only passes tokens, and so many of them at least if it succeeds. -/
structure Settles (attempt : Nat → Attempt α) (step : Read α) (least : Nat) (reader : Reader) :
    Prop where
  ends : ∃ turns, ∀ clock, turns ≤ clock →
    attempt clock reader = some (Attempt.ending (step reader))
  forward : reader.Forward least (step reader)

namespace Settles

variable {attempt fallback : Nat → Attempt α} {step spare : Read α} {next : Nat → α → Attempt β}
  {go : α → Read β}

theorem lift (h : reader.Forward least (step reader)) :
    Settles (fun _ => liftM step) step least reader :=
  ⟨⟨0, fun _ _ => rfl⟩, h⟩

theorem pure (result : α) : Settles (fun _ => Pure.pure result) (Pure.pure result) 0 reader :=
  ⟨⟨0, fun _ _ => rfl⟩, LeadsTo.refl⟩

theorem throw (failure : Failure) :
    Settles (fun _ => (throw failure : Attempt α)) (throw failure) least reader :=
  ⟨⟨0, fun _ _ => rfl⟩, LeadsTo.refl⟩

theorem mono (h : Settles attempt step n reader) (hm : m ≤ n) : Settles attempt step m reader :=
  ⟨h.ends, h.forward.mono hm⟩

theorem tick (h : Settles (fun clock => attempt (clock + 1)) step least reader) :
    Settles attempt step least reader := by
  obtain ⟨⟨turns, hends⟩, hforward⟩ := h
  refine ⟨⟨turns + 1, fun clock hc => ?_⟩, hforward⟩
  obtain ⟨less, rfl⟩ := Nat.exists_eq_add_of_le' (Nat.le_of_add_left_le hc)
  exact hends less (Nat.le_of_succ_le_succ hc)

section Get

variable {next : Nat → Reader → Attempt α} {go : Reader → Read α}

theorem getAttempt (h : Settles (fun clock => next clock reader) step least reader) :
    Settles (fun clock => MonadState.get >>= next clock) step least reader :=
  ⟨h.ends, h.forward⟩

theorem getStep (h : Settles attempt (go reader) least reader) :
    Settles attempt (MonadState.get >>= go) least reader :=
  ⟨h.ends, h.forward⟩

theorem get (h : Settles (fun clock => next clock reader) (go reader) least reader) :
    Settles (fun clock => MonadState.get >>= next clock) (MonadState.get >>= go) least reader :=
  h.getStep.getAttempt

end Get

theorem ite {c : Prop} [Decidable c] (h : c → Settles attempt step least reader)
    (hf : ¬c → Settles fallback spare least reader) :
    Settles (fun clock => if c then attempt clock else fallback clock)
      (if c then step else spare) least reader := by
  by_cases hc : c
  · simp only [if_pos hc]
    exact h hc
  · simp only [if_neg hc]
    exact hf hc

theorem bind (h : Settles attempt step m reader)
    (hn : ∀ x after, reader.LeadsTo m after → Settles (fun clock => next clock x) (go x) n after) :
    Settles (fun clock => attempt clock >>= next clock) (step >>= go) (m + n) reader := by
  obtain ⟨⟨turns, he⟩, hf⟩ := h
  cases hs : step reader with
  | ok x after =>
    rw [hs] at he hf
    have hb : (step >>= go) reader = go x after := Step.bind_of_ok hs
    obtain ⟨⟨more, hends⟩, hforward⟩ := hn x after hf
    rw [← hb] at hends hforward
    -- the higher one of the two clocks is enough for both steps
    refine ⟨⟨max turns more, fun clock hc => ?_⟩, .trans hf hforward⟩
    have hattempt := he clock (Nat.le_trans (Nat.le_max_left ..) hc)
    exact (Attempt.bind_of_ok hattempt).trans (hends clock (Nat.le_trans (Nat.le_max_right ..) hc))
  | error failure after =>
    rw [hs] at he hf
    have hb : (step >>= go) reader = .error failure after := Step.bind_of_error hs
    refine ⟨⟨turns, fun clock hc => ?_⟩, hb ▸ hf⟩
    exact hb ▸ Attempt.bind_of_error (he clock hc)

theorem start (h : Settles attempt step least reader)
    (hn : ∀ x after, reader.LeadsTo least after →
      Settles (fun clock => next clock x) (go x) 0 after) :
    Settles (fun clock => attempt clock >>= next clock) (step >>= go) least reader :=
  h.bind hn

theorem andThen (h : Settles attempt step n reader)
    (hn : ∀ x after, reader.LeadsTo n after →
      Settles (fun clock => next clock x) (go x) 0 after) :
    Settles (fun clock => attempt clock >>= next clock) (step >>= go) 0 reader :=
  (h.start hn).mono (Nat.zero_le n)

theorem later (h : Settles attempt step 0 reader)
    (hn : ∀ x after, reader.LeadsTo 0 after →
      Settles (fun clock => next clock x) (go x) least after) :
    Settles (fun clock => attempt clock >>= next clock) (step >>= go) least reader :=
  (h.bind hn).mono (Nat.le_add_left least 0)

theorem map {change : α → β} (h : Settles attempt step least reader) :
    Settles (fun clock => change <$> attempt clock) (change <$> step) least reader := by
  simp only [map_eq_pure_bind]
  exact h.start fun x _ _ => pure (change x)

end Settles

section Single

variable {kind : Token.Kind}

/-- The current token if it is of this kind, which is then passed. A caller may bring the failure
for any other token. -/
def expectOr (kind : Token.Kind) (failure? : Option Failure) : Read Token := do
  let reader ← get
  if reader.current.kind = kind then advance else throw (failure?.getD reader.unexpected)

theorem expect_eq_expectOr (kind : Token.Kind) : expect kind = expectOr kind none := rfl

theorem expectWith_eq_expectOr (kind : Token.Kind) (message : String) :
    expectWith kind message = (do expectOr kind (some ((← get).unexpectedWith message))) := rfl

theorem expectOr_run (kind : Token.Kind) (failure? : Option Failure) :
    expectOr kind failure? reader =
      if reader.current.kind = kind then .ok reader.current (reader.passed 1)
      else .error (failure?.getD reader.unexpected) reader := by
  rw [expectOr, Step.get_bind]
  by_cases hk : reader.current.kind = kind
  · rw [if_pos hk, if_pos hk, advance_run]
  · rw [if_neg hk, if_neg hk]
    rfl

theorem expectOr_forward (failure? : Option Failure)
    (h : reader.current.kind = kind → reader.LeadsTo least (reader.passed 1)) :
    reader.Forward least (expectOr kind failure? reader) := by
  rw [expectOr_run]
  by_cases hk : reader.current.kind = kind
  · rw [if_pos hk]
    exact h hk
  · rw [if_neg hk]
    exact LeadsTo.refl

theorem eq_of_expectOr_error {failure? : Option Failure} {failure : Failure} {stuck : Reader}
    (h : expectOr kind failure? reader = .error failure stuck) : stuck = reader := by
  rw [expectOr_run] at h
  by_cases hk : reader.current.kind = kind
  · rw [if_pos hk] at h
    cases h
  · rw [if_neg hk] at h
    cases h
    rfl

theorem advance_forward : reader.Forward 0 (advance reader) := by
  rw [advance_run]
  exact leadsTo_passed

theorem expect_forward : reader.Forward 0 (expect kind reader) := by
  rw [expect_eq_expectOr]
  exact expectOr_forward none fun _ => leadsTo_passed

theorem expect_forward_one (hk : kind ≠ .eof) : reader.Forward 1 (expect kind reader) := by
  rw [expect_eq_expectOr]
  exact expectOr_forward none fun h => leadsTo_next (h ▸ hk)

theorem expectWith_forward {message : String} :
    reader.Forward 0 (expectWith kind message reader) := by
  rw [expectWith_eq_expectOr, Step.get_bind]
  exact expectOr_forward _ fun _ => leadsTo_passed

theorem operand_forward : reader.Forward 1 (operand reader) := by
  cases hm : reader.current.kind.measure? with
  | some measure =>
    have hk : reader.current.kind ≠ .eof := fun he => by rw [he] at hm; cases hm
    rw [operand_of_measure hm]
    cases number? measure reader.current.value with
    | some value => exact leadsTo_next hk
    | none => exact LeadsTo.refl
  | none =>
    have ho := operand_of_other hm
    cases hop : Grammar.standard.isOperand reader.current.kind with
    | true =>
      have hk : reader.current.kind ≠ .eof := fun he => by rw [he] at hop; cases hop
      rw [hop, if_pos rfl] at ho
      obtain ⟨e, he⟩ := ho
      rw [he]
      exact leadsTo_next hk
    | false =>
      rw [hop, if_neg nofun] at ho
      rw [ho]
      exact LeadsTo.refl

theorem leading_forward : reader.Forward 1 (leading reader) := by
  show reader.Forward 1 ((if reader.grammar.isOperand reader.current.kind then operand
    else throw (reader.unexpectedWith "expected a literal or variable")) reader)
  by_cases ho : reader.grammar.isOperand reader.current.kind
  · rw [if_pos ho]
    exact operand_forward
  · rw [if_neg ho]
    exact LeadsTo.refl

theorem operator_forward : reader.Forward 0 (operator reader) := by
  rw [operator, Step.bind_of_ok (advance_run reader)]
  cases reader.current.kind <;> exact leadsTo_passed

theorem selector_forward : reader.Forward 1 (selector reader) := by
  have hread {s : Selector} (h : Phrase.Selector reader.current s) :
      reader.Forward 1 (selector reader) := by
    rw [selector_run h]
    exact leadsTo_next h.kind_ne_eof
  cases hk : reader.current.kind with
  | lowerName => exact hread (.tag hk)
  | className => exact hread (.className hk)
  | idName => exact hread (.idName hk)
  | color => exact hread (.color hk)
  | _ =>
    rw [selector, Step.get_bind]
    simp only [hk]
    exact LeadsTo.refl

theorem optionalComma_forward : reader.Forward 0 (optionalComma reader) := by
  rw [optionalComma, Step.get_bind]
  by_cases hk : reader.current.kind = .comma
  · rw [if_pos hk, Step.bind_of_ok (advance_run reader)]
    exact leadsTo_passed
  · rw [if_neg hk]
    exact LeadsTo.refl

end Single

/-- There is fuel for all tokens before the last one, which extends no expression. -/
structure Ready (fuel : Nat) (reader : Reader) : Prop where
  loose : reader.grammar.power? .eof = none
  length_le : reader.ahead.length ≤ fuel

namespace Ready

variable {fuel limit : Nat}

theorem ofBudget (h : reader.Ready fuel) : reader.Ready reader.budget :=
  ⟨h.loose, reader.length_ahead_le⟩

theorem mono (h : reader.Ready fuel) (hl : fuel ≤ limit) : reader.Ready limit :=
  ⟨h.loose, Nat.le_trans h.length_le hl⟩

theorem leadsTo (h : reader.Ready fuel) (hr : reader.LeadsTo least after) :
    after.Ready (fuel - least) := by
  have hl := hr.length_ahead
  have hf := h.length_le
  exact ⟨hr.grammar ▸ h.loose, by omega⟩

theorem kind_current (h : reader.Ready 0) : reader.current.kind = .eof :=
  kind_current_of_ahead (List.length_eq_zero_iff.mp (Nat.le_zero.mp h.length_le))

theorem hasTokens_eq_false (h : reader.Ready 0) : reader.hasTokens = false := by
  rw [hasTokens, h.kind_current]
  rfl

end Ready

section Expressions

variable {fuel : Nat} {floor : Power}

def operationWithin (fuel : Fuel) (left : Expr) (power : Power) : Read Expr := do
  let op ← operator
  let right ← climb power fuel
  return .operation op left right

/-- A right side has passed its first operand, so less fuel is enough for the rest of it. -/
theorem operationWithin_settles (left : Expr) (power : Power)
    (hx : ∀ {right : Expr} {reader : Reader}, reader.Ready fuel →
      Settles (Clocked.extend · power right) (extend fuel power right) 0 reader)
    (h : reader.Ready (fuel + 1)) :
    Settles (Clocked.operation · left power) (operationWithin ⟨fuel, fuel⟩ left power) 1
      reader := by
  refine .tick ?_
  simp only [Clocked.operation, operationWithin]
  refine .later (.lift operator_forward) fun op middle hop => .start ?_ fun right _ _ => .pure _
  refine .tick ?_
  simp only [Clocked.expression, climb]
  exact .start (.lift leading_forward) fun right after hr => hx ((h.leadsTo hop).leadsTo hr)

theorem extend_settles (left : Expr) (h : reader.Ready fuel) :
    Settles (Clocked.extend · floor left) (extend fuel floor left) 0 reader := by
  induction fuel generalizing floor left reader with
  | zero =>
    refine .tick ?_
    simp only [Clocked.extend, extend]
    refine .getAttempt ?_
    simp only [h.kind_current, h.loose]
    exact .pure left
  | succ fuel ih =>
    refine .tick ?_
    simp only [Clocked.extend, extend]
    refine .get ?_
    cases reader.grammar.power? reader.current.kind with
    | none => exact .pure left
    | some power =>
      refine .ite (fun _ => .pure left) fun _ => .ite (fun _ => .throw _) fun _ => ?_
      have hturn : (do
          let op ← operator
          let right ← leading
          let right ← extend fuel power right
          extend fuel floor (.operation op left right) : Read Expr) =
            operationWithin ⟨fuel, fuel⟩ left power >>= extend fuel floor := by
        simp only [operationWithin, climb, bind_assoc, pure_bind]
      rw [hturn]
      have hoperation := operationWithin_settles left power (fun hr => ih _ hr) h
      exact .andThen hoperation fun left after hr => ih left (h.leadsTo hr)

theorem expression_settles (floor : Power) (h : reader.Ready fuel) :
    Settles (Clocked.expression · floor) (expression floor) 1 reader := by
  refine .tick ?_
  simp only [Clocked.expression, expression]
  refine .start (.lift leading_forward) fun left after hr => .getStep ?_
  exact extend_settles left (h.leadsTo hr).ofBudget

theorem operation_settles (left : Expr) (power : Power) (h : reader.Ready fuel) :
    Settles (Clocked.operation · left power) (operation left power) 1 reader := by
  refine .tick ?_
  simp only [Clocked.operation, operation]
  refine .later (.lift operator_forward) fun op middle hop => ?_
  exact .start (expression_settles power (h.leadsTo hop)) fun right _ _ => .pure _

theorem framed_settles {first second third : Read Token} {finish : Token → Expr → α}
    (h₁ : ∀ reader : Reader, reader.Forward 1 (first reader))
    (h₂ : ∀ reader : Reader, reader.Forward 0 (second reader))
    (h₃ : ∀ reader : Reader, reader.Forward 0 (third reader)) (h : reader.Ready fuel) :
    Settles (Clocked.framed first second third finish) (framed first second third finish) 1
      reader := by
  rw [framed]
  refine .start (.lift (h₁ _)) fun token middle hf => .start (.lift (h₂ _)) fun _ _ hs => ?_
  have hvalue := expression_settles .base ((h.leadsTo hf).leadsTo hs)
  refine .andThen hvalue fun value _ _ => ?_
  exact .start (.lift (h₃ _)) fun _ _ _ => .pure (finish token value)

theorem declaration_settles (h : reader.Ready fuel) :
    Settles Clocked.declaration declaration 1 reader :=
  framed_settles (fun _ => expect_forward_one (by decide)) (fun _ => expectWith_forward)
    (fun _ => expect_forward) h

theorem assignment_settles (h : reader.Ready fuel) :
    Settles Clocked.assignment assignment 1 reader :=
  framed_settles (fun _ => expect_forward_one (by decide)) (fun _ => expectWith_forward)
    (fun _ => expect_forward) h

end Expressions

section Items

variable {fuel limit : Nat} {block : Read (List Item)} {one : Read Item}

def BlocksSettle (fuel : Nat) (block : Read (List Item)) : Prop :=
  ∀ ⦃reader : Reader⦄, reader.Ready fuel → Settles Clocked.block block 1 reader

theorem branchOf_settles (hb : BlocksSettle fuel block) (h : reader.Ready fuel) :
    Settles Clocked.branch (branchOf block) 1 reader := by
  refine .tick ?_
  simp only [Clocked.branch, branchOf_eq, otherwise]
  refine .start (framed_settles (fun _ => expect_forward_one (by decide))
    (fun _ => expectWith_forward) (fun _ => expectWith_forward) h) fun condition middle hc => ?_
  have hm := (h.leadsTo hc).mono (Nat.sub_le fuel 1)
  refine .andThen (hb hm) fun body after hr => ?_
  refine .get (.ite (fun _ => ?_) fun _ => .pure _)
  refine .start (.lift advance_forward) fun _ last hl => ?_
  have hlast := ((hm.leadsTo hr).leadsTo hl).mono (Nat.sub_le fuel 1)
  exact .andThen (hb hlast) fun alternative _ _ => .pure _

theorem itemOf_settles (hb : BlocksSettle fuel block) (h : reader.Ready fuel) :
    Settles Clocked.item (itemOf block) 1 reader := by
  refine .tick ?_
  simp only [Clocked.item, itemOf]
  refine .get ?_
  cases reader.grammar.form? reader.current.kind with
  | none => exact .throw _
  | some form =>
    cases form with
    | declaration => exact (declaration_settles h).map
    | assignment => exact (assignment_settles h).map
    | branch => exact branchOf_settles hb h

theorem itemsOf_settles
    (hx : ∀ ⦃reader : Reader⦄, reader.Ready limit → Settles Clocked.item one 1 reader)
    (hl : fuel ≤ limit) (h : reader.Ready fuel) :
    Settles Clocked.items (itemsOf one fuel) 0 reader := by
  induction fuel generalizing reader with
  | zero =>
    refine .tick ?_
    simp only [Clocked.items, itemsOf]
    refine .getAttempt ?_
    rw [h.hasTokens_eq_false]
    exact .pure []
  | succ fuel ih =>
    refine .tick ?_
    simp only [Clocked.items, itemsOf]
    refine .get (.ite (fun _ => ?_) fun _ => .pure [])
    refine .andThen (hx (h.mono hl)) fun first after hr => ?_
    exact .start (ih (Nat.le_of_succ_le hl) (h.leadsTo hr)) fun rest _ _ => .pure (first :: rest)

theorem blockWithin_settles (fuel : Nat) : BlocksSettle fuel (blockWithin fuel) := by
  induction fuel with
  | zero =>
    intro reader h
    refine .tick ?_
    simp only [Clocked.block, blockWithin, braced]
    -- behind an opening brace there would be a token less than none
    refine .start (.lift (expect_forward_one (by decide))) fun _ middle hm => ?_
    have hlength := hm.length_ahead
    have hnone := h.length_le
    omega
  | succ fuel ih =>
    intro reader h
    refine .tick ?_
    simp only [Clocked.block, blockWithin, braced]
    refine .start (.lift (expect_forward_one (by decide))) fun _ middle hm => ?_
    have hitems := itemsOf_settles (fun _ => itemOf_settles ih) (Nat.le_refl fuel) (h.leadsTo hm)
    exact .start hitems fun body _ _ => .start (.lift expect_forward) fun _ _ _ => .pure body

theorem block_settles (fuel : Nat) : BlocksSettle fuel Reader.block :=
  fun reader h => .getStep (blockWithin_settles reader.budget h.ofBudget)

theorem branch_settles (h : reader.Ready fuel) : Settles Clocked.branch branch 1 reader :=
  branchOf_settles (block_settles fuel) h

theorem item_settles (h : reader.Ready fuel) : Settles Clocked.item item 1 reader :=
  itemOf_settles (block_settles fuel) h

end Items

section Rules

variable {fuel : Nat}

/-- One turn more than there are tokens before the last one is of use, since the selector that is
missing in front of the last one is noticed in a turn as well. -/
theorem furtherSelectors_settles (h : reader.ahead.length < fuel) :
    Settles Clocked.furtherSelectors (furtherSelectors fuel) 0 reader := by
  induction fuel generalizing reader with
  | zero => exact absurd h (Nat.not_lt_zero _)
  | succ fuel ih =>
    refine .tick ?_
    simp only [Clocked.furtherSelectors, furtherSelectors]
    refine .get (.ite (fun _ => .pure []) fun _ => ?_)
    refine .start (.lift optionalComma_forward) fun _ middle hc => ?_
    refine .andThen (.lift selector_forward) fun first after hs => ?_
    have hlength := (hc.trans hs).length_ahead
    exact .start (ih (by omega)) fun rest _ _ => .pure (first :: rest)

theorem rule_settles (h : reader.Ready fuel) : Settles Clocked.rule rule 1 reader := by
  rw [rule]
  refine .start (.lift selector_forward) fun first middle hs => .getStep ?_
  have hlength := Nat.lt_succ_of_le middle.length_ahead_le
  refine .start (furtherSelectors_settles hlength) fun rest after hr => ?_
  have hblock := block_settles _ ((h.leadsTo hs).leadsTo hr)
  exact .andThen hblock fun body _ _ => .pure _

theorem member_settles (h : reader.Ready fuel) : Settles Clocked.member member 1 reader :=
  .get (.ite (fun _ => (assignment_settles h).map) fun _ => (rule_settles h).map)

theorem membersWithin_settles (h : reader.Ready fuel) :
    Settles Clocked.members (membersWithin fuel) 0 reader := by
  induction fuel generalizing reader with
  | zero =>
    refine .tick ?_
    simp only [Clocked.members, membersWithin]
    refine .getAttempt ?_
    rw [h.hasTokens_eq_false]
    exact .pure []
  | succ fuel ih =>
    refine .tick ?_
    simp only [Clocked.members, membersWithin]
    refine .get (.ite (fun _ => ?_) fun _ => .pure [])
    refine .andThen (member_settles h) fun first after hr => ?_
    exact .start (ih (h.leadsTo hr)) fun rest _ _ => .pure (first :: rest)

theorem sheet_settles (h : reader.Ready fuel) : Settles Clocked.sheet sheet 0 reader :=
  .getStep (.start (membersWithin_settles h.ofBudget) fun members _ _ => .pure (Sheet.mk members))

end Rules

theorem ready_ofTokens (tokens : List Token) (file : String) (grammar : Grammar)
    (hg : grammar.power? .eof = none) :
    (ofTokens tokens file grammar).Ready (ofTokens tokens file grammar).budget :=
  ⟨(grammar_ofTokens tokens file grammar).symm ▸ hg, length_ahead_le _⟩

end Reader

/-- With enough turns the clock gives what the fuel gives, so no sheet is cut short. -/
theorem Sheet.ofTokens_clocked (tokens : List Token) (file : String) :
    ∃ turns, ∀ clock, turns ≤ clock →
      (Reader.Clocked.sheet clock (Reader.ofTokens tokens file)).map Prod.fst =
        some (Sheet.ofTokens tokens file) := by
  have hready := Reader.ready_ofTokens tokens file .standard rfl
  obtain ⟨turns, hends⟩ := (Reader.sheet_settles hready).ends
  refine ⟨turns, fun clock hc => ?_⟩
  rw [hends clock hc, Sheet.ofTokens]
  cases Reader.sheet (Reader.ofTokens tokens file) <;> rfl

end TypedStyle
