import TypedStyle.Proofs.Step
import TypedStyle.Proofs.Stream

/-!
What a reader does as a matter of the tokens alone. A run is described by the tokens that it passes
and the one at which it ends; what follows that token has no part in it, and neither has the fuel of
the loops.
-/

set_option autoImplicit false

namespace TypedStyle

def Cause.token? : Cause → Option String
  | .unrecognisedToken token => some token
  | .unexpectedToken token => some token
  | .unexpectedTokenDetailed token _ => some token
  | .numberParseError token => some token
  | .unresolvedExpression _ => none
  | .nonBooleanCondition _ => none

/-- The failure is about this token and stands where the token starts. -/
def Failure.Names (failure : Failure) (token : Token) : Prop :=
  failure.cause.token? = some token.value ∧ failure.position = some token.span.start

namespace Reader

variable {α β : Type}

def ended (reader : Reader) : Except Failure α → EStateM.Result Failure Reader α
  | .ok result => .ok result reader
  | .error failure => .error failure reader

/-- The step ends in this way behind the first tokens and in front of the next one. It does so with
any fuel that is enough, and whatever follows. -/
def Ends (step : Fuel → Read α) (front : List Token) (token : Token) (result : Except Failure α) :
    Prop :=
  ∀ ⦃reader : Reader⦄ ⦃fuel : Fuel⦄ ⦃rest : List Token⦄,
    reader.Before fuel (front ++ token :: rest) →
      step fuel reader = (reader.passed front.length).ended result

abbrev Reads (step : Fuel → Read α) (front : List Token) (token : Token) (result : α) : Prop :=
  Ends step front token (.ok result)

abbrev Blames (step : Fuel → Read α) (front : List Token) (token : Token) (failure : Failure) :
    Prop :=
  Ends step front token (.error failure)

section Steps

variable {step : Fuel → Read α} {next : α → Fuel → Read β} {front more : List Token}
  {token stop : Token} {result : α} {failure : Failure}

theorem Ends.pure : Reads (fun _ => Pure.pure result) [] token result := by
  intro reader fuel rest hb
  rfl

/-- The token in front of which the first step ends starts what the second one passes. -/
theorem Ends.bind {final : Except Failure β} (h : Reads step front token result)
    (hn : Ends (next result) more stop final) (ht : (more ++ [stop]).head? = some token) :
    Ends (fun fuel => step fuel >>= fun result => next result fuel) (front ++ more) stop final := by
  intro reader fuel rest hb
  obtain ⟨others, hs⟩ := exists_eq_cons_of_head? ht rest
  rw [List.append_assoc, hs] at hb
  have hf := hn (hs ▸ hb.passed)
  rw [passed_passed] at hf
  rw [List.length_append]
  exact (Step.bind_of_ok (h hb)).trans hf

theorem Ends.andThen {final : Except Failure β} (h : ∀ token, Reads step front token result)
    (hn : Ends (next result) more stop final) :
    Ends (fun fuel => step fuel >>= fun result => next result fuel) (front ++ more) stop final := by
  have hne : more ++ [stop] ≠ [] := by simp
  obtain ⟨token, _, he⟩ := List.exists_cons_of_ne_nil hne
  exact (h token).bind hn (by rw [he]; rfl)

theorem Ends.bind_error (h : Blames step front token failure) :
    Blames (fun fuel => step fuel >>= fun result => next result fuel) front token failure := by
  intro reader fuel rest hb
  exact Step.bind_of_error (h hb)

theorem Ends.map {change : α → β} (h : Reads step front token result) :
    Reads (fun fuel => change <$> step fuel) front token (change result) := by
  intro reader fuel rest hb
  exact Step.map_of_ok (h hb)

theorem Ends.map_error {change : α → β} (h : Blames step front token failure) :
    Blames (fun fuel => change <$> step fuel) front token failure := by
  intro reader fuel rest hb
  exact Step.map_of_error (h hb)

theorem Ends.congr {final : Except Failure α} (other : Fuel → Read α)
    (h : Ends other front stop final) (ht : (front ++ [stop]).head? = some token)
    (he : ∀ ⦃reader fuel rest⦄, reader.Before fuel (token :: rest) →
      step fuel reader = other fuel reader) : Ends step front stop final := by
  intro reader fuel rest hb
  obtain ⟨others, hs⟩ := exists_eq_cons_of_head? ht rest
  exact (he (hs ▸ hb)).trans (h hb)

end Steps

/-- The two ways in which a step ends on these tokens. Either it has passed a phrase, or it stops
at the first token that no phrase has there, and names that token. -/
inductive Outcome (step : Fuel → Read α) (phrase : List Token → Token → α → Prop)
    (tokens : List Token) : Prop
  | read {front rest : List Token} {token : Token} {result : α} :
      tokens = front ++ token :: rest → Reads step front token result →
      phrase front token result → Outcome step phrase tokens
  | blame {front rest more : List Token} {token stop : Token} {result : α} {failure : Failure} :
      tokens = front ++ token :: rest → Blames step front token failure → failure.Names token →
      phrase (front ++ more) stop result → Outcome step phrase tokens

namespace Outcome

variable {step : Fuel → Read α} {next : α → Fuel → Read β}
  {phrase : List Token → Token → α → Prop} {whole : List Token → Token → β → Prop}
  {tokens : List Token}

theorem bind (hc : Closed tokens) (h : Outcome step phrase tokens)
    (hn : ∀ {front rest token result}, front.length + (token :: rest).length = tokens.length →
      Closed (token :: rest) → phrase front token result →
      Outcome (next result) (fun more => whole (front ++ more)) (token :: rest))
    (hw : ∀ {front token result}, phrase front token result →
      ∃ more stop final, whole (front ++ more) stop final) :
    Outcome (fun fuel => step fuel >>= fun result => next result fuel) whole tokens := by
  cases h with
  | @blame front rest more token stop result failure hs hb hf hp =>
    obtain ⟨others, stop, final, hw⟩ := hw hp
    rw [List.append_assoc] at hw
    exact .blame hs hb.bind_error hf hw
  | @read front rest token result hs hr hp =>
    have hl : front.length + (token :: rest).length = tokens.length := by
      rw [hs, List.length_append]
    cases hn hl (hs ▸ hc).of_append hp with
    | @read inner others stop final hi hri hpi =>
      have ht : tokens = (front ++ inner) ++ stop :: others := by rw [hs, hi, List.append_assoc]
      exact .read ht (hr.bind hri (head?_of_eq_append hi)) hpi
    | @blame inner others more stop last final failure hi hbi hf hpi =>
      have ht : tokens = (front ++ inner) ++ stop :: others := by rw [hs, hi, List.append_assoc]
      exact .blame ht (hr.bind hbi (head?_of_eq_append hi)) hf (List.append_assoc _ _ _ ▸ hpi)

theorem congr (other : Fuel → Read α) {token : Token} {rest : List Token}
    (h : Outcome other phrase (token :: rest))
    (he : ∀ ⦃reader fuel rest⦄, reader.Before fuel (token :: rest) →
      step fuel reader = other fuel reader) : Outcome step phrase (token :: rest) := by
  cases h with
  | read hs hr hp => exact .read hs (hr.congr other (head?_of_eq_append hs) he) hp
  | blame hs hb hf hp => exact .blame hs (hb.congr other (head?_of_eq_append hs) he) hf hp

theorem pure {result : α} (hc : Closed tokens) (h : ∀ token, phrase [] token result) :
    Outcome (fun _ => Pure.pure result) phrase tokens := by
  obtain ⟨token, rest, rfl⟩ := hc.exists_cons
  exact .read rfl .pure (h token)

theorem map {change : α → β} (h : Outcome step phrase tokens)
    (hw : ∀ {front token result}, phrase front token result → whole front token (change result)) :
    Outcome (fun fuel => change <$> step fuel) whole tokens := by
  cases h with
  | read hs hr hp => exact .read hs hr.map (hw hp)
  | blame hs hb hf hp => exact .blame hs hb.map_error hf (hw hp)

theorem mono {other : List Token → Token → α → Prop} (h : Outcome step phrase tokens)
    (hw : ∀ {front token result}, phrase front token result → other front token result) :
    Outcome step other tokens := by
  cases h with
  | read hs hr hp => exact .read hs hr (hw hp)
  | blame hs hb hf hp => exact .blame hs hb hf (hw hp)

theorem blame_first {token : Token} (stop : Token) {front rest : List Token} {result : α}
    {failure : Failure} (hb : Blames step [] token failure) (hf : failure.Names token)
    (hp : phrase front stop result) : Outcome step phrase (token :: rest) :=
  .blame rfl hb hf hp

theorem single {accepts : Token → α → Prop} (hc : Closed tokens)
    (hi : ∀ token result, accepts token result → token.kind ≠ .eof)
    (hr : ∀ token result next, accepts token result → Reads step [token] next result)
    (hb : ∀ token, (∃ result, accepts token result) ∨
      ∃ failure, Blames step [] token failure ∧ failure.Names token)
    (hw : ∃ token result, accepts token result) :
    Outcome step (fun front _ result => ∃ token, front = [token] ∧ accepts token result)
      tokens := by
  obtain ⟨token, rest, rfl⟩ := hc.exists_cons
  cases hb token with
  | inl h =>
    obtain ⟨result, ha⟩ := h
    obtain ⟨next, more, rfl⟩ := hc.exists_next (hi token result ha)
    exact .read rfl (hr token result next ha) ⟨token, rfl, ha⟩
  | inr h =>
    obtain ⟨failure, hb, hf⟩ := h
    obtain ⟨other, result, ha⟩ := hw
    have hp : ∃ token, [other] = [token] ∧ accepts token result := ⟨other, rfl, ha⟩
    exact blame_first other hb hf hp

end Outcome

def Passes (token : Token) (step inner : Fuel → Read α) : Prop :=
  ∀ ⦃reader : Reader⦄ ⦃fuel : Fuel⦄ ⦃next : Token⦄ ⦃rest : List Token⦄,
    reader.Before fuel (token :: next :: rest) →
      ∃ less : Fuel, (reader.passed 1).Before less (next :: rest) ∧
        step fuel reader = inner less (reader.passed 1)

namespace Passes

variable {step inner : Fuel → Read α} {front tokens : List Token} {token stop : Token}
  {result : Except Failure α} {phrase : List Token → Token → α → Prop}

theorem ends (hp : Passes token step inner) (h : Ends inner front stop result) :
    Ends step (token :: front) stop result := by
  intro reader fuel rest hb
  obtain ⟨next, more, hs⟩ : ∃ next more, front ++ stop :: rest = next :: more := by
    cases front <;> simp
  rw [List.cons_append, hs] at hb
  obtain ⟨less, hl, he⟩ := hp hb
  have hr := h (hs ▸ hl)
  rw [passed_passed] at hr
  rw [List.length_cons, Nat.add_comm]
  exact he.trans hr

theorem outcome (hp : Passes token step inner)
    (h : Outcome inner (fun front => phrase (token :: front)) tokens) :
    Outcome step phrase (token :: tokens) := by
  cases h with
  | read hs hr h => exact .read (congrArg _ hs) (hp.ends hr) h
  | blame hs hb hf h => exact .blame (congrArg _ hs) (hp.ends hb) hf h

end Passes

def Budgeted (step : Read α) (inner : Fuel → Read α) : Prop :=
  ∀ ⦃reader : Reader⦄, reader.grammar = .standard →
    step reader = inner ⟨reader.budget, reader.budget⟩ reader

namespace Budgeted

variable {step : Read α} {inner : Fuel → Read α} {front tokens : List Token} {token : Token}
  {result : Except Failure α} {phrase : List Token → Token → α → Prop}

theorem ends (hs : Budgeted step inner) (h : Ends inner front token result) :
    Ends (fun _ => step) front token result := by
  intro reader fuel rest hb
  have hl := reader.length_ahead_le
  exact (hs hb.grammar).trans (h ⟨hb.grammar, hl, hl, hb.stream⟩)

theorem outcome (hs : Budgeted step inner) (h : Outcome inner phrase tokens) :
    Outcome (fun _ => step) phrase tokens := by
  cases h with
  | read ht hr hp => exact .read ht (hs.ends hr) hp
  | blame ht hb hf hp => exact .blame ht (hs.ends hb) hf hp

end Budgeted

structure Expects (kind : Token.Kind) (step : Read Token) : Prop where
  reads : ∀ {token next : Token}, token.kind = kind → Reads (fun _ => step) [token] next token
  blames : ∀ {token : Token}, token.kind ≠ kind →
    ∃ failure, Blames (fun _ => step) [] token failure ∧ failure.Names token

namespace Expects

variable {kind : Token.Kind}

theorem of_fault (fault : Token → Failure) (hf : ∀ token, (fault token).Names token) :
    Expects kind (do
      let reader ← get
      if reader.current.kind = kind then advance else throw (fault reader.current)) := by
  constructor
  · intro token next h reader fuel rest hb
    show (if reader.current.kind = kind then advance else throw (fault reader.current)) reader = _
    rw [hb.current, if_pos h, advance_run, hb.current]
    rfl
  · intro token h
    refine ⟨fault token, ?_, hf token⟩
    intro reader fuel rest hb
    show (if reader.current.kind = kind then advance else throw (fault reader.current)) reader = _
    rw [hb.current, if_neg h]
    rfl

theorem plain : Expects kind (expect kind) :=
  of_fault (fun token => ⟨.unexpectedToken token.value, some token.span.start⟩)
    fun _ => ⟨rfl, rfl⟩

theorem detailed {message : String} : Expects kind (expectWith kind message) :=
  of_fault
    (fun token => ⟨.unexpectedTokenDetailed token.value message, some token.span.start⟩)
    fun _ => ⟨rfl, rfl⟩

theorem outcome {step : Read Token} {tokens : List Token} (h : Expects kind step)
    (hk : kind ≠ .eof) (hc : Closed tokens) :
    Outcome (fun _ => step)
      (fun front _ result => ∃ token, front = [token] ∧ result = token ∧ token.kind = kind)
      tokens := by
  refine .single hc ?_ ?_ ?_ ⟨.blank kind, .blank kind, rfl, rfl⟩
  · intro token result ha
    exact ha.2 ▸ hk
  · intro token result next ha
    rw [ha.1]
    exact h.reads ha.2
  · intro token
    by_cases ha : token.kind = kind
    · exact .inl ⟨token, rfl, ha⟩
    · exact .inr (h.blames ha)

theorem bind {β : Type} {step : Read Token} {next : Token → Fuel → Read β}
    {whole : List Token → Token → β → Prop} {tokens : List Token} (h : Expects kind step)
    (hk : kind ≠ .eof) (hc : Closed tokens)
    (hn : ∀ {token rest}, token.kind = kind → Closed rest → rest.length < tokens.length →
      Outcome (next token) (fun more => whole (token :: more)) rest)
    (hw : ∀ {token}, token.kind = kind → ∃ more stop final, whole (token :: more) stop final) :
    Outcome (fun fuel => step >>= fun token => next token fuel) whole tokens := by
  refine .bind hc (h.outcome hk hc) ?_ ?_
  · intro front rest token result hl hc hp
    obtain ⟨first, hf, hr, hfirst⟩ := hp
    subst hf hr
    rw [List.length_singleton] at hl
    exact hn hfirst hc (by omega)
  · intro front token result hp
    obtain ⟨first, hf, _, hfirst⟩ := hp
    exact hf ▸ hw hfirst

end Expects

end Reader

end TypedStyle
