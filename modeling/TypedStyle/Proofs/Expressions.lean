import TypedStyle.Proofs.Phrase
import TypedStyle.Proofs.Reading

/-!
How expressions are read: at each floor, just the operations that bind tighter than it, of which the
left one of two equally tight ones is the inner one.
-/

set_option autoImplicit false

namespace TypedStyle

namespace Operator

def power (op : Operator) : Reader.Power :=
  match op with
  | .add | .subtract => .additive
  | .multiply => .multiplicative

theorem power_rank (op : Operator) : op.power.rank = op.rank + 1 := by
  cases op <;> rfl

theorem operator?_kind (op : Operator) :
    Reader.Grammar.standard.operator? op.kind = some op.power := by
  cases op <;> rfl

theorem power?_kind (op : Operator) :
    Reader.Grammar.standard.power? op.kind = some op.power := by
  cases op <;> rfl

theorem exists_kind_of_operator? {kind : Token.Kind} {power : Reader.Power}
    (h : Reader.Grammar.standard.operator? kind = some power) :
    ∃ op : Operator, kind = op.kind := by
  cases kind with
  | plus => exact ⟨.add, rfl⟩
  | minus => exact ⟨.subtract, rfl⟩
  | times => exact ⟨.multiply, rfl⟩
  | _ => simp [Reader.Grammar.standard] at h

end Operator

namespace Reader

variable {token next : Token} {e : Expr}

theorem operand_run {reader : Reader} (h : Phrase.Operand reader.current e) :
    operand reader = .ok e (reader.passed 1) := by
  have hp : (advance >>= fun _ => pure e : Read Expr) reader = .ok e (reader.passed 1) :=
    Step.bind_of_ok (advance_run reader)
  rw [operand, Step.get_bind]
  cases h with
  | @number measure value hk hs =>
    have hn : number measure reader.current = pure (.literal (.number measure value)) := by
      rw [number, number?_eq_some_iff.mpr hs]
    cases measure <;> (simp only [hk, Measure.kind, hn]; exact hp)
  | color hk | yes hk | no hk | reference hk => simp only [hk]; exact hp

theorem isOperand_of_operand (h : Phrase.Operand token e) :
    Grammar.standard.isOperand token.kind = true := by
  cases h with
  | @number measure _ hk => cases measure <;> (rw [hk]; rfl)
  | color hk | yes hk | no hk | reference hk => rw [hk]; rfl

theorem operand_or_measure (h : Grammar.standard.isOperand token.kind = true) :
    (∃ e, Phrase.Operand token e) ∨ ∃ measure : Measure, token.kind = measure.kind := by
  cases hk : token.kind with
  | pixelSize => exact .inr ⟨.pixel, rfl⟩
  | percentage => exact .inr ⟨.percentage, rfl⟩
  | scalar => exact .inr ⟨.scalar, rfl⟩
  | color => exact .inl ⟨_, .color hk⟩
  | trueWord => exact .inl ⟨_, .yes hk⟩
  | falseWord => exact .inl ⟨_, .no hk⟩
  | capitalName => exact .inl ⟨_, .reference hk⟩
  | _ => rw [hk] at h; cases h

theorem leading_eq {reader : Reader} (hg : reader.grammar = .standard)
    (h : Grammar.standard.isOperand reader.current.kind = true) :
    leading reader = operand reader := by
  show (if reader.grammar.isOperand reader.current.kind then operand
    else throw (reader.unexpectedWith "expected a literal or variable")) reader = _
  rw [hg, if_pos h]

theorem leading_reads (h : Phrase.Operand token e) : Reads (fun _ => leading) [token] next e := by
  intro reader fuel rest hb
  have hc := hb.current
  subst hc
  exact (leading_eq hb.grammar (isOperand_of_operand h)).trans (operand_run h)

theorem leading_blames (h : Grammar.standard.isOperand token.kind = false) :
    Blames (fun _ => leading) [] token
      ⟨.unexpectedTokenDetailed token.value "expected a literal or variable",
        some token.span.start⟩ := by
  intro reader fuel rest hb
  show (if reader.grammar.isOperand reader.current.kind then operand
    else throw (reader.unexpectedWith "expected a literal or variable")) reader = _
  rw [unexpectedWith, hb.current, hb.grammar, h]
  rfl

theorem leading_blames_number {measure : Measure} (hk : token.kind = measure.kind)
    (hn : number? measure token.value = none) :
    Blames (fun _ => leading) [] token
      ⟨.numberParseError token.value, some token.span.start⟩ := by
  intro reader fuel rest hb
  have hc := hb.current
  subst hc
  have ho : Grammar.standard.isOperand reader.current.kind = true := by
    rw [hk]; cases measure <;> rfl
  have hf : number measure reader.current =
      throw ⟨.numberParseError reader.current.value, some reader.current.span.start⟩ := by
    rw [number, hn]
  refine (leading_eq hb.grammar ho).trans ?_
  rw [operand, Step.get_bind]
  cases measure <;> (simp only [hk, Measure.kind, hf]; rfl)

theorem leading_total (token : Token) : (∃ e, Phrase.Operand token e) ∨
    ∃ failure, Blames (fun _ => leading) [] token failure ∧ failure.Names token := by
  cases ho : Grammar.standard.isOperand token.kind with
  | false => exact .inr ⟨_, leading_blames ho, rfl, rfl⟩
  | true =>
    cases operand_or_measure ho with
    | inl h => exact .inl h
    | inr h =>
      obtain ⟨measure, hk⟩ := h
      cases hn : number? measure token.value with
      | none => exact .inr ⟨_, leading_blames_number hk hn, rfl, rfl⟩
      | some value => exact .inl ⟨_, .number hk (number?_eq_some_iff.mp hn)⟩

theorem leading_outcome {tokens : List Token} (hc : Closed tokens) :
    Outcome (fun _ => leading) (fun front _ e => ∃ token, front = [token] ∧ Phrase.Operand token e)
      tokens :=
  .single hc (fun _ _ h => h.kind_ne_eof) (fun _ _ _ h => leading_reads h) leading_total
    ⟨.blank .trueWord, _, .yes rfl⟩

/-- An expression that is read at this floor ends in front of such a token. -/
def Rests (floor : Power) (token : Token) : Prop :=
  ∀ power, Grammar.standard.power? token.kind = some power → power.rank ≤ floor.rank

def climb (floor : Power) (fuel : Fuel) : Read Expr := do
  let left ← leading
  extend fuel.width floor left

def turn (floor : Power) (left : Expr) (op : Operator) (fuel : Fuel) : Read Expr := do
  let right ← climb op.power fuel
  extend fuel.width floor (.operation op left right)

section Extend

variable {floor : Power} {left : Expr} {op : Operator}

theorem extend_reads_nil (h : Rests floor token) :
    Reads (fun fuel => extend fuel.width floor left) [] token left := by
  intro reader fuel rest hb
  show extend fuel.width floor left reader = _
  cases fuel.width with
  | zero => rfl
  | succ n =>
    rw [extend, Step.get_bind, hb.current, hb.grammar]
    cases hp : Grammar.standard.power? token.kind with
    | none => rfl
    | some power =>
      have hf : power ≤ floor := h power hp
      simp only [if_pos hf]
      rfl

theorem extend_blames {power : Power} (hp : Grammar.standard.power? token.kind = some power)
    (hf : floor.rank < power.rank) (ho : Grammar.standard.operator? token.kind = none) :
    Blames (fun fuel => extend fuel.width floor left) [] token
      ⟨.unexpectedTokenDetailed token.value "expected an operator or `;`",
        some token.span.start⟩ := by
  intro reader fuel rest hb
  have hk : token.kind ≠ .eof := by
    intro he
    rw [he] at hp
    cases hp
  obtain ⟨n, hn⟩ := hb.exists_width hk
  have hl : ¬power ≤ floor := Nat.not_le.mpr hf
  show extend fuel.width floor left reader = _
  rw [hn, extend, Step.get_bind, unexpectedWith, hb.current, hb.grammar]
  simp only [hp, if_neg hl, ho]
  rfl

theorem operator_run {reader : Reader} (hk : reader.current.kind = op.kind) :
    operator reader = .ok op (reader.passed 1) := by
  refine (Step.bind_of_ok (advance_run reader)).trans ?_
  rw [hk]
  cases op <;> rfl

theorem extend_passes (hk : token.kind = op.kind) (hf : floor.rank ≤ op.rank) :
    Passes token (fun fuel => extend fuel.width floor left) (turn floor left op) := by
  intro reader fuel next rest hb
  obtain ⟨n, hn⟩ := hb.exists_width (hk ▸ Phrase.operator_kind_ne_eof op)
  have hl : ¬op.power ≤ floor := by
    refine Nat.not_le.mpr ?_
    rw [op.power_rank]
    omega
  refine ⟨fuel.less, hb.next_less, ?_⟩
  have hc := hb.current
  show extend fuel.width floor left reader = _
  rw [Fuel.less, hn, extend, Step.get_bind, hb.current, hb.grammar]
  simp only [hk, op.power?_kind, op.operator?_kind, if_neg hl, turn, climb, bind_assoc]
  exact Step.bind_of_ok (operator_run (hc ▸ hk))

end Extend

theorem rests_of_power?_eq_none {floor : Power}
    (h : Grammar.standard.power? token.kind = none) : Rests floor token := by
  intro power hp
  rw [h] at hp
  cases hp

theorem rank_le_of_operator {op : Operator} (hk : token.kind = op.kind) :
    ∀ power, Grammar.standard.power? token.kind = some power → power.rank ≤ op.rank + 1 := by
  intro power hp
  rw [hk, op.power?_kind, Option.some.injEq] at hp
  exact Nat.le_of_eq (hp ▸ op.power_rank)

theorem Rests.rank_le {op other : Operator} (h : Rests op.power token)
    (hk : token.kind = other.kind) : other.rank ≤ op.rank := by
  have hp := h other.power (hk ▸ other.power?_kind)
  rw [other.power_rank, op.power_rank] at hp
  omega

section Complete

variable {floor : Power} {rank : Nat} {ts more : List Token} {stop : Token}
  {final : Except Failure Expr}

theorem climb_resumes (h : Phrase.Expression rank ts e) (hf : floor.rank ≤ rank)
    (ht : ∀ power, Grammar.standard.power? token.kind = some power → power.rank ≤ rank + 1)
    (hr : Ends (fun fuel => extend fuel.width floor e) more stop final)
    (hs : (more ++ [stop]).head? = some token) :
    Ends (climb floor) (ts ++ more) stop final := by
  induction h generalizing floor token more stop final with
  | operand h => exact (leading_reads h).bind hr hs
  | @operation rank ts us mark op l r hle _ hk _ ihl ihr =>
    -- the right side is read in a loop of its own, which ends in front of the rest
    have hrest : Rests op.power token := by
      intro power hp
      have := ht power hp
      rw [op.power_rank]
      omega
    have hright : Reads (climb op.power) (us ++ []) token r := by
      refine ihr ?_ ?_ (extend_reads_nil hrest) rfl
      · exact Nat.le_of_eq op.power_rank
      · intro power hp
        have := ht power hp
        omega
    rw [List.append_nil] at hright
    have hturn : Ends (turn floor l op) (us ++ more) stop final := hright.bind hr hs
    -- the loop that has read the left side turns at the operator and goes on with the rest
    have hle := Nat.le_trans hf hle
    have hleft := ihl hle (rank_le_of_operator hk) ((extend_passes hk hle).ends hturn) rfl
    rw [List.append_assoc, List.cons_append]
    exact hleft

theorem stream_eq_cons (reader : Reader) : ∃ rest, reader.stream = reader.current :: rest := by
  rw [stream, current]
  cases reader.ahead with
  | nil => exact ⟨[], rfl⟩
  | cons token rest => exact ⟨rest ++ [reader.last], rfl⟩

theorem expression_budgeted (floor : Power) : Budgeted (expression floor) (climb floor) := by
  intro reader hg
  obtain ⟨rest, hs⟩ := reader.stream_eq_cons
  have hb : reader.Before ⟨reader.budget, reader.budget⟩ (reader.current :: rest) :=
    ⟨hg, reader.length_ahead_le, reader.length_ahead_le, hs⟩
  cases leading_total reader.current with
  | inl h =>
    obtain ⟨e, h⟩ := h
    have hl := (leading_eq hg (isOperand_of_operand h)).trans (operand_run h)
    exact (Step.bind_of_ok hl).trans (Step.bind_of_ok hl).symm
  | inr h =>
    obtain ⟨failure, h, _⟩ := h
    exact (Step.bind_of_error (h hb)).trans (Step.bind_of_error (h hb)).symm

theorem expression_reads (h : Phrase.Expression floor.rank ts e) (hs : Rests floor stop) :
    Reads (fun _ => expression floor) ts stop e := by
  have hc : Reads (climb floor) (ts ++ []) stop e := by
    refine climb_resumes h (Nat.le_refl _) ?_ (extend_reads_nil hs) rfl
    intro power hp
    exact Nat.le_succ_of_le (hs power hp)
  rw [List.append_nil] at hc
  exact (expression_budgeted floor).ends hc

end Complete

section Total

variable {tokens : List Token}

/-- On these tokens, every expression that has been read so far is extended as far as the floor
allows. It must have been read up to here: what it ends in takes no operator from the tokens. -/
def Extends (tokens : List Token) : Prop :=
  ∀ {floor : Power} {rank : Nat} {ts : List Token} {left : Expr},
    Phrase.Expression rank ts left → floor.rank ≤ rank →
    (∀ op : Operator, ∀ token ∈ tokens.head?, token.kind = op.kind → op.rank ≤ rank) →
    Outcome (fun fuel => extend fuel.width floor left)
      (fun front stop e => Phrase.Expression floor.rank (ts ++ front) e ∧ Rests floor stop) tokens

theorem rests_blank (floor : Power) : Rests floor (.blank .semicolon) :=
  rests_of_power?_eq_none rfl

theorem climb_outcome (floor : Power) (hc : Closed tokens)
    (hx : ∀ rest : List Token, Closed rest → rest.length < tokens.length → Extends rest) :
    Outcome (climb floor)
      (fun front stop e => Phrase.Expression floor.rank front e ∧ Rests floor stop) tokens := by
  refine .bind hc (leading_outcome hc) ?_ ?_
  · intro front rest token e hl hr hp
    obtain ⟨first, rfl, ho⟩ := hp
    rw [List.length_singleton] at hl
    have hfirst : Phrase.Expression (floor.rank + 1) [first] e := .operand ho
    refine hx _ hr (by omega) hfirst (Nat.le_succ _) ?_
    intro op _ _ _
    cases op <;> simp [Operator.rank]
  · intro front token e hp
    obtain ⟨first, rfl, ho⟩ := hp
    exact ⟨[], .blank .semicolon, e, .operand ho, rests_blank floor⟩

theorem rests_or_operator (floor : Power) (token : Token) :
    Rests floor token ∨ (∃ op : Operator, token.kind = op.kind ∧ floor.rank ≤ op.rank) ∨
      ∃ power, Grammar.standard.power? token.kind = some power ∧ floor.rank < power.rank ∧
        Grammar.standard.operator? token.kind = none := by
  cases hp : Grammar.standard.power? token.kind with
  | none => exact .inl (rests_of_power?_eq_none hp)
  | some power =>
    by_cases hf : power.rank ≤ floor.rank
    · refine .inl fun other ho => ?_
      rw [hp, Option.some.injEq] at ho
      exact ho ▸ hf
    · cases ho : Grammar.standard.operator? token.kind with
      | none => exact .inr (.inr ⟨power, rfl, Nat.not_le.mp hf, rfl⟩)
      | some _ =>
        obtain ⟨op, hk⟩ := Operator.exists_kind_of_operator? ho
        rw [hk, op.power?_kind, Option.some.injEq] at hp
        rw [← hp, op.power_rank] at hf
        exact .inr (.inl ⟨op, hk, by omega⟩)

theorem extends_of_shorter (hc : Closed tokens)
    (hx : ∀ rest : List Token, Closed rest → rest.length < tokens.length → Extends rest) :
    Extends tokens := by
  intro floor rank ts left hl hf hop
  obtain ⟨token, rest, rfl⟩ := hc.exists_cons
  obtain hr | ⟨op, hk, hle⟩ | ⟨power, hp, hlt, ho⟩ := rests_or_operator floor token
  · exact .read rfl (extend_reads_nil hr) ⟨by simpa using hl.mono hf, hr⟩
  · have hleft := hl.mono (hop op token rfl hk)
    obtain ⟨next, more, rfl⟩ := hc.exists_next (hk ▸ Phrase.operator_kind_ne_eof op)
    have hn : Closed (next :: more) := hc.tail
    refine (extend_passes hk hle).outcome (.bind hn (climb_outcome op.power hn ?_) ?_ ?_)
    · intro rest hr hlen
      exact hx rest hr (by simp at hlen ⊢; omega)
    · intro us rest stop right hlen hr hp
      obtain ⟨hright, hrest⟩ := hp
      rw [op.power_rank] at hright
      have hwhole := hx (stop :: rest) hr (by simp at hlen ⊢; omega)
        (.operation (Nat.le_refl _) hleft hk hright) hle
        (fun other mark hm ho => hrest.rank_le (by simp at hm; exact hm ▸ ho))
      simpa using hwhole
    · intro us stop right hp
      have hright := hp.1
      rw [op.power_rank] at hright
      exact ⟨[], .blank .semicolon, _, by simpa using .operation hle hleft hk hright,
        rests_blank floor⟩
  · have hleft : Phrase.Expression floor.rank (ts ++ []) left := by simpa using hl.mono hf
    exact .blame_first (.blank .semicolon) (extend_blames hp hlt ho) ⟨rfl, rfl⟩
      ⟨hleft, rests_blank floor⟩

theorem extends_of_closed (hc : Closed tokens) : Extends tokens := by
  induction hn : tokens.length using Nat.strongRecOn generalizing tokens with
  | ind n ih =>
    subst hn
    exact extends_of_shorter hc fun rest hr hl => ih _ hl hr rfl

theorem expression_outcome (floor : Power) (hc : Closed tokens) :
    Outcome (fun _ => expression floor)
      (fun front stop e => Phrase.Expression floor.rank front e ∧ Rests floor stop) tokens := by
  exact (expression_budgeted floor).outcome
    (climb_outcome floor hc fun rest hr _ => extends_of_closed hr)

end Total

end Reader

end TypedStyle
