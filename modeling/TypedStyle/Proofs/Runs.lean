import TypedStyle.Proofs.Expressions

set_option autoImplicit false

namespace TypedStyle

inductive Term where
  | operand (expr : Expr)
  | operator (op : Operator)
  deriving Repr, DecidableEq

namespace Expr

def terms : Expr → List Term
  | .operation op left right _ => left.terms ++ .operator op :: right.terms
  | expr => [.operand expr]

def operators : Expr → List Operator
  | .operation op left right _ => op :: (left.operators ++ right.operators)
  | _ => []

def operator? : Expr → Option Operator
  | .operation op _ _ _ => some op
  | _ => none

/-- There is no sum or difference below a product, and on the right of no operation there is one of
the same level. -/
def Leveled : Expr → Prop
  | .operation op left right _ =>
    (op = .multiply → ∀ below ∈ left.operators ++ right.operators, below = .multiply) ∧
      (∀ other ∈ right.operator?, other.rank ≠ op.rank) ∧ left.Leveled ∧ right.Leveled
  | _ => True

theorem operators_of_operator? {e : Expr} {op : Operator} (h : e.operator? = some op) :
    op ∈ e.operators := by
  cases e with
  | operation other left right fault => simp_all [operator?, operators]
  | _ => cases h

end Expr

namespace Phrase

variable {rank : Nat} {ts : List Token} {token mark : Token} {op : Operator} {e x : Expr}

theorem Operand.terms (h : Operand token e) : e.terms = [.operand e] := by
  cases h <;> rfl

theorem Operand.operators (h : Operand token e) : e.operators = [] := by
  cases h <;> rfl

theorem Operand.leveled (h : Operand token e) : e.Leveled := by
  cases h <;> trivial

/-- An operator and an operand behind an expression belong to it, as far down on its right as the
operator is tighter. -/
theorem Expression.snoc (h : Expression rank ts e) (hk : mark.kind = op.kind) (hr : rank ≤ op.rank)
    (hx : Operand token x) : ∃ whole, Expression rank (ts ++ [mark, token]) whole ∧
      whole.terms = e.terms ++ [.operator op, .operand x] := by
  induction h with
  | operand ho =>
    refine ⟨_, .operation hr (.operand ho) hk (.operand hx), ?_⟩
    rw [Expr.terms, hx.terms]
  | @operation rank ts us other inner l r hle hleft ho hright _ ihr =>
    by_cases hop : op.rank ≤ inner.rank
    · refine ⟨_, .operation hr (.operation hop hleft ho hright) hk (.operand hx), ?_⟩
      rw [Expr.terms, hx.terms]
    · obtain ⟨right, hwhole, hterms⟩ := ihr (by omega)
      refine ⟨.operation inner l right, ?_, ?_⟩
      · rw [List.append_assoc, List.cons_append]
        exact .operation hle hleft ho hwhole
      · simp [Expr.terms, hterms]

theorem Expression.rank_le (h : Expression rank ts e) :
    ∀ below ∈ e.operators, rank ≤ below.rank := by
  induction h with
  | operand ho => simp [ho.operators]
  | @operation rank ts us other inner l r hle _ _ _ ihl ihr =>
    intro below hm
    simp only [Expr.operators, List.mem_cons, List.mem_append] at hm
    rcases hm with rfl | hm | hm
    · exact hle
    · exact Nat.le_trans hle (ihl below hm)
    · have := ihr below hm
      omega

theorem Expression.leveled (h : Expression rank ts e) : e.Leveled := by
  induction h with
  | operand ho => exact ho.leveled
  | @operation rank ts us other inner l r _ hleft _ hright ihl ihr =>
    refine ⟨?_, ?_, ihl, ihr⟩
    · rintro rfl below hm
      have hrank : Operator.multiply.rank ≤ below.rank := by
        rcases List.mem_append.mp hm with hm | hm
        · exact hleft.rank_le below hm
        · exact Nat.le_of_succ_le (hright.rank_le below hm)
      cases below <;> simp [Operator.rank] at hrank ⊢
    · intro below hm
      have hrank := hright.rank_le below (Expr.operators_of_operator? hm)
      omega

end Phrase

namespace Reader

def Tighter (floor : Power) (token : Token) : Prop :=
  ∃ op : Operator, token.kind = op.kind ∧ floor.rank < op.power.rank

def literalKinds : List Token.Kind :=
  [.pixelSize, .percentage, .scalar, .color, .trueWord, .falseWord]

/-- A literal behind an expression binds to it, more than anything else. -/
def Clings (floor : Power) (token : Token) : Prop :=
  token.kind ∈ literalKinds ∧ floor.rank < Power.primary.rank

/-- An operand, and pairs of an operator that is tighter than the floor and an operand. -/
inductive Run (floor : Power) : List Token → List Term → Prop
  | operand {token : Token} {e : Expr} : Phrase.Operand token e → Run floor [token] [.operand e]
  | more {ts : List Token} {terms : List Term} {mark token : Token} {op : Operator} {e : Expr} :
      Run floor ts terms → mark.kind = op.kind → floor.rank < op.power.rank →
      Phrase.Operand token e → Run floor (ts ++ [mark, token]) (terms ++ [.operator op, .operand e])

def Complete (floor : Power) (rest : List Token) : Prop :=
  ∀ mark token more, rest = mark :: token :: more → Tighter floor mark →
    Grammar.standard.isOperand token.kind = false

section Run

variable {floor : Power} {rank : Nat} {ts more : List Token} {terms : List Term}
  {token stop : Token} {e : Expr} {failure : Failure}

theorem Run.exists_expression (h : Run floor ts terms) :
    ∃ e, Phrase.Expression floor.rank ts e ∧ e.terms = terms := by
  induction h with
  | operand ho => exact ⟨_, .operand ho, ho.terms⟩
  | @more ts terms mark token op x _ hk hf hx ih =>
    obtain ⟨e, he, rfl⟩ := ih
    rw [op.power_rank] at hf
    exact he.snoc hk (by omega) hx

theorem Run.exists_next {rest : List Token} (h : Run floor ts terms) (hc : Closed (ts ++ rest)) :
    ∃ next more, rest = next :: more := by
  cases rest with
  | cons next more => exact ⟨next, more, rfl⟩
  | nil =>
    obtain ⟨e, he, -⟩ := h.exists_expression
    obtain ⟨last, hl, hk⟩ := hc
    rw [List.append_nil] at hl
    exact absurd hk (he.bodily last (List.mem_of_getLast? hl)).ne_eof

theorem power?_of_literal {kind : Token.Kind} (h : kind ∈ literalKinds) :
    Grammar.standard.power? kind = some .primary ∧ Grammar.standard.operator? kind = none := by
  cases kind <;> simp_all [literalKinds, Grammar.standard, Grammar.power?]

theorem literal_of_power? {kind : Token.Kind} {power : Power}
    (hp : Grammar.standard.power? kind = some power)
    (ho : Grammar.standard.operator? kind = none) :
    power = .base ∨ kind ∈ literalKinds ∧ power = .primary := by
  cases kind <;> simp_all [literalKinds, Grammar.standard, Grammar.power?]

theorem rests_of_loose (ht : ¬Tighter floor token) (hc : ¬Clings floor token) :
    Rests floor token := by
  obtain hr | ⟨op, hk, hf⟩ | ⟨power, hp, hf, ho⟩ := rests_or_operator floor token
  · exact hr
  · exact absurd ⟨op, hk, by rw [op.power_rank]; omega⟩ ht
  · rcases literal_of_power? hp ho with rfl | ⟨hl, rfl⟩
    · exact absurd hf (Nat.not_lt_zero _)
    · exact absurd ⟨hl, hf⟩ hc

theorem climb_blames {power : Power} (h : Phrase.Expression rank ts e) (hf : floor.rank ≤ rank)
    (hp : Grammar.standard.power? token.kind = some power) (hlt : floor.rank < power.rank)
    (hs : (more ++ [stop]).head? = some token)
    (hb : ∀ {other : Power} {left : Expr}, other.rank < power.rank →
      Blames (fun fuel => extend fuel.width other left) more stop failure) :
    Blames (climb floor) (ts ++ more) stop failure := by
  induction h generalizing floor with
  | operand ho => exact (leading_reads ho).bind (hb hlt) hs
  | @operation rank ts us mark op l r hle hleft hk hright _ ihr =>
    by_cases hin : op.power.rank < power.rank
    · -- the right side is not over in front of what fails
      have hclimb := ihr (Nat.le_of_eq op.power_rank) hin
      have hturn : Blames (turn floor l op) (us ++ more) stop failure := hclimb.bind_error
      have hle := Nat.le_trans hf hle
      have hwhole := climb_resumes hleft hle (rank_le_of_operator hk)
        ((extend_passes hk hle).ends hturn) rfl
      rw [List.append_assoc, List.cons_append]
      exact hwhole
    · have hwhole : Phrase.Expression op.rank (ts ++ mark :: us) (.operation op l r) :=
        .operation (Nat.le_refl _) hleft hk hright
      refine climb_resumes hwhole (Nat.le_trans hf hle) ?_ (hb hlt) hs
      intro other ho
      rw [hp, Option.some.injEq] at ho
      rw [← ho, ← op.power_rank]
      exact Nat.not_lt.mp hin

theorem expression_blames_literal (h : Run floor ts terms) (hc : Clings floor token) :
    ∃ failure, Blames (fun _ => expression floor) ts token failure ∧ failure.Names token := by
  obtain ⟨e, he, -⟩ := h.exists_expression
  obtain ⟨hp, ho⟩ := power?_of_literal hc.1
  have hclimb : Blames (climb floor) (ts ++ []) token _ :=
    climb_blames he (Nat.le_refl _) hp hc.2 rfl fun hlt => extend_blames hp hlt ho
  rw [List.append_nil] at hclimb
  exact ⟨_, (expression_budgeted floor).ends hclimb, rfl, rfl⟩

theorem expression_blames_operand {mark : Token} (h : Run floor ts terms) (ht : Tighter floor mark)
    (ho : Grammar.standard.isOperand token.kind = false) :
    ∃ failure, Blames (fun _ => expression floor) (ts ++ [mark]) token failure ∧
      failure.Names token := by
  obtain ⟨e, he, -⟩ := h.exists_expression
  obtain ⟨op, hk, hf⟩ := ht
  have hp : Grammar.standard.power? mark.kind = some op.power := hk ▸ op.power?_kind
  have hextend : ∀ {other : Power} {left : Expr}, other.rank < op.power.rank →
      Blames (fun fuel => extend fuel.width other left) [mark] token
        ⟨.unexpectedTokenDetailed token.value "expected a literal or variable",
          some token.span.start⟩ := by
    intro other left hlt
    rw [op.power_rank] at hlt
    have hclimb : Blames (climb op.power) [] token _ := (leading_blames ho).bind_error
    have hturn : Blames (turn other left op) [] token _ := hclimb.bind_error
    exact (extend_passes hk (Nat.le_of_lt_succ hlt)).ends hturn
  have hclimb := climb_blames he (Nat.le_refl _) hp hf rfl hextend
  exact ⟨_, (expression_budgeted floor).ends hclimb, rfl, rfl⟩

theorem expression_reads_run (h : Run floor ts terms) (hr : Rests floor stop) :
    ∃ e, Reads (fun _ => expression floor) ts stop e ∧ e.terms = terms ∧ e.Leveled := by
  obtain ⟨e, he, hterms⟩ := h.exists_expression
  exact ⟨e, expression_reads he hr, hterms, he.leveled⟩

end Run

theorem before_stream {reader : Reader} (hg : reader.grammar = .standard) :
    reader.Before ⟨reader.budget, reader.budget⟩ reader.stream :=
  ⟨hg, reader.length_ahead_le, reader.length_ahead_le, rfl⟩

theorem closed_stream (reader : Reader) : Closed reader.stream :=
  ⟨reader.last, by simp [stream], reader.last_eof⟩

/-- From any token on and at any floor, the longest run is read as one expression. -/
theorem expression_takes_run {reader : Reader} {floor : Power} {run rest : List Token}
    {terms : List Term} (hg : reader.grammar = .standard) (hs : reader.stream = run ++ rest)
    (hr : Run floor run terms) (hm : Complete floor rest) :
    (∀ mark ∈ rest.head?, Tighter floor mark → ∃ next ∈ rest[1]?, ∃ failure,
      expression floor reader = .error failure (reader.passed (run.length + 1)) ∧
        failure.Names next) ∧
    (∀ next ∈ rest.head?, Clings floor next → ∃ failure,
      expression floor reader = .error failure (reader.passed run.length) ∧
        failure.Names next) ∧
    ((∀ next ∈ rest.head?, ¬Tighter floor next ∧ ¬Clings floor next) →
      (reader.passed run.length).stream = rest ∧ ∃ e,
        expression floor reader = .ok e (reader.passed run.length) ∧ e.terms = terms ∧
          e.Leveled) := by
  have hb := before_stream hg
  rw [hs] at hb
  obtain ⟨next, rest, rfl⟩ := hr.exists_next (hs ▸ closed_stream reader)
  simp only [List.head?_cons, Option.mem_def, Option.some.injEq, forall_eq']
  refine ⟨?_, ?_, ?_⟩
  · intro ht
    obtain ⟨op, hk, -⟩ := id ht
    have hc : Closed (next :: rest) := (hs ▸ closed_stream reader).of_append
    obtain ⟨operand, more, rfl⟩ := hc.exists_next (hk ▸ Phrase.operator_kind_ne_eof op)
    obtain ⟨failure, hblames, hnames⟩ := expression_blames_operand hr ht (hm _ _ _ rfl ht)
    rw [List.append_cons] at hb
    have hend := hblames hb
    rw [List.length_append] at hend
    exact ⟨operand, rfl, failure, hend, hnames⟩
  · intro hl
    obtain ⟨failure, hblames, hnames⟩ := expression_blames_literal hr hl
    exact ⟨failure, hblames hb, hnames⟩
  · intro ⟨ht, hl⟩
    obtain ⟨e, hreads, hterms, hlevel⟩ := expression_reads_run hr (rests_of_loose ht hl)
    exact ⟨hb.passed.stream, e, hreads hb, hterms, hlevel⟩

/-- The same run in front of a bracket, of an operator without an operand, and of a literal. -/
theorem expression_takes_run_of_product :
    let name (text : String) : Token := { Token.blank .capitalName with value := text }
    let number (text : String) : Token := { Token.blank .scalar with value := text }
    let run : List Token := [name "A", .blank .minus, number "2", .blank .times, name "B",
      .blank .minus, number "3"]
    let scalar (value : Int64) : Term := .operand (.literal (.number .scalar value))
    let reference (name : String) : Term := .operand (.reference name)
    let terms : List Term := [reference "A", .operator .subtract, scalar 2, .operator .multiply,
      reference "B", .operator .subtract, scalar 3]
    let stop : Token := .blank .semicolon
    let before (rest : List Token) : Reader := Reader.ofTokens (run ++ rest) "a"
    let closed : List Token := [.blank .closeBracket, .eof ⟨0, "a"⟩]
    let dangling : List Token := [.blank .plus, stop, .eof ⟨0, "a"⟩]
    let adjacent : List Token := [.blank .trueWord, stop, .eof ⟨0, "a"⟩]
    Run .base run terms ∧
    (∀ rest ∈ [closed, dangling, adjacent], (before rest).grammar = .standard ∧
      (before rest).stream = run ++ rest ∧ Complete .base rest) ∧
    (∃ e, expression .base (before closed) = .ok e ((before closed).passed 7) ∧
      e.terms = terms ∧ e.Leveled) ∧
    (∃ failure, expression .base (before dangling) = .error failure ((before dangling).passed 8) ∧
      failure.Names stop) ∧
    ∃ failure, expression .base (before adjacent) = .error failure ((before adjacent).passed 7) ∧
      failure.Names (.blank .trueWord) := by
  intro name number run scalar reference terms stop before closed dangling adjacent
  have htwo : Phrase.Operand (number "2") (.literal (.number .scalar 2)) :=
    .number rfl (number?_eq_some_iff.mp (by decide))
  have hthree : Phrase.Operand (number "3") (.literal (.number .scalar 3)) :=
    .number rfl (number?_eq_some_iff.mp (by decide))
  have hproduct : Run .base [name "A", .blank .minus, number "2", .blank .times, name "B"] _ :=
    .more (.more (.operand (.reference rfl)) rfl
        (by decide : _ < Operator.subtract.power.rank) htwo)
      rfl (by decide : _ < Operator.multiply.power.rank) (.reference rfl)
  have hrun : Run .base run terms :=
    .more hproduct rfl (by decide : _ < Operator.subtract.power.rank) hthree
  have hcomplete : ∀ rest ∈ [closed, dangling, adjacent], (before rest).grammar = .standard ∧
      (before rest).stream = run ++ rest ∧ Complete .base rest := by
    simp only [List.forall_mem_cons]
    refine ⟨⟨rfl, rfl, ?_⟩, ⟨rfl, rfl, ?_⟩, ⟨rfl, rfl, ?_⟩, List.forall_mem_nil _⟩
    all_goals
      intro mark token more h _
      obtain rfl := (List.cons.inj (List.cons.inj h).2).1
      rfl
  have htakes := fun rest hm => expression_takes_run (hcomplete rest hm).1 (hcomplete rest hm).2.1
    hrun (hcomplete rest hm).2.2
  refine ⟨hrun, hcomplete, ?_, ?_, ?_⟩
  · refine ((htakes closed (by simp)).2.2 ?_).2
    rintro next ⟨⟩
    constructor
    · rintro ⟨op, hk, -⟩
      cases op <;> cases hk
    · exact fun h => absurd h.1 (by decide)
  · obtain ⟨next, hn, hfailure⟩ := (htakes dangling (by simp)).1 (.blank .plus) rfl
      ⟨.add, rfl, by decide⟩
    cases hn
    exact hfailure
  · exact (htakes adjacent (by simp)).2.1 (.blank .trueWord) rfl ⟨by decide, by decide⟩

end Reader

end TypedStyle
