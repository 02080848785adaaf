import TypedStyle.Proofs.Parsing

/-!
Reading goes by the kinds of tokens. Their texts make a difference only where a number cannot be
read.
-/

set_option autoImplicit false

namespace TypedStyle

namespace Token

def Kind.measure? : Kind → Option Measure
  | .pixelSize => some .pixel
  | .percentage => some .percentage
  | .scalar => some .scalar
  | _ => none

theorem Kind.measure?_eq_some_iff {kind : Kind} {measure : Measure} :
    kind.measure? = some measure ↔ kind = measure.kind := by
  cases kind <;> cases measure <;> decide

def number? (token : Token) : Option (Measure × Int64) := do
  let measure ← token.kind.measure?
  let value ← Reader.number? measure token.value
  return (measure, value)

def Readable (token : Token) : Prop :=
  token.kind.measure?.isSome → token.number?.isSome

instance (token : Token) : Decidable token.Readable :=
  inferInstanceAs (Decidable (_ → _))

end Token

def Failure.IsNumeral (failure : Failure) : Prop :=
  ∃ text, failure.cause = .numberParseError text

namespace Reader

variable {α β : Type} {reader other : Reader}

/-- The tokens in front of both readers are of the same kinds, and the other one can read all
numbers among its own. -/
structure Kindred (reader other : Reader) : Prop where
  grammar : reader.grammar = other.grammar
  budget : reader.budget = other.budget
  kinds : reader.ahead.map Token.kind = other.ahead.map Token.kind
  readable : ∀ token ∈ other.ahead, token.Readable

namespace Kindred

theorem current (h : Kindred reader other) : reader.current.kind = other.current.kind := by
  have hkinds := congrArg List.head? h.kinds
  rw [List.head?_map, List.head?_map] at hkinds
  rw [Reader.current, Reader.current]
  cases hr : reader.ahead.head? <;> cases ho : other.ahead.head? <;> rw [hr, ho] at hkinds
  · rw [Option.getD_none, Option.getD_none, reader.last_eof, other.last_eof]
  · cases hkinds
  · cases hkinds
  · exact Option.some.inj hkinds

theorem length_ahead (h : Kindred reader other) : reader.ahead.length = other.ahead.length := by
  have hkinds := congrArg List.length h.kinds
  rwa [List.length_map, List.length_map] at hkinds

theorem passed (h : Kindred reader other) (count : Nat) :
    Kindred (reader.passed count) (other.passed count) where
  grammar := h.grammar
  budget := h.budget
  kinds := by simp only [Reader.passed, List.map_drop, h.kinds]
  readable := fun token hm => h.readable token (List.mem_of_mem_drop hm)

theorem self (h : Kindred reader other) : Kindred other other :=
  ⟨rfl, rfl, rfl, h.readable⟩

theorem readable_current (h : Kindred reader other) : other.current.Readable := by
  rw [Reader.current]
  cases ha : other.ahead with
  | nil =>
    have hlast : other.last.kind.measure? = none := by rw [other.last_eof]; rfl
    intro hsome
    simp [hlast] at hsome
  | cons token rest => exact h.readable token (by simp [ha])

end Kindred

theorem passed_zero (reader : Reader) : reader.passed 0 = reader := by
  simp [passed]

def final : EStateM.Result Failure Reader α → Reader
  | .ok _ reader | .error _ reader => reader

/-- How two steps on kindred readers end: alike, or the first one at a number that it cannot read
and the other one further on. -/
inductive Matches : EStateM.Result Failure Reader α → EStateM.Result Failure Reader α → Prop
  | read {x y : α} {reader other : Reader} : Kindred reader other →
      Matches (.ok x reader) (.ok y other)
  | fail {failure fault : Failure} {reader other : Reader} : ¬failure.IsNumeral →
      Kindred reader other → Matches (.error failure reader) (.error fault other)
  | number {failure : Failure} {reader : Reader} {result : EStateM.Result Failure Reader α} :
      failure.IsNumeral → ¬reader.current.Readable →
      (final result).ahead.length < reader.ahead.length → Matches (.error failure reader) result

/-- The steps go the same way as long as numbers can be read, and the other one never goes back. -/
def Tracks (step twin : Read α) : Prop :=
  ∀ reader other, Kindred reader other →
    (∃ count, final (twin other) = other.passed count) ∧ Matches (step reader) (twin other)

namespace Tracks

variable {step twin : Read α}

theorem pure (x y : α) : Tracks (Pure.pure x) (Pure.pure y) :=
  fun _ other h => ⟨⟨0, other.passed_zero.symm⟩, .read h⟩

theorem throw {failure : Failure} (h : ¬failure.IsNumeral) (fault : Failure) :
    Tracks (throw failure : Read α) (throw fault) :=
  fun _ other hk => ⟨⟨0, other.passed_zero.symm⟩, .fail h hk⟩

theorem advance : Tracks advance advance := by
  intro reader other h
  rw [advance_run, advance_run]
  exact ⟨⟨1, rfl⟩, .read (h.passed 1)⟩

theorem get {next last : Reader → Read α}
    (h : ∀ reader other, Kindred reader other → Tracks (next reader) (last other)) :
    Tracks (MonadState.get >>= next) (MonadState.get >>= last) :=
  fun reader other hk => h reader other hk reader other hk

theorem ite {c d : Prop} [Decidable c] [Decidable d] {fallback spare : Read α} (hcd : c ↔ d)
    (h : Tracks step twin) (hf : Tracks fallback spare) :
    Tracks (if c then step else fallback) (if d then twin else spare) := by
  by_cases hc : c
  · rwa [if_pos hc, if_pos (hcd.mp hc)]
  · rwa [if_neg hc, if_neg (mt hcd.mpr hc)]

theorem bind {next last : α → Read β} (h : Tracks step twin)
    (hn : ∀ x y, Tracks (next x) (last y)) : Tracks (step >>= next) (twin >>= last) := by
  intro reader other hk
  obtain ⟨⟨count, hcount⟩, hm⟩ := h reader other hk
  cases ho : twin other with
  | error fault stuck =>
    rw [ho] at hcount hm
    rw [Step.bind_of_error ho]
    refine ⟨⟨count, hcount⟩, ?_⟩
    cases hs : step reader <;> rw [hs] at hm
    · cases hm
    · rw [Step.bind_of_error hs]
      cases hm with
      | fail hf hq => exact .fail hf hq
      | number hf hc hl => exact .number hf hc hl
  | ok y there =>
    rw [ho] at hcount hm
    obtain rfl : there = other.passed count := hcount
    obtain ⟨⟨more, hmore⟩, -⟩ := hn y y _ _ (hk.self.passed count)
    rw [passed_passed] at hmore
    rw [Step.bind_of_ok ho]
    refine ⟨⟨count + more, hmore⟩, ?_⟩
    cases hs : step reader <;> rw [hs] at hm
    · rw [Step.bind_of_ok hs]
      cases hm with
      | read hq => exact (hn _ _ _ _ hq).2
    · rw [Step.bind_of_error hs]
      cases hm with
      | number hf hc hl =>
        -- what the other reader passes from there on takes it only further
        refine .number hf hc (Nat.lt_of_le_of_lt ?_ hl)
        rw [hmore, final, Reader.passed, Reader.passed, List.length_drop, List.length_drop]
        omega

theorem advance_bind {next last : Token → Read β}
    (h : ∀ token twin, token.kind = twin.kind → Tracks (next token) (last twin)) :
    Tracks (Reader.advance >>= next) (Reader.advance >>= last) :=
  fun reader other hk => (advance.bind fun _ _ => h _ _ hk.current) reader other hk

theorem map {change alter : α → β} (h : Tracks step twin) :
    Tracks (change <$> step) (alter <$> twin) := by
  rw [map_eq_pure_bind, map_eq_pure_bind]
  exact h.bind fun x y => pure _ _

end Tracks

section Operands

theorem not_isNumeral_unexpected (text : String) (position : Option Position) :
    ¬(⟨.unexpectedToken text, position⟩ : Failure).IsNumeral :=
  nofun

theorem not_isNumeral_detailed (text message : String) (position : Option Position) :
    ¬(⟨.unexpectedTokenDetailed text message, position⟩ : Failure).IsNumeral :=
  nofun

theorem operand_of_measure {measure : Measure}
    (h : reader.current.kind.measure? = some measure) :
    operand reader = match number? measure reader.current.value with
      | some value => .ok (.literal (.number measure value)) (reader.passed 1)
      | none => .error ⟨.numberParseError reader.current.value, some reader.current.span.start⟩
          reader := by
  rw [Token.Kind.measure?_eq_some_iff] at h
  cases hn : number? measure reader.current.value with
  | some value => exact operand_run (.number h (number?_eq_some_iff.mp hn))
  | none =>
    have hf : number measure reader.current =
        throw ⟨.numberParseError reader.current.value, some reader.current.span.start⟩ := by
      rw [number, hn]
    rw [operand, Step.get_bind]
    cases measure <;> (simp only [h, Measure.kind, hf]; rfl)

theorem readable_iff {measure : Measure} {token : Token}
    (h : token.kind.measure? = some measure) :
    token.Readable ↔ ∃ value, number? measure token.value = some value := by
  rw [Token.Readable, Token.number?, h, ← Option.isSome_iff_exists]
  cases hn : number? measure token.value <;> simp [hn]

theorem Tracks.operand_measure {measure : Measure} (hk : Kindred reader other)
    (h : other.current.kind.measure? = some measure) :
    (∃ count, final (operand other) = other.passed count) ∧
      Matches (operand reader) (operand other) := by
  have hr : reader.current.kind.measure? = some measure := hk.current ▸ h
  obtain ⟨value, hvalue⟩ := (readable_iff h).mp hk.readable_current
  rw [operand_of_measure hr, operand_of_measure h, hvalue]
  refine ⟨⟨1, rfl⟩, ?_⟩
  cases hn : number? measure reader.current.value with
  | some found => exact .read (hk.passed 1)
  | none =>
    have hcurrent : ¬reader.current.Readable := by
      rw [readable_iff hr, hn]
      nofun
    refine .number ⟨_, rfl⟩ hcurrent ?_
    have hpos : 0 < other.ahead.length := by
      refine List.length_pos_iff.mpr fun hnil => ?_
      have hlast : other.current = other.last := by rw [Reader.current, hnil]; rfl
      rw [hlast, other.last_eof] at h
      cases h
    rw [final, Reader.passed, List.length_drop, hk.length_ahead]
    omega

theorem operand_of_other (h : reader.current.kind.measure? = none) :
    if Grammar.standard.isOperand reader.current.kind
      then ∃ e, operand reader = .ok e (reader.passed 1)
      else operand reader =
        .error ⟨.unexpectedToken reader.current.value, some reader.current.span.start⟩ reader := by
  cases ho : Grammar.standard.isOperand reader.current.kind with
  | true =>
    obtain ⟨e, he⟩ | ⟨measure, hm⟩ := operand_or_measure ho
    · exact ⟨e, operand_run he⟩
    · rw [Token.Kind.measure?_eq_some_iff.mpr hm] at h
      cases h
  | false =>
    rw [operand, Step.get_bind]
    cases hk : reader.current.kind with
    | pixelSize | percentage | scalar | color | trueWord | falseWord | capitalName =>
      rw [hk] at ho
      cases ho
    | _ => rfl

theorem Tracks.operand : Tracks operand operand := by
  intro reader other hk
  cases h : other.current.kind.measure? with
  | some measure => exact operand_measure hk h
  | none =>
    have ho := operand_of_other h
    have hr := @operand_of_other reader (hk.current ▸ h)
    rw [hk.current] at hr
    by_cases hop : Grammar.standard.isOperand other.current.kind
    · rw [if_pos hop] at ho hr
      obtain ⟨e, ho⟩ := ho
      obtain ⟨f, hr⟩ := hr
      rw [ho, hr]
      exact ⟨⟨1, rfl⟩, .read (hk.passed 1)⟩
    · rw [if_neg hop] at ho hr
      rw [ho, hr]
      exact ⟨⟨0, other.passed_zero.symm⟩, .fail (not_isNumeral_unexpected _ _) hk⟩

end Operands

namespace Tracks

theorem expect (kind : Token.Kind) : Tracks (expect kind) (expect kind) := by
  refine get fun reader other hk => ite (by rw [hk.current]) advance ?_
  exact throw (not_isNumeral_unexpected _ _) _

theorem expectWith (kind : Token.Kind) (message : String) :
    Tracks (expectWith kind message) (expectWith kind message) := by
  refine get fun reader other hk => ite (by rw [hk.current]) advance ?_
  exact throw (not_isNumeral_detailed _ _ _) _

theorem leading : Tracks leading leading := by
  refine get fun reader other hk => ite (by rw [hk.current, hk.grammar]) operand ?_
  exact throw (not_isNumeral_detailed _ _ _) _

theorem operator : Tracks operator operator := by
  refine advance_bind fun token twin hk => ?_
  cases ht : twin.kind with
  | plus | minus | times =>
    simp only [hk, ht]
    exact pure _ _
  | _ =>
    simp only [hk, ht]
    exact throw (not_isNumeral_unexpected _ _) _

theorem extend (fuel : Nat) (floor : Power) (left right : Expr) :
    Tracks (extend fuel floor left) (extend fuel floor right) := by
  induction fuel generalizing floor left right with
  | zero => exact pure left right
  | succ fuel ih =>
    refine get fun reader other hk => ?_
    rw [hk.current, hk.grammar]
    dsimp only
    cases other.grammar.power? other.current.kind with
    | none => exact pure left right
    | some power =>
      refine ite Iff.rfl (pure left right) (ite Iff.rfl ?_ ?_)
      · exact throw (not_isNumeral_detailed _ _ _) _
      · exact operator.bind fun _ _ => leading.bind fun x y =>
          (ih power x y).bind fun _ _ => ih floor _ _

theorem expression (floor : Power) : Tracks (expression floor) (expression floor) := by
  refine leading.bind fun x y => get fun reader other hk => ?_
  rw [hk.budget]
  exact extend _ floor x y

theorem framed {α : Type} {first second third : Read Token} {finish : Token → Expr → α}
    (h₁ : Tracks first first) (h₂ : Tracks second second) (h₃ : Tracks third third) :
    Tracks (framed first second third finish) (framed first second third finish) :=
  h₁.bind fun _ _ => h₂.bind fun _ _ => (expression .base).bind fun _ _ => h₃.bind fun _ _ =>
    pure _ _

theorem declaration : Tracks declaration declaration :=
  framed (expect _) (expectWith _ _) (expect _)

theorem assignment : Tracks assignment assignment :=
  framed (expect _) (expectWith _ _) (expect _)

section Items

variable {block : Read (List Item)} {item : Read Item}

theorem otherwise (h : Tracks block block) (left right : Expr) (body other : List Item) :
    Tracks (otherwise block left body) (otherwise block right other) :=
  get fun reader other hk => ite (by rw [hk.current])
    (advance.bind fun _ _ => h.bind fun _ _ => pure _ _) (pure _ _)

theorem branchOf (h : Tracks block block) : Tracks (branchOf block) (branchOf block) := by
  rw [branchOf_eq]
  exact (framed (expect _) (expectWith _ _) (expectWith _ _)).bind fun x y =>
    h.bind fun body other => otherwise h x y body other

theorem itemOf (h : Tracks block block) : Tracks (itemOf block) (itemOf block) := by
  refine get fun reader other hk => ?_
  rw [hk.current, hk.grammar]
  cases other.grammar.form? other.current.kind with
  | none => exact throw (not_isNumeral_unexpected _ _) _
  | some form =>
    cases form with
    | declaration => exact declaration.map
    | assignment => exact assignment.map
    | branch => exact branchOf h

theorem itemsOf (h : Tracks item item) (fuel : Nat) :
    Tracks (itemsOf item fuel) (itemsOf item fuel) := by
  induction fuel with
  | zero => exact pure [] []
  | succ fuel ih =>
    refine get fun reader other hk => ite ?_ (h.bind fun _ _ => ih.bind fun _ _ => pure _ _)
      (pure [] [])
    rw [Reader.hasTokens, Reader.hasTokens, hk.current]

theorem braced {items : Read (List Item)} (h : Tracks items items) :
    Tracks (braced items) (braced items) :=
  (expect _).bind fun _ _ => h.bind fun _ _ => (expect _).bind fun _ _ => pure _ _

theorem blockWithin (fuel : Nat) : Tracks (blockWithin fuel) (blockWithin fuel) := by
  induction fuel with
  | zero => exact braced (pure [] [])
  | succ fuel ih => exact braced (itemsOf (itemOf ih) fuel)

end Items

theorem block : Tracks Reader.block Reader.block := by
  refine get fun reader other hk => ?_
  rw [hk.budget]
  exact blockWithin _

theorem selector : Tracks selector selector := by
  refine get fun reader other hk => ?_
  have hkind := hk.current
  cases ho : other.current.kind with
  | lowerName | className | idName | color =>
    rw [ho] at hkind
    simp only [hkind, ho]
    exact (pure _ _).bind fun x y => advance.bind fun _ _ => pure x y
  | _ =>
    rw [ho] at hkind
    simp only [hkind, ho]
    exact (throw (not_isNumeral_detailed _ _ _) _).bind fun x y =>
      advance.bind fun _ _ => pure x y

theorem optionalComma : Tracks optionalComma optionalComma :=
  get fun _ _ hk => ite (by rw [hk.current]) (advance.bind fun _ _ => pure _ _) (pure _ _)

theorem furtherSelectors (fuel : Nat) :
    Tracks (furtherSelectors fuel) (furtherSelectors fuel) := by
  induction fuel with
  | zero => exact pure [] []
  | succ fuel ih =>
    refine get fun reader other hk => ite (by rw [hk.current]) (pure [] []) ?_
    exact optionalComma.bind fun _ _ => selector.bind fun _ _ => ih.bind fun _ _ => pure _ _

theorem rule : Tracks rule rule := by
  refine selector.bind fun _ _ => get fun reader other hk => ?_
  rw [hk.budget]
  exact (furtherSelectors _).bind fun _ _ => block.bind fun _ _ => pure _ _

theorem member : Tracks Reader.member Reader.member :=
  get fun _ _ hk => ite (by rw [hk.current]) assignment.map rule.map

theorem membersWithin (fuel : Nat) : Tracks (membersWithin fuel) (membersWithin fuel) := by
  induction fuel with
  | zero => exact pure [] []
  | succ fuel ih =>
    refine get fun reader other hk => ite ?_ (member.bind fun _ _ => ih.bind fun _ _ => pure _ _)
      (pure [] [])
    rw [Reader.hasTokens, Reader.hasTokens, hk.current]

theorem sheet : Tracks Reader.sheet Reader.sheet := by
  refine get fun reader other hk => ?_
  rw [hk.budget]
  exact (membersWithin _).bind fun _ _ => pure _ _

end Tracks

end Reader

end TypedStyle
