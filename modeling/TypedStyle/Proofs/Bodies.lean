import TypedStyle.Proofs.Expressions
import TypedStyle.Proofs.Loops
import TypedStyle.Reader.Sheet

set_option autoImplicit false

namespace TypedStyle.Reader

/-- What declarations, assignments and the heads of branches have in common. -/
def framed {α : Type} (first second third : Read Token) (finish : Token → Expr → α) : Read α := do
  let token ← first
  let _ ← second
  let value ← expression .base
  let _ ← third
  return finish token value

section Framed

variable {α : Type} {first second third : Read Token} {finish : Token → Expr → α}
  {k₁ k₂ k₃ : Token.Kind} {ts tokens : List Token} {token stop : Token} {e : Expr}

theorem framed_reads (h₁ : Expects k₁ first) (h₂ : Expects k₂ second) (h₃ : Expects k₃ third)
    (hk : Grammar.standard.power? k₃ = none) (h : Phrase.Framed k₁ k₂ k₃ ts token e) :
    Reads (fun _ => framed first second third finish) ts stop (finish token e) := by
  cases h with
  | @intro _ s t ts _ hf hs he ht =>
    have hparts : token :: s :: ts ++ [t] = [token] ++ ([s] ++ (ts ++ ([t] ++ []))) := by simp
    have hlast : Reads (fun _ => third >>= fun _ => pure (finish token e)) ([t] ++ []) stop
        (finish token e) := .andThen (fun _ => h₃.reads ht) .pure
    rw [hparts]
    refine .andThen (fun _ => h₁.reads hf) (.andThen (fun _ => h₂.reads hs) (.bind ?_ hlast rfl))
    exact expression_reads he (rests_of_power?_eq_none (ht ▸ hk))

theorem framed_outcome (h₁ : Expects k₁ first) (h₂ : Expects k₂ second) (h₃ : Expects k₃ third)
    (hk₁ : k₁ ≠ .eof) (hk₂ : k₂ ≠ .eof) (hk₃ : k₃ ≠ .eof) (hc : Closed tokens) :
    Outcome (fun _ => framed first second third finish)
      (fun front _ result => ∃ token e, Phrase.Framed k₁ k₂ k₃ front token e ∧
        result = finish token e) tokens := by
  have hyes : Phrase.Expression 0 [.blank .trueWord] (.literal (.bool true)) := .operand (.yes rfl)
  refine h₁.bind hk₁ hc ?_ ?_
  · intro f rest hf hc _
    refine h₂.bind hk₂ hc ?_ ?_
    · intro s rest hs hc _
      refine .bind hc (expression_outcome .base hc) ?_ ?_
      · intro ts rest stop e _ hc he
        refine h₃.bind hk₃ hc ?_ ?_
        · intro t rest ht hc _
          exact .pure hc fun _ => ⟨f, e, .intro hf hs he.1 ht, rfl⟩
        · intro t ht
          exact ⟨[], .blank .eof, _, f, e, .intro hf hs he.1 ht, rfl⟩
      · intro ts stop e he
        have hw : Phrase.Framed k₁ k₂ k₃ (f :: s :: ts ++ [.blank k₃]) f e :=
          .intro hf hs he.1 rfl
        exact ⟨[.blank k₃], .blank .eof, _, f, e, hw, rfl⟩
    · intro s hs
      have hw : Phrase.Framed k₁ k₂ k₃ (f :: s :: [.blank .trueWord] ++ [.blank k₃]) f _ :=
        .intro hf hs hyes rfl
      exact ⟨[.blank .trueWord, .blank k₃], .blank .eof, _, f, _, hw, rfl⟩
  · intro f hf
    have hw : Phrase.Framed k₁ k₂ k₃ (f :: .blank k₂ :: [.blank .trueWord] ++ [.blank k₃]) f _ :=
      .intro hf rfl hyes rfl
    exact ⟨[.blank k₂, .blank .trueWord, .blank k₃], .blank .eof, _, f, _, hw, rfl⟩

end Framed

def otherwise (block : Read (List Item)) (condition : Expr) (body : List Item) : Read Item := do
  if (← get).current.kind = .elseWord then
    let _ ← advance
    let alternative ← block
    return .branch condition body (some alternative)
  else
    return .branch condition body none

theorem branchOf_eq (block : Read (List Item)) : branchOf block = (do
    let condition ← framed (expect .ifWord)
      (expectWith .openBracket "expected `[` before condition")
      (expectWith .closeBracket "expected `]` after condition") (fun _ condition => condition)
    let body ← block
    otherwise block condition body) := by
  simp only [branchOf, framed, otherwise, bind_assoc, pure_bind]

def itemFor (block : Read (List Item)) : Option Form → Read Item
  | some .declaration => .declaration <$> declaration
  | some .assignment => .assignment <$> assignment
  | some .branch => branchOf block
  | none => do throw (← get).unexpected

theorem itemOf_eq {block : Read (List Item)} {reader : Reader} {fuel : Fuel} {token : Token}
    {rest : List Token} (hb : reader.Before fuel (token :: rest)) :
    itemOf block reader = itemFor block (Grammar.standard.form? token.kind) reader := by
  rw [itemOf, Step.get_bind, hb.current, hb.grammar]
  cases Grammar.standard.form? token.kind with
  | none => rfl
  | some form => cases form <;> rfl

section Branch

variable {block : Fuel → Read (List Item)} {condition : Expr} {body other : List Item}
  {ts us tokens : List Token} {token stop : Token}

theorem otherwise_passes (hk : token.kind = .elseWord) :
    Passes token (fun fuel => otherwise (block fuel) condition body)
      (fun fuel => (fun other => .branch condition body (some other)) <$> block fuel) := by
  intro reader fuel next rest hb
  refine ⟨fuel, hb.next, ?_⟩
  show otherwise (block fuel) condition body reader = _
  rw [otherwise, Step.get_bind, hb.current, if_pos hk]
  simp only [bind_pure_comp]
  exact Step.bind_of_ok (advance_run reader)

theorem otherwise_reads_nil (hk : token.kind ≠ .elseWord) :
    Reads (fun fuel => otherwise (block fuel) condition body) [] token
      (.branch condition body none) := by
  intro reader fuel rest hb
  show otherwise (block fuel) condition body reader = _
  rw [otherwise, Step.get_bind, hb.current, if_neg hk]
  rfl

/-- What may follow the body of a branch, as far as it belongs to the branch. -/
def Otherwise (condition : Expr) (body : List Item) (ts : List Token) (item : Item) : Prop :=
  (ts = [] ∧ item = .branch condition body none) ∨
    ∃ word us other, ts = word :: us ∧ word.kind = .elseWord ∧ Phrase.Block us other ∧
      item = .branch condition body (some other)

theorem Otherwise.item {word : Token} {rest : List Token} {item : Item}
    (h : Otherwise condition body rest item)
    (hf : Phrase.Framed .ifWord .openBracket .closeBracket ts word condition)
    (hb : Phrase.Block us body) : Phrase.Item (ts ++ (us ++ rest)) item := by
  obtain ⟨hr, hi⟩ | ⟨mark, vs, other, hr, hk, ho, hi⟩ := h
  · subst hr hi
    rw [List.append_nil]
    exact .branch hf hb
  · subst hr hi
    exact .alternative hf hb hk ho

theorem block_blank : Phrase.Block [.blank .openCurly, .blank .closeCurly] [] :=
  Phrase.Block.braces rfl .nil rfl

theorem otherwise_outcome (hc : Closed tokens)
    (hx : ∀ {rest}, Closed rest → rest.length < tokens.length →
      Outcome block (fun front _ => Phrase.Block front) rest) :
    Outcome (fun fuel => otherwise (block fuel) condition body)
      (fun front _ => Otherwise condition body front) tokens := by
  obtain ⟨token, rest, rfl⟩ := hc.exists_cons
  by_cases hk : token.kind = .elseWord
  · obtain ⟨next, more, rfl⟩ := hc.exists_next (by rw [hk]; decide)
    have hb := hx hc.tail (by simp)
    exact (otherwise_passes hk).outcome
      (hb.map fun hp => .inr ⟨token, _, _, rfl, hk, hp, rfl⟩)
  · exact .read rfl (otherwise_reads_nil hk) (.inl ⟨rfl, rfl⟩)

theorem branchOf_outcome (hc : Closed tokens)
    (hx : ∀ {rest}, Closed rest → rest.length < tokens.length →
      Outcome block (fun front _ => Phrase.Block front) rest) :
    Outcome (fun fuel => branchOf (block fuel)) (fun front _ => Phrase.Item front) tokens := by
  simp only [branchOf_eq]
  refine .bind hc (framed_outcome .plain .detailed .detailed (by decide) (by decide) (by decide) hc)
    ?_ ?_
  · intro ts rest stop condition hl hc hp
    obtain ⟨word, e, hf, he⟩ := hp
    subst he
    obtain ⟨inner, rfl, _⟩ := hf.head
    rw [List.length_cons] at hl
    refine .bind hc (hx hc (by omega)) ?_ ?_
    · intro us rest stop body hl hc hb
      exact (otherwise_outcome hc fun hr hlt => hx hr (by omega)).mono fun ho => ho.item hf hb
    · intro us stop body hb
      have ho : Otherwise condition body [] _ := .inl ⟨rfl, rfl⟩
      exact ⟨[], .blank .eof, _, by simpa using ho.item hf hb⟩
  · intro ts stop condition hp
    obtain ⟨word, e, hf, _⟩ := hp
    exact ⟨_, .blank .eof, _, .branch hf block_blank⟩

end Branch

section Items

variable {ts us tokens : List Token} {token stop : Token} {item : Item}

def itemsWithin (fuel : Fuel) : Read (List Item) :=
  itemsOf (itemOf (blockWithin fuel.depth)) fuel.width

def Goes (token : Token) : Prop :=
  token.kind ≠ .eof ∧ token.kind ≠ .closeCurly

theorem itemsWithin_loop : Loop itemsWithin (fun fuel => itemOf (blockWithin fuel.depth)) Goes := by
  constructor
  · intro reader fuel token rest hb hg
    have hcond : ¬(token.kind != .eof && token.kind != .closeCurly) = true := by
      simpa [Goes] using hg
    rw [itemsWithin]
    cases fuel.width with
    | zero => rfl
    | succ n =>
      rw [itemsOf, Step.get_bind, hasTokens, hb.current, if_neg hcond]
      rfl
  · intro reader fuel token rest hb hg
    obtain ⟨n, hn⟩ := hb.exists_width hg.1
    have hcond : (token.kind != .eof && token.kind != .closeCurly) = true := by
      simpa [Goes] using hg
    rw [itemsWithin, hn, itemsOf, Step.get_bind, hasTokens, hb.current, if_pos hcond,
      itemsWithin, Fuel.less, hn]
    rfl

theorem blockWithin_passes (hk : token.kind = .openCurly) :
    Passes token (fun fuel => blockWithin fuel.depth) (fun fuel => do
      let body ← itemsWithin fuel
      let _ ← expect .closeCurly
      return body) := by
  intro reader fuel next rest hb
  have hpos := hb.ahead_pos (by rw [hk]; decide)
  have hd := hb.depth
  obtain ⟨n, hn⟩ := hb.exists_depth (by rw [hk]; decide)
  have hp := hb.next
  have hl : (reader.passed 1).ahead.length ≤ n := by
    simp only [passed, List.length_drop]
    omega
  -- the items have the depth that is left for their width as well
  refine ⟨⟨n, n⟩, ⟨hp.grammar, hl, hl, hp.stream⟩, ?_⟩
  show blockWithin fuel.depth reader = _
  rw [hn]
  exact Step.bind_of_ok (@Expects.reads _ _ .plain token next hk reader fuel rest hb)

theorem blockWithin_blames (hk : token.kind ≠ .openCurly) : ∃ failure,
    Blames (fun fuel => blockWithin fuel.depth) [] token failure ∧ failure.Names token := by
  obtain ⟨failure, hb, hf⟩ := Expects.plain.blames hk
  refine ⟨failure, ?_, hf⟩
  intro reader fuel rest hr
  show blockWithin fuel.depth reader = _
  cases fuel.depth with
  | zero => exact Step.bind_of_error (@hb reader fuel rest hr)
  | succ n => exact Step.bind_of_error (@hb reader fuel rest hr)

theorem itemOf_reads (form : Option Form) (hk : Grammar.standard.form? token.kind = form)
    (h : Reads (fun fuel => itemFor (blockWithin fuel.depth) form) ts stop item)
    (ht : (ts ++ [stop]).head? = some token) :
    Reads (fun fuel => itemOf (blockWithin fuel.depth)) ts stop item := by
  refine h.congr _ ht ?_
  intro reader fuel rest hb
  rw [itemOf_eq hb, hk]

theorem branchOf_reads {word : Token} {condition : Expr} {body : List Item}
    (hf : Phrase.Framed .ifWord .openBracket .closeBracket ts word condition)
    (hb : ∀ next, Reads (fun fuel => blockWithin fuel.depth) us next body)
    {more : List Token} (ho : Reads (fun fuel =>
      otherwise (blockWithin fuel.depth) condition body) more stop item) :
    Reads (fun fuel => branchOf (blockWithin fuel.depth)) (ts ++ (us ++ more)) stop item := by
  simp only [branchOf_eq]
  exact .andThen (fun _ => framed_reads .plain .detailed .detailed rfl hf) (.andThen hb ho)

theorem kind_ne_elseWord {body : List Item} {next : Token} (h : Phrase.Many Phrase.Item us body)
    (hs : stop.kind = .closeCurly) (hn : (us ++ [stop]).head? = some next) :
    next.kind ≠ .elseWord := by
  cases h with
  | nil =>
    obtain rfl : stop = next := by simpa using hn
    simp [hs]
  | cons hi _ =>
    obtain ⟨first, rest, rfl, hk⟩ := hi.head
    obtain rfl : first = next := by simpa using hn
    obtain hk | hk | hk := hk <;> simp [hk]

mutual

theorem reads_of_item {ts : List Token} {item : Item} {stop : Token} (hs : stop.kind ≠ .elseWord) :
    Phrase.Item ts item → Reads (fun fuel => itemOf (blockWithin fuel.depth)) ts stop item
  | .declaration h => by
    obtain ⟨rest, rfl, hk⟩ := h.head
    refine itemOf_reads (some .declaration) (by rw [hk]; rfl) (.map ?_) rfl
    exact framed_reads .plain .detailed .plain rfl h
  | .assignment h => by
    obtain ⟨rest, rfl, hk⟩ := h.head
    refine itemOf_reads (some .assignment) (by rw [hk]; rfl) (.map ?_) rfl
    exact framed_reads .plain .detailed .plain rfl h
  | .branch h hb => by
    obtain ⟨rest, rfl, hk⟩ := h.head
    have hbody := fun next => reads_of_block next hb
    have hr := branchOf_reads h hbody (otherwise_reads_nil hs)
    rw [List.append_nil] at hr
    exact itemOf_reads (some .branch) (by rw [hk]; rfl) hr rfl
  | .alternative h hb hk' ho => by
    obtain ⟨rest, rfl, hk⟩ := h.head
    have hbody := fun next => reads_of_block next hb
    have hr := branchOf_reads h hbody ((otherwise_passes hk').ends (reads_of_block stop ho).map)
    exact itemOf_reads (some .branch) (by rw [hk]; rfl) hr rfl

theorem reads_of_block {ts : List Token} {body : List Item} (stop : Token) :
    Phrase.Block ts body → Reads (fun fuel => blockWithin fuel.depth) ts stop body
  | .braces ho hi hc => by
    refine (blockWithin_passes ho).ends (.bind (reads_of_items hc hi) ?_ rfl)
    exact .andThen (fun _ => Expects.plain.reads hc) .pure

theorem reads_of_items {ts : List Token} {body : List Item} {stop : Token}
    (hs : stop.kind = .closeCurly) : Phrase.Many Phrase.Item ts body →
    Reads itemsWithin ts stop body
  | .nil => itemsWithin_loop.reads_nil (by simp [Goes, hs])
  | .cons hi hr => by
    obtain ⟨first, rest, rfl, hk⟩ := hi.head
    obtain ⟨next, _, he⟩ := List.exists_cons_of_ne_nil (List.append_ne_nil_of_right_ne_nil _
      (List.cons_ne_nil stop []))
    have hn := congrArg List.head? he
    have hg : Goes first := by
      obtain hk | hk | hk := hk <;> simp [Goes, hk]
    have hitem := reads_of_item (kind_ne_elseWord hr hs hn) hi
    exact itemsWithin_loop.ends_cons hitem hg (reads_of_items hs hr) hn

end

theorem item_blank : Phrase.Item [.blank .lowerName, .blank .colon, .blank .trueWord,
    .blank .semicolon] (.declaration ⟨"", .literal (.bool true), none⟩) :=
  .declaration (Phrase.Framed.intro rfl rfl (.operand (.yes rfl)) rfl)

theorem item_outcome (hc : Closed tokens)
    (hx : ∀ {rest}, Closed rest → rest.length < tokens.length →
      Outcome (fun fuel => blockWithin fuel.depth) (fun front _ => Phrase.Block front) rest) :
    Outcome (fun fuel => itemOf (blockWithin fuel.depth)) (fun front _ => Phrase.Item front)
      tokens := by
  obtain ⟨token, rest, rfl⟩ := hc.exists_cons
  -- the first token alone decides which form the item has
  have hturn : ∀ ⦃reader fuel rest⦄, Before reader fuel (token :: rest) →
      itemOf (blockWithin fuel.depth) reader =
        itemFor (blockWithin fuel.depth) (Grammar.standard.form? token.kind) reader := by
    intro reader fuel rest hb
    exact itemOf_eq hb
  refine .congr _ ?_ hturn
  cases Grammar.standard.form? token.kind with
  | none =>
    let failure : Failure := ⟨.unexpectedToken token.value, some token.span.start⟩
    have hnames : failure.Names token := ⟨rfl, rfl⟩
    refine .blame_first (.blank .eof) ?_ hnames item_blank
    intro reader fuel rest hb
    show EStateM.Result.error reader.unexpected reader = _
    rw [unexpected, hb.current]
    rfl
  | some form =>
    cases form with
    | declaration =>
      refine .map (framed_outcome .plain .detailed .plain (by decide) (by decide) (by decide) hc) ?_
      intro front stop d hp
      obtain ⟨name, e, hf, he⟩ := hp
      exact he ▸ .declaration hf
    | assignment =>
      refine .map (framed_outcome .plain .detailed .plain (by decide) (by decide) (by decide) hc) ?_
      intro front stop a hp
      obtain ⟨name, e, hf, he⟩ := hp
      exact he ▸ .assignment hf
    | branch => exact branchOf_outcome hc hx

theorem block_outcome (hc : Closed tokens) :
    Outcome (fun fuel => blockWithin fuel.depth) (fun front _ => Phrase.Block front) tokens := by
  -- a block in an item of this one stands behind the opening brace, so it has fewer tokens
  induction hn : tokens.length using Nat.strongRecOn generalizing tokens with
  | ind n ih =>
    obtain ⟨token, rest, rfl⟩ := hc.exists_cons
    by_cases hk : token.kind = .openCurly
    · obtain ⟨next, more, rfl⟩ := hc.exists_next (by rw [hk]; decide)
      have hmore := hc.tail
      rw [List.length_cons] at hn
      have hitems := itemsWithin_loop.outcome (next :: more).length
        ⟨.blank .closeCurly, by simp [Goes, Token.blank]⟩
        (fun hi => by obtain ⟨_, _, rfl, _⟩ := hi.head; simp)
        (fun hc hl => item_outcome hc fun hr hlt => ih _ (by omega) hr rfl) hmore (Nat.le_refl _)
      refine (blockWithin_passes hk).outcome (.bind hmore hitems ?_ ?_)
      · intro ts rest stop body _ hc hi
        refine Expects.plain.bind (by decide) hc ?_ ?_
        · intro close rest hclose hc _
          exact .pure hc fun _ => .braces hk hi.1 hclose
        · intro close hclose
          exact ⟨[], .blank .eof, _, .braces hk hi.1 hclose⟩
      · intro ts stop body hi
        exact ⟨[.blank .closeCurly], .blank .eof, _, .braces hk hi.1 rfl⟩
    · obtain ⟨failure, hb, hf⟩ := blockWithin_blames hk
      exact .blame_first (.blank .eof) hb hf block_blank

end Items

end TypedStyle.Reader
