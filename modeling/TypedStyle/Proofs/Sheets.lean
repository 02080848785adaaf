import TypedStyle.Proofs.Bodies

set_option autoImplicit false

namespace TypedStyle.Reader

variable {ts us tokens : List Token} {token next stop : Token}

section Selectors

variable {s : Selector} {ss : List Selector}

theorem selector_run {reader : Reader} (h : Phrase.Selector reader.current s) :
    selector reader = .ok s (reader.passed 1) := by
  have hp : (advance >>= fun _ => pure s : Read Selector) reader = .ok s (reader.passed 1) :=
    Step.bind_of_ok (advance_run reader)
  rw [selector, Step.get_bind]
  cases h with
  | tag hk | className hk | idName hk | color hk => simp only [hk]; exact hp

theorem selector_reads (h : Phrase.Selector token s) :
    Reads (fun _ => selector) [token] next s := by
  intro reader fuel rest hb
  exact selector_run (hb.current ▸ h)

theorem selector_total (token : Token) : (∃ s, Phrase.Selector token s) ∨
    ∃ failure, Blames (fun _ => selector) [] token failure ∧ failure.Names token := by
  cases hk : token.kind with
  | lowerName => exact .inl ⟨_, .tag hk⟩
  | className => exact .inl ⟨_, .className hk⟩
  | idName => exact .inl ⟨_, .idName hk⟩
  | color => exact .inl ⟨_, .color hk⟩
  | _ =>
    refine .inr ⟨⟨.unexpectedTokenDetailed token.value "expected a selector",
      some token.span.start⟩, ?_, rfl, rfl⟩
    intro reader fuel rest hb
    show selector reader = _
    rw [selector, Step.get_bind, unexpectedWith, hb.current]
    simp only [hk]
    rfl

theorem selector_outcome (hc : Closed tokens) : Outcome (fun _ => selector)
    (fun front _ s => ∃ token, front = [token] ∧ Phrase.Selector token s) tokens :=
  .single hc (fun _ _ h => h.kind_ne_eof) (fun _ _ _ h => selector_reads h) selector_total
    ⟨.blank .lowerName, _, .tag rfl⟩

def furtherSelector : Read Selector := do
  optionalComma
  selector

theorem furtherSelector_eq {reader : Reader} (hk : reader.current.kind ≠ .comma) :
    furtherSelector reader = selector reader := by
  have hc : optionalComma reader = .ok () reader := by
    rw [optionalComma, Step.get_bind, if_neg hk]
    rfl
  exact Step.bind_of_ok hc

theorem furtherSelector_passes (hk : token.kind = .comma) :
    Passes token (fun _ => furtherSelector) (fun _ => selector) := by
  intro reader fuel next rest hb
  refine ⟨fuel, hb.next, ?_⟩
  have hc : optionalComma reader = .ok () (reader.passed 1) := by
    rw [optionalComma, Step.get_bind, hb.current, if_pos hk]
    exact Step.bind_of_ok (advance_run reader)
  exact Step.bind_of_ok hc

theorem selector_kind_ne_comma (h : Phrase.Selector token s) : token.kind ≠ .comma := by
  cases h with
  | tag hk | className hk | idName hk | color hk => simp [hk]

theorem furtherSelector_reads (h : Phrase.Further ts s) :
    Reads (fun _ => furtherSelector) ts stop s := by
  cases h with
  | comma hk h => exact (furtherSelector_passes hk).ends (selector_reads h)
  | plain h =>
    refine (selector_reads h).congr _ rfl ?_
    intro reader fuel rest hb
    exact furtherSelector_eq (hb.current ▸ selector_kind_ne_comma h)

theorem furtherSelector_outcome (hc : Closed tokens) :
    Outcome (fun _ => furtherSelector) (fun front _ => Phrase.Further front) tokens := by
  obtain ⟨token, rest, rfl⟩ := hc.exists_cons
  by_cases hk : token.kind = .comma
  · obtain ⟨next, more, rfl⟩ := hc.exists_next (by rw [hk]; decide)
    refine (furtherSelector_passes hk).outcome
      ((selector_outcome hc.tail).mono ?_)
    intro front stop s hp
    obtain ⟨mark, he, h⟩ := hp
    exact he ▸ .comma hk h
  · refine .congr _ ((selector_outcome hc).mono ?_) fun reader fuel rest hb =>
      furtherSelector_eq (hb.current ▸ hk)
    intro front stop s hp
    obtain ⟨mark, he, h⟩ := hp
    exact he ▸ .plain h

theorem furtherSelector_blames_eof (he : token.kind = .eof) :
    ∃ failure, Blames (fun _ => furtherSelector) [] token failure := by
  obtain ⟨s, h⟩ | ⟨failure, h, _⟩ := selector_total token
  · exact absurd he h.kind_ne_eof
  · refine ⟨failure, h.congr _ rfl fun reader fuel rest hb => furtherSelector_eq ?_⟩
    rw [hb.current, he]
    decide

end Selectors

section Rules

variable {ss : List Selector} {member : Member}

/-- The further selectors of a rule. One turn more than there are tokens is of use, since there
must be one also in front of the last token. -/
def furtherWithin (fuel : Fuel) : Read (List Selector) :=
  furtherSelectors (fuel.width + 1)

theorem furtherWithin_loop :
    Loop furtherWithin (fun _ => furtherSelector) (fun token => token.kind ≠ .openCurly) := by
  constructor
  · intro reader fuel token rest hb hg
    have hk : reader.current.kind = .openCurly := hb.current ▸ Classical.not_not.mp hg
    rw [furtherWithin, furtherSelectors, Step.get_bind, if_pos hk]
    rfl
  · intro reader fuel token rest hb hg
    have hk : ¬reader.current.kind = .openCurly := hb.current ▸ hg
    have hturn : furtherWithin fuel reader = (do
        let first ← furtherSelector
        let others ← furtherSelectors fuel.width
        return first :: others : Read _) reader := by
      rw [furtherWithin, furtherSelectors, Step.get_bind, if_neg hk]
      simp only [furtherSelector, bind_assoc]
    refine hturn.trans ?_
    by_cases he : token.kind = .eof
    · -- the last turn has no fuel left, and fails like any other in front of the last token
      obtain ⟨failure, hf⟩ := furtherSelector_blames_eof he
      exact (Step.bind_of_error (@hf reader fuel rest hb)).trans
        (Step.bind_of_error (@hf reader fuel rest hb)).symm
    · obtain ⟨n, hn⟩ := hb.exists_width he
      rw [furtherWithin, Fuel.less, hn]
      rfl

def further : Read (List Selector) := do
  furtherSelectors ((← get).budget + 1)

theorem further_budgeted : Budgeted further furtherWithin := by
  intro reader _
  rfl

theorem block_budgeted : Budgeted block (fun fuel => blockWithin fuel.depth) := by
  intro reader _
  rfl

theorem rule_eq : rule = (do
    let first ← selector
    let rest ← further
    let body ← block
    return ⟨first :: rest, body⟩) := by
  simp only [rule, further, bind_assoc]

theorem member_eq {reader : Reader} {fuel : Fuel} {rest : List Token}
    (hb : reader.Before fuel (token :: rest)) : Reader.member reader =
      (if token.kind = .capitalName then .assignment <$> assignment else .rule <$> rule :
        Read Member) reader := by
  rw [Reader.member, Step.get_bind, hb.current]

theorem furtherSelector_head {s : Selector} (h : Phrase.Further ts s) :
    ∃ token rest, ts = token :: rest ∧ token.kind ≠ .openCurly := by
  cases h with
  | comma hk _ => exact ⟨_, _, rfl, by simp [hk]⟩
  | plain h =>
    refine ⟨_, _, rfl, ?_⟩
    cases h with
    | tag hk | className hk | idName hk | color hk => simp [hk]

theorem further_reads (h : Phrase.Many Phrase.Further ts ss) (hs : stop.kind = .openCurly) :
    Reads (fun _ => further) ts stop ss := by
  refine further_budgeted.ends (furtherWithin_loop.reads h ?_ (by simp [hs]))
  intro us s hf
  obtain ⟨token, rest, rfl, hk⟩ := furtherSelector_head hf
  exact ⟨token, rest, rfl, hk, fun _ => furtherSelector_reads hf⟩

theorem rule_reads {s : Selector} {body : List Item} (hs : Phrase.Selector token s)
    (hf : Phrase.Many Phrase.Further ts ss) (hb : Phrase.Block us body) :
    Reads (fun _ => rule) (token :: (ts ++ us)) stop ⟨s :: ss, body⟩ := by
  have hblock : ∀ next, Reads (fun _ => block) us next body := fun next =>
    block_budgeted.ends (reads_of_block next hb)
  obtain ⟨first, rest, rfl, hk⟩ := hb.head
  have hparts : token :: (ts ++ first :: rest) = [token] ++ (ts ++ (first :: rest ++ [])) := by
    simp
  rw [hparts, rule_eq]
  refine .andThen (fun _ => selector_reads hs) (.bind (further_reads hf hk) ?_ rfl)
  exact .andThen hblock .pure

theorem member_reads (h : Phrase.Member ts member) :
    Reads (fun _ => Reader.member) ts stop member := by
  cases h with
  | assignment h =>
    obtain ⟨rest, rfl, hk⟩ := h.head
    refine Ends.congr (fun _ => .assignment <$> assignment) (.map ?_) rfl ?_
    · exact framed_reads .plain .detailed .plain rfl h
    · intro reader fuel rest hb
      rw [member_eq hb, if_pos hk]
  | @rule t _ _ _ _ _ hs hf hb =>
    have hk : t.kind ≠ .capitalName := by
      cases hs with
      | tag hk | className hk | idName hk | color hk => simp [hk]
    refine Ends.congr (fun _ => .rule <$> rule) (.map (rule_reads hs hf hb)) rfl ?_
    intro reader fuel rest hb
    rw [member_eq hb, if_neg hk]

def membersIn (fuel : Fuel) : Read (List Member) :=
  membersWithin fuel.width

theorem membersIn_loop :
    Loop membersIn (fun _ => Reader.member) (fun token => token.kind ≠ .eof) := by
  constructor
  · intro reader fuel token rest hb hg
    have hcond : ¬(token.kind != .eof) = true := by simpa using hg
    rw [membersIn]
    cases fuel.width with
    | zero => rfl
    | succ n =>
      rw [membersWithin, Step.get_bind, hasTokens, hb.current, if_neg hcond]
      rfl
  · intro reader fuel token rest hb hg
    obtain ⟨n, hn⟩ := hb.exists_width hg
    have hcond : (token.kind != .eof) = true := by simpa using hg
    rw [membersIn, hn, membersWithin, Step.get_bind, hasTokens, hb.current, if_pos hcond,
      membersIn, Fuel.less, hn]
    rfl

theorem sheet_budgeted : Budgeted Reader.sheet (fun fuel => Sheet.mk <$> membersIn fuel) := by
  intro reader _
  rfl

theorem sheet_reads {sheet : Sheet} (h : Phrase.Sheet ts sheet) (hs : stop.kind = .eof) :
    Reads (fun _ => Reader.sheet) ts stop sheet := by
  have hm : Reads membersIn ts stop sheet.members := by
    refine membersIn_loop.reads h ?_ (by simp [hs])
    intro us member hm
    obtain ⟨token, rest, rfl⟩ := List.exists_cons_of_ne_nil hm.ne_nil
    exact ⟨token, rest, rfl, hm.inner token (by simp), fun _ => member_reads hm⟩
  have hs : Reads (fun fuel => Sheet.mk <$> membersIn fuel) ts stop sheet := hm.map
  exact sheet_budgeted.ends hs

theorem rule_outcome (hc : Closed tokens) : Outcome (fun _ => rule)
    (fun front _ result => ∃ token ts us s ss body, front = token :: (ts ++ us) ∧
      Phrase.Selector token s ∧ Phrase.Many Phrase.Further ts ss ∧ Phrase.Block us body ∧
      result = ⟨s :: ss, body⟩) tokens := by
  rw [rule_eq]
  refine .bind hc (selector_outcome hc) ?_ ?_
  · intro front rest stop s _ hc hp
    obtain ⟨token, he, hs⟩ := hp
    subst he
    have hfurther := furtherWithin_loop.outcome _ ⟨.blank .openCurly, by simp [Token.blank]⟩
      Phrase.Further.ne_nil (fun hc _ => furtherSelector_outcome hc) hc (Nat.le_refl _)
    refine .bind hc (further_budgeted.outcome hfurther) ?_ ?_
    · intro ts rest stop ss _ hc hf
      refine .bind hc (block_budgeted.outcome (block_outcome hc)) ?_ ?_
      · intro us rest stop body _ hc hb
        exact .pure hc fun _ => ⟨token, ts, us, s, ss, body, by simp, hs, hf.1, hb, rfl⟩
      · intro us stop body hb
        exact ⟨[], .blank .eof, _, token, ts, us, s, ss, body, by simp, hs, hf.1, hb, rfl⟩
    · intro ts stop ss hf
      exact ⟨_, .blank .eof, _, token, ts, _, s, ss, _, rfl, hs, hf.1, block_blank, rfl⟩
  · intro front stop s hp
    obtain ⟨token, he, hs⟩ := hp
    subst he
    exact ⟨_, .blank .eof, _, token, [], _, s, [], _, rfl, hs, .nil, block_blank, rfl⟩

theorem member_outcome (hc : Closed tokens) :
    Outcome (fun _ => Reader.member) (fun front _ => Phrase.Member front) tokens := by
  obtain ⟨token, rest, rfl⟩ := hc.exists_cons
  refine .congr (fun _ => if token.kind = .capitalName then .assignment <$> assignment
    else .rule <$> rule) ?_ fun reader fuel rest hb => member_eq hb
  by_cases hk : token.kind = .capitalName
  · simp only [if_pos hk]
    refine .map (framed_outcome .plain .detailed .plain (by decide) (by decide) (by decide) hc) ?_
    intro front stop a hp
    obtain ⟨name, e, hf, he⟩ := hp
    exact he ▸ .assignment hf
  · simp only [if_neg hk]
    refine .map (rule_outcome hc) ?_
    intro front stop r hp
    obtain ⟨first, ts, us, s, ss, body, hfront, hs, hf, hb, he⟩ := hp
    subst hfront he
    exact .rule hs hf hb

theorem sheet_outcome (hc : Closed tokens) : Outcome (fun _ => Reader.sheet)
    (fun front stop sheet => Phrase.Sheet front sheet ∧ stop.kind = .eof) tokens := by
  refine sheet_budgeted.outcome (.map (membersIn_loop.outcome _
    ⟨.blank .eof, by simp [Token.blank]⟩ Phrase.Member.ne_nil (fun hc _ => member_outcome hc) hc
    (Nat.le_refl _)) ?_)
  intro front stop members hm
  exact ⟨hm.1, Classical.not_not.mp hm.2⟩

end Rules

end TypedStyle.Reader
