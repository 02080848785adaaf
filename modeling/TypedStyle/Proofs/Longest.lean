import TypedStyle.Proofs.Gaps

/-!
Whether the first pattern that finds anything finds the longest piece.
-/

set_option autoImplicit false

namespace TypedStyle.Token

/-- Six hexadecimal digits, none of them a capital, with a dash behind them: a colour and the
beginning of a longer id. -/
def DashedColor (cs : List Char) : Prop :=
  ∃ digits rest, cs = '#' :: (digits ++ '-' :: rest) ∧ Lexeme.color ('#' :: digits) = true ∧
    digits.all isNameChar = true

namespace Pattern

def Longest (cs lexeme : List Char) : Prop :=
  ∀ other ∈ table, ∀ found, other.lexeme? cs = some found → found.length ≤ lexeme.length

/-- Where both patterns find something, the first one finds no less. -/
def Outruns (cs : List Char) (first second : Pattern) : Prop :=
  ∀ lexeme other, first.lexeme? cs = some lexeme → second.lexeme? cs = some other →
    other.length ≤ lexeme.length

section Order

variable {c : Char} {cs lexeme : List Char}

theorem longest_of_outruns {pattern : Pattern}
    (hp : (candidates c).Pairwise (Outruns (c :: cs)))
    (h : first? (c :: cs) = some (pattern, lexeme)) : Longest (c :: cs) lexeme := by
  intro other hm found ho
  have hother : other ∈ candidates c := List.mem_filter.mpr ⟨hm, opens_of_lexeme? ho⟩
  rw [first?_cons, List.findSome?_eq_some_iff] at h
  obtain ⟨before, found', after, hsplit, hfound, hbefore⟩ := h
  obtain ⟨lexeme', hl, he⟩ := Option.map_eq_some_iff.mp hfound
  cases he
  rw [hsplit] at hp hother
  rw [List.pairwise_append, List.pairwise_cons] at hp
  -- a pattern before the first one would have been the first
  rcases List.mem_append.mp hother with hb | ha
  · have hnone := hbefore other hb
    rw [ho] at hnone
    cases hnone
  · rcases List.mem_cons.mp ha with rfl | ha
    · rw [hl] at ho
      cases ho
      exact Nat.le_refl _
    · exact hp.2.1.1 other ha lexeme found hl ho

theorem Outruns.refl (cs : List Char) (pattern : Pattern) : Outruns cs pattern pattern := by
  intro lexeme other hl ho
  rw [hl] at ho
  cases ho
  exact Nat.le_refl _

theorem lt_of_mark {head : Char} {tail : List Char} {kind : Kind}
    (h : .mark head tail kind ∈ table) : head.toNat < 128 := by
  have hall : (table.all fun
    | .mark head _ _ => head.toNat < 128
    | _ => true) = true := by decide
  simpa using List.all_eq_true.mp hall _ h

theorem lt_of_opens {pattern : Pattern} (hm : pattern ∈ table) (hb : pattern ≠ .blanks)
    (ho : pattern.opens c = true) : c.toNat < 128 := by
  cases pattern with
  | blanks => exact absurd rfl hb
  | mark head tail kind =>
    obtain rfl : c = head := beq_iff_eq.mp ho
    exact lt_of_mark hm
  | pixelSize | percentage | scalar | capitalName | lowerName =>
    exact lt_of_isAlphanum (by simp_all [opens, isAlphanum_iff])
  | _ =>
    obtain rfl := beq_iff_eq.mp ho
    decide

theorem few_candidates_ofNat : ∀ n < 128, (candidates (Char.ofNat n)).length ≤ 1 ∨
    (Char.ofNat n).isDigit = true ∨ Char.ofNat n ∈ ['/', '#', ':'] := by
  decide

theorem few_candidates (c : Char) : (∀ pattern ∈ candidates c, ∀ other ∈ candidates c,
    pattern = other) ∨ c.isDigit = true ∨ c ∈ ['/', '#', ':'] := by
  by_cases hc : c.toNat < 128
  · have hfew := few_candidates_ofNat c.toNat hc
    rw [Char.ofNat_toNat] at hfew
    refine hfew.imp_left fun hlen pattern hp other ho => ?_
    match candidates c, hlen, hp, ho with
    | [_], _, hp, ho => rw [List.mem_singleton.mp hp, List.mem_singleton.mp ho]
  · have hblanks : ∀ pattern ∈ candidates c, pattern = .blanks := by
      intro pattern hp
      obtain ⟨hm, ho⟩ := List.mem_filter.mp hp
      by_contra hb
      exact hc (lt_of_opens hm hb ho)
    exact .inl fun pattern hp other ho => (hblanks pattern hp).trans (hblanks other ho).symm

theorem candidates_colon : candidates ':' = [.mark ':' ['='] .assign, .mark ':' [] .colon] := by
  decide

theorem eq_of_digits {ending : List Char}
    (h : followedBy (run? Char.isDigit) (exactly? ending) cs = some lexeme) :
    lexeme = cs.takeWhile Char.isDigit ++ ending := by
  obtain ⟨digits, tail, hd, ht, rfl⟩ := followedBy_eq_some_iff.mp h
  simp only [exactly?, Option.ite_none_right_eq_some, Option.some.injEq] at ht
  rw [(run?_eq_some_iff.mp hd).1, ht.2]

theorem outruns_digits (cs : List Char) :
    [Pattern.pixelSize, .percentage, .scalar].Pairwise (Outruns cs) := by
  have hscalar : ∀ {text}, Pattern.scalar.lexeme? cs = some text →
      text = cs.takeWhile Char.isDigit := fun h => (run?_eq_some_iff.mp h).1.symm
  simp only [List.pairwise_cons, List.forall_mem_cons, List.not_mem_nil, false_imp_iff,
    implies_true, and_true, List.Pairwise.nil]
  refine ⟨⟨fun text other ht ho => ?_, fun text other ht ho => ?_⟩, fun text other ht ho => ?_⟩
  · rw [eq_of_digits ht, eq_of_digits ho]
    simp
  · rw [eq_of_digits ht, hscalar ho]
    simp
  · rw [eq_of_digits ht, hscalar ho]
    simp

theorem outruns_comments (cs : List Char) : Outruns cs .blockComment .lineComment := by
  intro text other ht ho
  obtain ⟨body, rfl, -⟩ := shape_of_lexeme? ht
  obtain ⟨line, rfl, -⟩ := shape_of_lexeme? ho
  obtain ⟨rest, rfl⟩ := isPrefix_of_lexeme? _ _ _ ht
  obtain ⟨rest', hr⟩ := isPrefix_of_lexeme? _ _ _ ho
  injection hr with _ hr
  injection hr with hr _
  exact absurd hr (by decide)

theorem outruns_colons (cs : List Char) :
    Outruns cs (.mark ':' ['='] .assign) (.mark ':' [] .colon) := by
  intro text other ht ho
  rw [show text = [':', '='] from shape_of_lexeme? ht, show other = [':'] from shape_of_lexeme? ho]
  decide

/-- A colour and the beginning of an id are cut off the same text; the id is longer if it goes on
behind the colour, which only a dash can do. -/
theorem outruns_hash (h : ¬DashedColor cs) : Outruns cs .color .idName := by
  intro text other ht ho
  obtain ⟨rest, digits, rfl, hs, rfl⟩ := of_followedBy_exactly? ht
  obtain ⟨_, name, he, hn, rfl⟩ := of_followedBy_exactly? ho
  cases he
  simp only [sixHexDigits?, Option.ite_none_right_eq_some, Option.some.injEq] at hs
  obtain ⟨⟨hlen, hhex, hword⟩, rfl⟩ := hs
  obtain ⟨more, rfl⟩ := initial_run? _ _ _ hn
  have hall := List.all_eq_true.mp (of_run? hn).2
  by_contra hlt
  simp only [List.length_cons, hlen] at hlt
  rw [List.take_append_of_le_length (by omega)] at hlen hhex
  rw [List.drop_append_of_le_length (by omega)] at hword
  obtain ⟨c, further, hdrop⟩ := List.exists_cons_of_ne_nil
    (List.ne_nil_of_length_pos (show 0 < (name.drop 6).length by rw [List.length_drop]; omega))
  have hname : name = name.take 6 ++ c :: further := by rw [← hdrop, List.take_append_drop]
  have hdash : c = '-' := by
    by_contra hc
    have hmem : c ∈ name := List.mem_of_mem_drop (hdrop ▸ List.mem_cons_self)
    rw [hdrop] at hword
    exact hword (by simpa using isWord_of_isAlphanum (isAlphanum_of_isNameChar (hall c hmem) hc))
  refine h ⟨name.take 6, further ++ more, ?_, ?_, ?_⟩
  · conv_lhs => rw [hname]
    rw [hdash, List.append_assoc, List.cons_append]
  · simp only [Lexeme.color, hlen, hhex, beq_self_eq_true, Bool.and_self]
  · exact List.all_eq_true.mpr fun d hd => hall d (List.mem_of_mem_take hd)

theorem pairwise_candidates (h : ¬DashedColor (c :: cs)) :
    (candidates c).Pairwise (Outruns (c :: cs)) := by
  rcases few_candidates c with heq | hd | hm
  · refine List.pairwise_of_forall_mem_list fun pattern hp other ho => ?_
    rw [heq pattern hp other ho]
    exact .refl _ _
  · rw [candidates_of_isDigit hd]
    exact outruns_digits _
  · have hpair : ∀ {first second : Pattern}, Outruns (c :: cs) first second →
        [first, second].Pairwise (Outruns (c :: cs)) := by
      intro first second ho
      simpa using ho
    simp only [List.mem_cons, List.not_mem_nil, or_false] at hm
    rcases hm with rfl | rfl | rfl
    · rw [candidates_slash]
      exact hpair (outruns_comments _)
    · rw [Found.candidates_hash]
      exact hpair (outruns_hash h)
    · rw [candidates_colon]
      exact hpair (outruns_colons _)

theorem longest_of_first? {pattern : Pattern} (h : first? cs = some (pattern, lexeme))
    (hd : ¬DashedColor cs) : Longest cs lexeme := by
  cases cs with
  | nil =>
    obtain ⟨hne, rest, he⟩ := first?_eq_append h
    exact absurd (List.append_eq_nil_iff.mp he.symm).1 hne
  | cons c cs => exact longest_of_outruns (pairwise_candidates hd) h

end Order

section Dashed

variable {cs name rest : List Char}

theorem idName_lexeme? (hn : name.all isNameChar = true) (hne : name ≠ [])
    (hr : ∀ c ∈ rest.head?, isNameChar c = false) :
    Pattern.idName.lexeme? ('#' :: (name ++ rest)) = some ('#' :: name) := by
  have hhash := followedBy_append (exactly?_append ['#'] (name ++ rest)) (run? isNameChar)
  rw [run?_append hne (List.all_eq_true.mp hn) hr] at hhash
  exact hhash

theorem first?_of_dashed (h : DashedColor cs) :
    ∃ digits more, first? cs = some (.color, '#' :: digits) ∧
      Pattern.idName.lexeme? cs = some ('#' :: (digits ++ '-' :: more)) := by
  obtain ⟨digits, rest, rfl, hc, hn⟩ := h
  have hdash : isNameChar '-' = true := by decide
  have hcolor : first? ('#' :: (digits ++ '-' :: rest)) = some (.color, '#' :: digits) :=
    Found.first?_color hc (show Text.isWord '-' = false by decide)
  refine ⟨digits, rest.takeWhile isNameChar, hcolor, ?_⟩
  have hall : (digits ++ '-' :: rest.takeWhile isNameChar).all isNameChar = true := by
    rw [List.all_append, List.all_cons, hn, hdash, List.all_takeWhile]
    rfl
  have hrun : (rest.takeWhile isNameChar ++ rest.dropWhile isNameChar).takeWhile isNameChar =
      rest.takeWhile isNameChar := by rw [List.takeWhile_append_dropWhile]
  have hid := idName_lexeme? hall (by simp) (head_of_takeWhile hrun)
  rwa [List.append_assoc, List.cons_append, List.takeWhile_append_dropWhile] at hid

theorem length_lt_of_dashed {pattern : Pattern} {lexeme : List Char} (hd : DashedColor cs)
    (h : first? cs = some (pattern, lexeme)) :
    ∃ name, Pattern.idName.lexeme? cs = some name ∧ lexeme.length < name.length := by
  obtain ⟨digits, more, hc, hi⟩ := first?_of_dashed hd
  rw [hc] at h
  cases h
  refine ⟨_, hi, ?_⟩
  simp only [List.length_cons, List.length_append]
  omega

theorem not_longest_of_dashed {pattern : Pattern} {lexeme : List Char} (hd : DashedColor cs)
    (h : first? cs = some (pattern, lexeme)) : ¬Longest cs lexeme := by
  obtain ⟨name, hi, hlt⟩ := length_lt_of_dashed hd h
  exact fun hl => absurd (hl .idName (by decide) name hi) (Nat.not_le_of_lt hlt)

end Dashed

/-- The first piece is the longest one just where no colour with a dash behind it starts, and just
there it goes to the end of an id at least. -/
theorem longest_iff (cs : List Char) :
    (∀ pattern lexeme, first? cs = some (pattern, lexeme) →
      (Longest cs lexeme ↔ ¬DashedColor cs)) ∧
    ∀ name rest, cs = '#' :: (name ++ rest) → name ≠ [] → name.all isNameChar = true →
      (∀ c ∈ rest.head?, isNameChar c = false) →
      ((∃ pattern lexeme, first? cs = some (pattern, lexeme) ∧ '#' :: name <+: lexeme) ↔
        ¬DashedColor cs) := by
  have hlongest : ∀ pattern lexeme, first? cs = some (pattern, lexeme) →
      (Longest cs lexeme ↔ ¬DashedColor cs) := fun pattern lexeme h =>
    ⟨fun hl hd => not_longest_of_dashed hd h hl, longest_of_first? h⟩
  refine ⟨hlongest, fun name rest hcs hne hn hr => ?_⟩
  have hid : Pattern.idName.lexeme? cs = some ('#' :: name) := hcs ▸ idName_lexeme? hn hne hr
  constructor
  · rintro ⟨pattern, lexeme, h, hp⟩ hd
    obtain ⟨found, hi, hlt⟩ := length_lt_of_dashed hd h
    rw [hid] at hi
    cases hi
    exact absurd hp.length_le (Nat.not_le_of_lt hlt)
  · intro hd
    cases h : first? cs with
    | none =>
      have hnone := List.findSome?_eq_none_iff.mp h .idName (by decide)
      rw [hid] at hnone
      cases hnone
    | some found =>
      obtain ⟨pattern, lexeme⟩ := found
      have hle := (hlongest _ _ h).mpr hd .idName (by decide) _ hid
      exact ⟨pattern, lexeme, rfl, List.prefix_of_prefix_length_le
        (isPrefix_of_lexeme? .idName _ _ hid) (isPrefix_of_lexeme? pattern _ _ (first?_eq_some h))
        hle⟩

/-- A letter behind the digits keeps the id in one piece, but a dash does not. -/
theorem longest_iff_letter_or_dash :
    let lettered := "#abcdefx-y".toList
    let dashed := "#abcdef-x".toList
    first? lettered = some (.idName, lettered) ∧ Longest lettered lettered ∧
      first? dashed = some (.color, "#abcdef".toList) ∧ ¬Longest dashed "#abcdef".toList ∧
      ¬∃ pattern lexeme, first? dashed = some (pattern, lexeme) ∧ dashed <+: lexeme := by
  intro lettered dashed
  have hlettered : first? lettered = some (.idName, lettered) := by decide
  have hdashed : first? dashed = some (.color, "#abcdef".toList) := by decide
  have hd : DashedColor dashed := ⟨"abcdef".toList, ['x'], by decide, by decide, by decide⟩
  have hn : ¬DashedColor lettered := by
    rintro ⟨digits, rest, he, hc, -⟩
    have hlen : digits.length = 6 := by
      simp only [Lexeme.color, Bool.and_eq_true, beq_iff_eq] at hc
      exact hc.1
    have hx : some 'x' = (digits ++ '-' :: rest)[6]? := congrArg (fun cs => cs[7]?) he
    rw [List.getElem?_append_right (Nat.le_of_eq hlen), hlen] at hx
    cases hx
  obtain ⟨hlongest, hid⟩ := longest_iff dashed
  refine ⟨hlettered, ((longest_iff lettered).1 _ _ hlettered).mpr hn, hdashed,
    fun h => (hlongest _ _ hdashed).mp h hd, fun h => ?_⟩
  exact (hid "abcdef-x".toList [] (by decide) (by decide) (by decide) (by simp)).mp h hd

/-- The source starts with an id, and less than the id is found. -/
theorem first?_not_longest : ¬∀ (source file : String) (pattern : Pattern) (lexeme : List Char),
    first? (Cursor.start source file).rest = some (pattern, lexeme) →
      Longest (Cursor.start source file).rest lexeme := by
  intro h
  have hle := h "#abcdef-x" "shell" .color "#abcdef".toList (by decide) .idName (by decide)
    "#abcdef-x".toList (by decide)
  exact absurd hle (by decide)

end Pattern

end TypedStyle.Token
