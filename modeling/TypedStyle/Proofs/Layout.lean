import TypedStyle.Proofs.Gaps
import TypedStyle.Proofs.Spelling

/-!
Layout: the words of a source that can be read are found again with any gaps between them.

Only an id of six hexadecimal digits depends on the character behind it, which has to start another
word; no selector is followed like that.
-/

set_option autoImplicit false

namespace TypedStyle

namespace Token

section Found

open Pattern

variable {cs text rest : List Char} {pattern : Pattern} {kind : Kind}

theorem Initialled.exists_cons {initial further : Char → Bool} (h : Initialled initial further text)
    (hi : ∀ c, initial c = true → further c = true) :
    ∃ c cs, text = c :: cs ∧ initial c = true ∧ (c :: cs).all further = true := by
  obtain ⟨c, cs, rfl, hc, hcs⟩ := h
  exact ⟨c, cs, rfl, hc, by rw [List.all_cons, hi c hc, hcs, Bool.and_self]⟩

theorem found_mark {head : Char} {tail : List Char} (h : .mark head tail kind ∈ table) :
    Found (.mark head tail kind) (head :: tail) := by
  simp only [table, List.mem_cons, reduceCtorEq, Pattern.mark.injEq, List.not_mem_nil, or_false,
    false_or] at h
  rcases h with ⟨rfl, rfl, rfl⟩ | ⟨rfl, rfl, rfl⟩ | ⟨rfl, rfl, rfl⟩ | ⟨rfl, rfl, rfl⟩ |
    ⟨rfl, rfl, rfl⟩ | ⟨rfl, rfl, rfl⟩ | ⟨rfl, rfl, rfl⟩ | ⟨rfl, rfl, rfl⟩ | ⟨rfl, rfl, rfl⟩ |
    ⟨rfl, rfl, rfl⟩ | ⟨rfl, rfl, rfl⟩
  · exact .assign
  · exact .colon
  all_goals exact .mark (by decide)

theorem found_of_first? (h : first? cs = some (pattern, text))
    (hk : pattern.kind? text = some kind) :
    Found pattern text ∨ pattern = .idName ∧ Lexeme.color text = true := by
  have hs := shape_of_lexeme? (first?_eq_some h)
  cases pattern with
  | blanks | blockComment | lineComment => cases hk
  | pixelSize =>
    obtain ⟨digits, ⟨hne, hd⟩, rfl⟩ := hs
    exact .inl (.pixelSize hne hd)
  | percentage =>
    obtain ⟨digits, ⟨hne, hd⟩, rfl⟩ := hs
    exact .inl (.percentage hne hd)
  | scalar => exact .inl (.scalar hs.1 hs.2)
  | color => exact .inl (.color hs)
  | idName =>
    cases hc : Lexeme.color text with
    | true => exact .inr ⟨rfl, rfl⟩
    | false => exact .inl (.idName (lexable_idName h) hc)
  | className => exact .inl (.className hs)
  | capitalName =>
    obtain ⟨c, cs, rfl, hc, hcs⟩ := hs.exists_cons fun c hc => by
      simp [isVariableChar, isAlphanum_iff, hc]
    exact .inl (.capitals hc hcs)
  | lowerName =>
    obtain ⟨c, cs, rfl, hc, hcs⟩ := hs.exists_cons fun c hc => by simp [isNameChar, hc]
    exact .inl (.lower hc hcs)
  | mark head tail kind =>
    obtain rfl : text = head :: tail := hs
    exact .inl (found_mark (mem_table_of_first? h))

/-- What looks like a colour is an id because another word goes on behind it. -/
theorem wordChar_of_lookalike (h : first? (text ++ rest) = some (.idName, text))
    (hc : Lexeme.color text = true) :
    ∃ c more, rest = c :: more ∧ Text.isWord c = true ∧ isNameChar c = false := by
  obtain ⟨others, name, he, hrun, rfl⟩ := of_followedBy_exactly? (first?_eq_some h)
  obtain rfl : others = name ++ rest := (List.cons.inj he).2.symm
  have hsix : sixHexDigits? (name ++ rest) = none := sixHexDigits?_of_idName h
  simp only [Lexeme.color, Bool.and_eq_true, beq_iff_eq] at hc
  rw [sixHexDigits?, List.take_left' hc.1, List.drop_left' hc.1] at hsix
  have hword : rest.head?.any Text.isWord = true := by
    by_contra hn
    rw [if_pos ⟨hc.1, hc.2, hn⟩] at hsix
    cases hsix
  obtain ⟨c, hhead, hw⟩ := (Option.any_eq_true _ _).mp hword
  obtain ⟨more, rfl⟩ := List.head?_eq_some_iff.mp hhead
  exact ⟨c, more, rfl, hw, head_of_takeWhile (run?_eq_some_iff.mp hrun).1 c rfl⟩

theorem capitalName_of_wordChar {c : Char} {more : List Char}
    (h : first? (c :: more) = some (pattern, text)) (hw : Text.isWord c = true)
    (hn : isNameChar c = false) : pattern = .capitalName := by
  have hmarks : ∀ pattern ∈ table, (match pattern with
      | .mark head _ _ => Text.isWord head
      | _ => false) = false := by decide
  have ho := opens_of_lexeme? (first?_eq_some h)
  have hnot : ∀ d, Text.isWord d = false → c ≠ d := by
    rintro d hd rfl
    rw [hw] at hd
    cases hd
  cases pattern with
  | capitalName => rfl
  | blanks => rw [isWord_of_isBlank ho] at hw; cases hw
  | blockComment | lineComment | color | idName | className =>
    exact absurd (beq_iff_eq.mp ho) (hnot _ (by decide))
  | pixelSize | percentage | scalar | lowerName =>
    simp only [opens] at ho
    simp [isNameChar, ho] at hn
  | mark head tail kind =>
    exact absurd (beq_iff_eq.mp ho) (hnot _ (hmarks _ (mem_table_of_first? h)))

end Found

end Token

namespace Phrase

def afterId : List Token.Kind :=
  [.lowerName, .className, .idName, .color, .comma, .openCurly]

/-- The first of the kinds may stand behind an id. -/
def StartsAfterId (kinds : List Token.Kind) : Prop :=
  ∃ next ∈ kinds.head?, next ∈ afterId

/-- No id is the last token, and behind each of them stands what may stand there. -/
def IdsFollowed : List Token.Kind → Prop
  | [] => True
  | kind :: rest => (kind = .idName → StartsAfterId rest) ∧ IdsFollowed rest

namespace IdsFollowed

variable {kinds others : List Token.Kind}

theorem append (h : IdsFollowed kinds) (ho : IdsFollowed others) :
    IdsFollowed (kinds ++ others) := by
  induction kinds with
  | nil => exact ho
  | cons kind kinds ih =>
    refine ⟨fun hk => ?_, ih h.2⟩
    obtain ⟨next, hm, hn⟩ := h.1 hk
    obtain ⟨rest, rfl⟩ := List.head?_eq_some_iff.mp hm
    exact ⟨next, rfl, hn⟩

theorem cons (h : IdsFollowed kinds) (hs : StartsAfterId kinds) (kind : Token.Kind) :
    IdsFollowed (kind :: kinds) :=
  ⟨fun _ => hs, h⟩

theorem of_bodily {tokens : List Token} (h : ∀ token ∈ tokens, Bodily token.kind) :
    IdsFollowed (tokens.map Token.kind) := by
  induction tokens with
  | nil => trivial
  | cons token tokens ih =>
    obtain ⟨hhead, hrest⟩ := List.forall_mem_cons.mp h
    exact ⟨fun hk => absurd (hk ▸ hhead) (by decide), ih hrest⟩

end IdsFollowed

theorem Selector.startsAfterId {token : Token} {selector : TypedStyle.Selector}
    (h : Selector token selector) (kinds : List Token.Kind) :
    StartsAfterId (token.kind :: kinds) := by
  refine ⟨_, rfl, ?_⟩
  cases h with
  | tag hk | className hk | idName hk | color hk =>
    rw [hk]
    decide

theorem Further.idsFollowed {ts us : List Token} {selectors : List TypedStyle.Selector}
    (h : Many Further ts selectors) (hu : IdsFollowed (us.map Token.kind))
    (hs : StartsAfterId (us.map Token.kind)) :
    IdsFollowed ((ts ++ us).map Token.kind) ∧ StartsAfterId ((ts ++ us).map Token.kind) := by
  induction h with
  | nil => exact ⟨hu, hs⟩
  | @cons ts vs selector selectors hx _ ih =>
    obtain ⟨hids, hstarts⟩ := ih
    rw [List.append_assoc]
    cases hx with
    | plain ht => exact ⟨hids.cons hstarts _, ht.startsAfterId _⟩
    | comma hc ht =>
      have hcomma : Token.Kind.comma ∈ afterId := by decide
      exact ⟨(hids.cons hstarts _).cons (ht.startsAfterId _) _, _, rfl, hc ▸ hcomma⟩

theorem Block.startsAfterId {ts : List Token} {body : List TypedStyle.Item} (h : Block ts body) :
    StartsAfterId (ts.map Token.kind) := by
  obtain ⟨brace, rest, rfl, hk⟩ := h.head
  have hbrace : Token.Kind.openCurly ∈ afterId := by decide
  exact ⟨_, rfl, hk ▸ hbrace⟩

theorem Member.idsFollowed {ts : List Token} {member : TypedStyle.Member} (h : Member ts member) :
    IdsFollowed (ts.map Token.kind) := by
  cases h with
  | assignment h => exact .of_bodily (h.bodily (by decide))
  | rule hs hf hb =>
    obtain ⟨hids, hstarts⟩ := Further.idsFollowed hf (.of_bodily hb.bodily) hb.startsAfterId
    exact hids.cons hstarts _

theorem Sheet.idsFollowed {ts : List Token} {members : List TypedStyle.Member}
    (h : Many Member ts members) : IdsFollowed (ts.map Token.kind) := by
  induction h with
  | nil => trivial
  | cons hm _ ih =>
    rw [List.map_append]
    exact hm.idsFollowed.append ih

end Phrase

theorem Spells.idsFollowed {words : List Token.Word} {sheet : Sheet} (h : Spells words sheet) :
    Phrase.IdsFollowed (words.map Prod.fst) := by
  have hids := Phrase.Sheet.idsFollowed h
  rwa [List.map_map] at hids

namespace Token

theorem not_afterId_of_capitalName {lexeme : List Char} {kind : Kind}
    (h : Pattern.capitalName.kind? lexeme = some kind) : kind ∉ Phrase.afterId := by
  have hreserved : ∀ entry ∈ reservedWords, entry.2 ∉ Phrase.afterId := by decide
  rcases reserved_or_default h with hr | ⟨-, rfl⟩
  · exact hreserved _ (mem_reservedWords hr)
  · decide

theorem Cuts.writes {text left : List Char} {pieces : List Piece} (h : Cuts text pieces left)
    (hl : left = []) (hi : Phrase.IdsFollowed ((words pieces).map Prod.fst)) :
    ∀ word ∈ words pieces, word.Writes := by
  induction h with
  | done => simp [words]
  | @piece pattern lexeme rest left pieces hf hc ih =>
    cases hk : pattern.kind? lexeme with
    | none =>
      rw [words_cons_of_none hk] at hi ⊢
      exact ih hl hi
    | some kind =>
      rw [words_cons_of_some hk] at hi ⊢
      refine List.forall_mem_cons.mpr ⟨?_, ih hl hi.2⟩
      rcases found_of_first? hf hk with hfound | ⟨rfl, hcolor⟩
      · exact ⟨pattern, by rwa [String.toList_ofList], by rwa [String.toList_ofList]⟩
      · obtain ⟨c, more, rfl, hw, hn⟩ := wordChar_of_lookalike hf hcolor
        obtain ⟨next, hnext, hm⟩ := hi.1 (Option.some.inj hk).symm
        generalize htail : c :: more = tail at hc
        cases hc with
        | done => cases hl ▸ htail
        | @piece pattern other _ _ pieces hother _ =>
          rw [← htail] at hother
          obtain rfl := capitalName_of_wordChar hother hw hn
          obtain ⟨kind, hkind⟩ : ∃ kind, Pattern.capitalName.kind? other = some kind := ⟨_, rfl⟩
          rw [words_cons_of_some hkind] at hnext
          obtain rfl : kind = next := Option.some.inj hnext
          exact absurd hm (not_afterId_of_capitalName hkind)

end Token

/-- Each word with a gap behind it, which only the last word may lack. -/
theorem Lexes.layout {words : List Token.Word} {entries : List (String × String)}
    (hv : words.map Prod.snd = entries.map Prod.fst) (hw : ∀ word ∈ words, word.Writes)
    (hgaps : ∀ entry ∈ entries, Token.Gap entry.2.toList)
    (hne : ∀ entry ∈ entries.dropLast, entry.2 ≠ "") :
    Lexes (entries.flatMap fun entry => entry.1.toList ++ entry.2.toList) words := by
  induction entries generalizing words with
  | nil =>
    obtain rfl := List.map_eq_nil_iff.mp hv
    exact .nil
  | cons entry entries ih =>
    obtain ⟨word, words, rfl, hword, hwords⟩ := List.map_eq_cons_iff.mp hv
    obtain ⟨hwrites, hothers⟩ := List.forall_mem_cons.mp hw
    obtain ⟨hgap, hrest⟩ := List.forall_mem_cons.mp hgaps
    have hlast : entry.2.toList = [] →
        entries.flatMap (fun entry => entry.1.toList ++ entry.2.toList) = [] := by
      intro hempty
      cases entries with
      | nil => rfl
      | cons other entries =>
        exact absurd (String.toList_eq_nil_iff.mp hempty) (hne entry (by simp))
    have htail : ∀ other ∈ entries.dropLast, other.2 ≠ "" := by
      intro other hm
      refine hne other ?_
      rw [List.dropLast_cons_of_ne_nil (List.ne_nil_of_mem (List.dropLast_subset _ hm))]
      exact List.mem_cons_of_mem _ hm
    rw [List.flatMap_cons, List.append_assoc, ← hword]
    exact hwrites.lexes (hgap.apart hlast) (hgap.lexes (ih hwords hothers hrest htail))

/-- A gap, and behind it texts with a gap behind each. -/
def layOut (lead : String) (entries : List (String × String)) : String :=
  lead ++ String.join (entries.map fun entry => entry.1 ++ entry.2)

theorem toList_layOut (lead : String) (entries : List (String × String)) :
    (layOut lead entries).toList =
      lead.toList ++ entries.flatMap fun entry => entry.1.toList ++ entry.2.toList := by
  rw [layOut, String.toList_append, String.toList_join, List.flatMap_map]
  simp only [String.toList_append]

theorem readSheet_layout {source file lead : String} {tokens : List Token} {sheet : Sheet}
    {entries : List (String × String)} (ht : tokenize source file = .ok tokens)
    (hs : Sheet.ofTokens tokens file = .ok sheet)
    (hv : entries.map Prod.fst = (tokens.filter (·.kind ≠ .eof)).map Token.value)
    (hlead : Token.Gap lead.toList) (hgaps : ∀ entry ∈ entries, Token.Gap entry.2.toList)
    (hne : ∀ entry ∈ entries.dropLast, entry.2 ≠ "") (other : String) :
    readSheet (layOut lead entries) other = .ok sheet := by
  obtain ⟨pieces, hc, he⟩ := tokenize_eq_ok_iff.mp ht
  have hspells := (ofTokens_pieces hc ht).mp hs
  have hinner : tokens.filter (·.kind ≠ .eof) = Token.placed file 0 pieces := by
    rw [he, List.filter_append, List.filter_eq_self.mpr]
    · simp [Token.eof]
    · intro token hm
      exact decide_eq_true (hc.inner file 0 token hm)
  have hvalues : (Token.words pieces).map Prod.snd = entries.map Prod.fst := by
    rw [hv, hinner, ← Token.map_word_placed file pieces 0, List.map_map]
    rfl
  refine readSheet_eq_ok_iff.mpr ⟨_, ?_, hspells⟩
  rw [toList_layOut]
  exact hlead.lexes (.layout hvalues (hc.writes rfl hspells.idsFollowed) hgaps hne)

/-- A star in front of a comment, and an id of six hexadecimal digits. -/
theorem readSheet_layout_star :
    let entries := [("#abcdef", "\n"), ("\x7b", " "), ("w", "//w\n"), (":", "/**/"), ("2", " "),
      ("*", "/*\n*/"), ("3", "\t"), (";", " "), ("\x7d", "")]
    ∃ tokens sheet, tokenize "#abcdef\x7bw:2*3;\x7d" "shell" = .ok tokens ∧
      Sheet.ofTokens tokens "shell" = .ok sheet ∧
      entries.map Prod.fst = (tokens.filter (·.kind ≠ .eof)).map Token.value ∧
      Token.Gap "".toList ∧ (∀ entry ∈ entries, Token.Gap entry.2.toList) ∧
      (∀ entry ∈ entries.dropLast, entry.2 ≠ "") ∧
      readSheet (layOut "" entries) "shell" = .ok sheet := by
  intro entries
  have ht : tokenize "#abcdef\x7bw:2*3;\x7d" "shell" = .ok
      [⟨.color, "#abcdef", ⟨⟨0, "shell"⟩, ⟨7, "shell"⟩⟩⟩,
        ⟨.openCurly, "\x7b", ⟨⟨7, "shell"⟩, ⟨8, "shell"⟩⟩⟩,
        ⟨.lowerName, "w", ⟨⟨8, "shell"⟩, ⟨9, "shell"⟩⟩⟩,
        ⟨.colon, ":", ⟨⟨9, "shell"⟩, ⟨10, "shell"⟩⟩⟩,
        ⟨.scalar, "2", ⟨⟨10, "shell"⟩, ⟨11, "shell"⟩⟩⟩,
        ⟨.times, "*", ⟨⟨11, "shell"⟩, ⟨12, "shell"⟩⟩⟩,
        ⟨.scalar, "3", ⟨⟨12, "shell"⟩, ⟨13, "shell"⟩⟩⟩,
        ⟨.semicolon, ";", ⟨⟨13, "shell"⟩, ⟨14, "shell"⟩⟩⟩,
        ⟨.closeCurly, "\x7d", ⟨⟨14, "shell"⟩, ⟨15, "shell"⟩⟩⟩, .eof ⟨15, "shell"⟩] := by
    decide +kernel
  have hlead : Token.Gap "".toList := .nil
  have hblank : ∀ c : Char, Text.isBlank c = true → Token.Gap [c] := fun c h => .blank h .nil
  have hgaps : ∀ entry ∈ entries, Token.Gap entry.2.toList := by
    simp only [entries, List.forall_mem_cons]
    refine ⟨hblank '\n' (by decide), hblank ' ' (by decide), .line ⟨['w'], rfl, by decide⟩ .nil,
      .block ⟨[], rfl, by decide⟩ .nil, hblank ' ' (by decide),
      .block ⟨['\n'], rfl, by decide⟩ .nil, hblank '\t' (by decide), hblank ' ' (by decide),
      .nil, by simp⟩
  have hne : ∀ entry ∈ entries.dropLast, entry.2 ≠ "" := by decide
  have hok : (readSheet "#abcdef\x7bw:2*3;\x7d" "shell").isOk = true := by decide +kernel
  cases hr : readSheet "#abcdef\x7bw:2*3;\x7d" "shell" with
  | error failure =>
    rw [hr] at hok
    cases hok
  | ok sheet =>
    have hs := (readSheet_of_tokenize ht).symm.trans hr
    exact ⟨_, sheet, ht, hs, rfl, hlead, hgaps, hne,
      readSheet_layout ht hs rfl hlead hgaps hne "shell"⟩

end TypedStyle
