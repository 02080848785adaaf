import TypedStyle.Compile
import TypedStyle.Proofs.Cuts
import TypedStyle.Proofs.Parsing

/-!
Reading a source is a matter of its words: of what its tokens say, not of where they stand.
-/

set_option autoImplicit false

namespace TypedStyle

/-- Tokens that say the same, one by one. -/
def Respelt (us ts : List Token) : Prop :=
  us.map Token.word = ts.map Token.word

namespace Respelt

variable {us ts vs : List Token} {token : Token}

theorem exists_cons (h : Respelt us (token :: ts)) :
    ∃ other rest, us = other :: rest ∧ other.kind = token.kind ∧ other.value = token.value ∧
      Respelt rest ts := by
  rw [Respelt, List.map_cons, List.map_eq_cons_iff] at h
  obtain ⟨other, rest, rfl, hw, hr⟩ := h
  exact ⟨other, rest, rfl, congrArg Prod.fst hw, congrArg Prod.snd hw, hr⟩

theorem exists_append (h : Respelt us (ts ++ vs)) :
    ∃ front rest, us = front ++ rest ∧ Respelt front ts ∧ Respelt rest vs := by
  rw [Respelt, List.map_append, List.map_eq_append_iff] at h
  exact h

theorem eq_nil (h : Respelt us []) : us = [] := by
  simpa [Respelt] using h

end Respelt

namespace Phrase

variable {ts us : List Token} {token other : Token}

theorem Operand.respell {e : Expr} (h : Operand token e) (hk : other.kind = token.kind)
    (hv : other.value = token.value) : Operand other e := by
  cases h with
  | number hm hs => exact .number (hk.trans hm) (hv ▸ hs)
  | color h => exact hv ▸ .color (hk.trans h)
  | yes h => exact .yes (hk.trans h)
  | no h => exact .no (hk.trans h)
  | reference h => exact hv ▸ .reference (hk.trans h)

theorem Expression.respell {rank : Nat} {e : Expr} (h : Expression rank ts e)
    (hs : Respelt us ts) : Expression rank us e := by
  induction h generalizing us with
  | operand h =>
    obtain ⟨other, rest, rfl, hk, hv, hr⟩ := hs.exists_cons
    obtain rfl := hr.eq_nil
    exact .operand (h.respell hk hv)
  | operation hr _ hk _ ihl ihr =>
    obtain ⟨front, rest, rfl, hl, hs⟩ := hs.exists_append
    obtain ⟨mark, rest, rfl, hm, _, hs⟩ := hs.exists_cons
    exact .operation hr (ihl hl) (hm.trans hk) (ihr hs)

theorem Framed.respell {first second third : Token.Kind} {e : Expr}
    (h : Framed first second third ts token e) (hs : Respelt us ts) :
    ∃ other, other.value = token.value ∧ Framed first second third us other e := by
  cases h with
  | intro hf hm he ht =>
    obtain ⟨front, last, rfl, hfront, hlast⟩ := hs.exists_append
    obtain ⟨f, rest, rfl, hkf, hvf, hrest⟩ := hfront.exists_cons
    obtain ⟨s, inner, rfl, hks, _, hinner⟩ := hrest.exists_cons
    obtain ⟨t, _, rfl, hkt, _, hnil⟩ := hlast.exists_cons
    obtain rfl := hnil.eq_nil
    exact ⟨f, hvf, .intro (hkf.trans hf) (hks.trans hm) (he.respell hinner) (hkt.trans ht)⟩

theorem Many.respell {α : Type} {phrase : List Token → α → Prop} {xs : List α}
    (h : Many phrase ts xs) (hp : ∀ {ts us x}, phrase ts x → Respelt us ts → phrase us x)
    (hs : Respelt us ts) : Many phrase us xs := by
  induction h generalizing us with
  | nil =>
    obtain rfl := hs.eq_nil
    exact .nil
  | cons hx _ ih =>
    obtain ⟨front, rest, rfl, hf, hr⟩ := hs.exists_append
    exact .cons (hp hx hf) (ih hr)

mutual

theorem Item.respell {ts us : List Token} {item : TypedStyle.Item} (hs : Respelt us ts) :
    Item ts item → Item us item
  | .declaration h => by
    obtain ⟨name, hv, h⟩ := h.respell hs
    exact hv ▸ .declaration h
  | .assignment h => by
    obtain ⟨name, hv, h⟩ := h.respell hs
    exact hv ▸ .assignment h
  | .branch h hb => by
    obtain ⟨front, rest, rfl, hf, hr⟩ := hs.exists_append
    obtain ⟨_, _, h⟩ := h.respell hf
    exact .branch h (hb.respell hr)
  | .alternative h hb hk ho => by
    obtain ⟨front, rest, rfl, hf, hr⟩ := hs.exists_append
    obtain ⟨body, rest, rfl, hbody, hr⟩ := hr.exists_append
    obtain ⟨word, rest, rfl, hw, _, hr⟩ := hr.exists_cons
    obtain ⟨_, _, h⟩ := h.respell hf
    exact .alternative h (hb.respell hbody) (hw.trans hk) (ho.respell hr)

theorem Block.respell {ts us : List Token} {items : List TypedStyle.Item} (hs : Respelt us ts) :
    Block ts items → Block us items
  | .braces ho hi hc => by
    obtain ⟨front, last, rfl, hf, hl⟩ := hs.exists_append
    obtain ⟨o, inner, rfl, hko, _, hf⟩ := hf.exists_cons
    obtain ⟨c, _, rfl, hkc, _, hl⟩ := hl.exists_cons
    obtain rfl := hl.eq_nil
    exact .braces (hko.trans ho) (Items.respell hf hi) (hkc.trans hc)

theorem Items.respell {ts us : List Token} {items : List TypedStyle.Item} (hs : Respelt us ts) :
    Many Item ts items → Many Item us items
  | .nil => by
    obtain rfl := hs.eq_nil
    exact .nil
  | .cons hi hr => by
    obtain ⟨front, rest, rfl, hf, hs⟩ := hs.exists_append
    exact .cons (Item.respell hf hi) (Items.respell hs hr)

end

theorem Selector.respell {selector : TypedStyle.Selector} (h : Selector token selector)
    (hk : other.kind = token.kind) (hv : other.value = token.value) :
    Selector other selector := by
  cases h with
  | tag h => exact hv ▸ .tag (hk.trans h)
  | className h => exact hv ▸ .className (hk.trans h)
  | idName h => exact hv ▸ .idName (hk.trans h)
  | color h => exact hv ▸ .color (hk.trans h)

theorem Further.respell {selector : TypedStyle.Selector} (h : Further ts selector)
    (hs : Respelt us ts) : Further us selector := by
  cases h with
  | plain h =>
    obtain ⟨other, _, rfl, hk, hv, hs⟩ := hs.exists_cons
    obtain rfl := hs.eq_nil
    exact .plain (h.respell hk hv)
  | comma hc h =>
    obtain ⟨comma, _, rfl, hkc, _, hs⟩ := hs.exists_cons
    obtain ⟨other, _, rfl, hk, hv, hs⟩ := hs.exists_cons
    obtain rfl := hs.eq_nil
    exact .comma (hkc.trans hc) (h.respell hk hv)

theorem Member.respell {member : TypedStyle.Member} (h : Member ts member)
    (hs : Respelt us ts) : Member us member := by
  cases h with
  | assignment h =>
    obtain ⟨name, hv, h⟩ := h.respell hs
    exact hv ▸ .assignment h
  | rule h hf hb =>
    obtain ⟨first, _, rfl, hk, hv, hs⟩ := hs.exists_cons
    obtain ⟨front, rest, rfl, hsf, hsr⟩ := hs.exists_append
    exact .rule (h.respell hk hv) (hf.respell Further.respell hsf) (hb.respell hsr)

theorem Sheet.respell {sheet : TypedStyle.Sheet} (h : Sheet ts sheet) (hs : Respelt us ts) :
    Sheet us sheet :=
  Many.respell h Member.respell hs

end Phrase

namespace Token

def bare (word : Word) : Token :=
  { blank word.1 with value := word.2 }

theorem map_word_bare (words : List Word) : (words.map bare).map word = words := by
  rw [List.map_map]
  exact List.map_id words

theorem reserved?_ne_eof (word : String) : reserved? word ≠ some .eof := by
  intro h
  have hkinds : ∀ entry ∈ reservedWords, entry.2 ≠ .eof := by decide
  exact hkinds _ (mem_reservedWords h) rfl

theorem Pattern.kind?_ne_eof {pattern : Pattern} (h : pattern ∈ table) (lexeme : List Char) :
    pattern.kind? lexeme ≠ some .eof := by
  have hname : ∀ kind, kind ≠ .eof →
      some ((reserved? (String.ofList lexeme)).getD kind) ≠ some Kind.eof := by
    intro kind hk
    have hr := reserved?_ne_eof (String.ofList lexeme)
    cases hw : reserved? (String.ofList lexeme) <;> simp_all
  cases pattern with
  | mark head tail kind =>
    have hmarks : ∀ pattern ∈ table, pattern.kind? [] ≠ some .eof := by decide
    exact hmarks _ h
  | capitalName | lowerName => exact hname _ (by decide)
  | _ => simp [kind?]

theorem Cuts.inner {text left : List Char} {pieces : List Piece} (h : Cuts text pieces left)
    (file : String) (offset : Nat) : Phrase.Inner (placed file offset pieces) := by
  induction h generalizing offset with
  | done => exact .nil
  | @piece pattern lexeme rest left pieces hf _ ih =>
    rw [placed, Phrase.Inner.append_iff]
    refine ⟨?_, ih _⟩
    have hk := Pattern.kind?_ne_eof (Pattern.mem_table_of_first? hf) lexeme
    cases h : pattern.kind? lexeme <;> simp_all [Pattern.token?]

end Token

def Spells (words : List Token.Word) (sheet : Sheet) : Prop :=
  Phrase.Sheet (words.map Token.bare) sheet

theorem ofTokens_pieces {source file : String} {tokens : List Token} {pieces : List Token.Piece}
    {sheet : Sheet} (hc : Token.Cuts source.toList pieces [])
    (ht : tokenize source file = .ok tokens) :
    Sheet.ofTokens tokens file = .ok sheet ↔ Spells (Token.words pieces) sheet := by
  have hp : tokenize source file = .ok _ := tokenize_eq_ok_iff.mpr ⟨pieces, hc, rfl⟩
  rw [ht] at hp
  rw [Except.ok.inj hp, ofTokens_eq_ok_iff, takeWhile_inner (hc.inner file 0) rfl]
  have hbare : Respelt ((Token.words pieces).map .bare) (Token.placed file 0 pieces) := by
    rw [Respelt, Token.map_word_bare, Token.map_word_placed]
  exact ⟨fun h => h.respell hbare, fun h => h.respell hbare.symm⟩

theorem readSheet_of_tokenize {source file : String} {tokens : List Token}
    (h : tokenize source file = .ok tokens) :
    readSheet source file = Sheet.ofTokens tokens file := by
  rw [readSheet, h]
  rfl

theorem readSheet_eq_ok_iff {source file : String} {sheet : Sheet} :
    readSheet source file = .ok sheet ↔
      ∃ words, Lexes source.toList words ∧ Spells words sheet := by
  constructor
  · intro h
    cases ht : tokenize source file with
    | error failure =>
      rw [readSheet, ht] at h
      cases h
    | ok tokens =>
      obtain ⟨pieces, hc, -⟩ := tokenize_eq_ok_iff.mp ht
      rw [readSheet_of_tokenize ht] at h
      exact ⟨_, ⟨pieces, hc, rfl⟩, (ofTokens_pieces hc ht).mp h⟩
  · intro h
    obtain ⟨words, ⟨pieces, hc, rfl⟩, hs⟩ := h
    have ht : tokenize source file = .ok _ := tokenize_eq_ok_iff.mpr ⟨pieces, hc, rfl⟩
    rw [readSheet_of_tokenize ht]
    exact (ofTokens_pieces hc ht).mpr hs

end TypedStyle
