import TypedStyle.Proofs.Numerals
import TypedStyle.Proofs.Slots

/-!
The grammar: which tokens spell which tree. It knows nothing of reading: it neither looks ahead nor
says what is wrong with other tokens.
-/

set_option autoImplicit false

namespace TypedStyle

def Measure.kind : Measure → Token.Kind
  | .pixel => .pixelSize
  | .percentage => .percentage
  | .scalar => .scalar

namespace Operator

def kind : Operator → Token.Kind
  | .add => .plus
  | .subtract => .minus
  | .multiply => .times

def rank : Operator → Nat
  | .add | .subtract => 0
  | .multiply => 1

end Operator

namespace Phrase

inductive Operand (token : Token) : Expr → Prop
  | number {measure : Measure} {value : Int64} : token.kind = measure.kind →
      measure.Spells token.value value → Operand token (.literal (.number measure value))
  | color : token.kind = .color → Operand token (.literal (.color token.value))
  | yes : token.kind = .trueWord → Operand token (.literal (.bool true))
  | no : token.kind = .falseWord → Operand token (.literal (.bool false))
  | reference : token.kind = .capitalName → Operand token (.reference token.value)

/-- An operand, or an operation of this rank or a tighter one. What stands on the left of an
operator may be as tight as it, what stands on the right is tighter. -/
inductive Expression : Nat → List Token → Expr → Prop
  | operand {rank : Nat} {token : Token} {e : Expr} : Operand token e → Expression rank [token] e
  | operation {rank : Nat} {ts us : List Token} {token : Token} {op : Operator} {l r : Expr} :
      rank ≤ op.rank → Expression op.rank ts l → token.kind = op.kind →
      Expression (op.rank + 1) us r → Expression rank (ts ++ token :: us) (.operation op l r)

inductive Framed (first second third : Token.Kind) : List Token → Token → Expr → Prop
  | intro {f s t : Token} {ts : List Token} {e : Expr} : f.kind = first → s.kind = second →
      Expression 0 ts e → t.kind = third → Framed first second third (f :: s :: ts ++ [t]) f e

inductive Many {α : Type} (phrase : List Token → α → Prop) : List Token → List α → Prop
  | nil : Many phrase [] []
  | cons {ts us : List Token} {x : α} {xs : List α} : phrase ts x → Many phrase us xs →
      Many phrase (ts ++ us) (x :: xs)

mutual

inductive Item : List Token → TypedStyle.Item → Prop
  | declaration {ts : List Token} {name : Token} {e : Expr} :
      Framed .lowerName .colon .semicolon ts name e →
      Item ts (.declaration ⟨name.value, e, none⟩)
  | assignment {ts : List Token} {name : Token} {e : Expr} :
      Framed .capitalName .assign .semicolon ts name e → Item ts (.assignment ⟨name.value, e⟩)
  | branch {ts us : List Token} {word : Token} {e : Expr} {body : List TypedStyle.Item} :
      Framed .ifWord .openBracket .closeBracket ts word e → Block us body →
      Item (ts ++ us) (.branch e body none)
  | alternative {ts us vs : List Token} {word other : Token} {e : Expr}
      {body alternative : List TypedStyle.Item} :
      Framed .ifWord .openBracket .closeBracket ts word e → Block us body →
      other.kind = .elseWord → Block vs alternative →
      Item (ts ++ (us ++ other :: vs)) (.branch e body (some alternative))

inductive Block : List Token → List TypedStyle.Item → Prop
  | braces {o c : Token} {ts : List Token} {items : List TypedStyle.Item} :
      o.kind = .openCurly → Many Item ts items → c.kind = .closeCurly →
      Block (o :: ts ++ [c]) items

end

inductive Selector (token : Token) : TypedStyle.Selector → Prop
  | tag : token.kind = .lowerName → Selector token (.tag token.value)
  | className : token.kind = .className → Selector token (.className token.value)
  | idName : token.kind = .idName → Selector token (.idName token.value)
  /-- an id of six hexadecimal digits looks like a colour -/
  | color : token.kind = .color → Selector token (.idName token.value)

inductive Further : List Token → TypedStyle.Selector → Prop
  | plain {t : Token} {s : TypedStyle.Selector} : Selector t s → Further [t] s
  | comma {c t : Token} {s : TypedStyle.Selector} : c.kind = .comma → Selector t s →
      Further [c, t] s

inductive Member : List Token → TypedStyle.Member → Prop
  | assignment {ts : List Token} {name : Token} {e : Expr} :
      Framed .capitalName .assign .semicolon ts name e → Member ts (.assignment ⟨name.value, e⟩)
  | rule {t : Token} {ts us : List Token} {s : TypedStyle.Selector}
      {ss : List TypedStyle.Selector} {body : List TypedStyle.Item} :
      Selector t s → Many Further ts ss → Block us body →
      Member (t :: (ts ++ us)) (.rule ⟨s :: ss, body⟩)

def Sheet (tokens : List Token) (sheet : TypedStyle.Sheet) : Prop :=
  Many Member tokens sheet.members

def Inner (tokens : List Token) : Prop :=
  ∀ token ∈ tokens, token.kind ≠ .eof

namespace Inner

@[simp]
theorem nil : Inner [] := by
  simp [Inner]

@[simp]
theorem cons_iff {token : Token} {tokens : List Token} :
    Inner (token :: tokens) ↔ token.kind ≠ .eof ∧ Inner tokens := by
  simp [Inner]

@[simp]
theorem append_iff {tokens more : List Token} :
    Inner (tokens ++ more) ↔ Inner tokens ∧ Inner more := by
  simp only [Inner, List.mem_append, or_imp, forall_and]

end Inner

def Bodily (kind : Token.Kind) : Prop :=
  kind ∉ [Token.Kind.eof, .idName, .className, .comma]

instance : DecidablePred Bodily := fun kind =>
  inferInstanceAs (Decidable (kind ∉ [Token.Kind.eof, .idName, .className, .comma]))

theorem Bodily.of_eq {kind other : Token.Kind} (hk : kind = other) (h : Bodily other) :
    Bodily kind :=
  hk ▸ h

theorem Bodily.ne_eof {kind : Token.Kind} (h : Bodily kind) : kind ≠ .eof := by
  rintro rfl
  exact absurd h (by decide)

theorem Inner.of_bodily {tokens : List Token} (h : ∀ token ∈ tokens, Bodily token.kind) :
    Inner tokens :=
  fun token hm => (h token hm).ne_eof

section Tokens

variable {rank : Nat} {first second third : Token.Kind} {ts : List Token} {token : Token}
  {e : Expr}

theorem Expression.mono {low : Nat} (h : Expression rank ts e) (hl : low ≤ rank) :
    Expression low ts e := by
  cases h with
  | operand h => exact .operand h
  | operation hr hleft hk hright => exact .operation (Nat.le_trans hl hr) hleft hk hright

theorem Operand.bodily (h : Operand token e) : Bodily token.kind := by
  cases h with
  | @number measure value hk => exact .of_eq hk (by cases measure <;> decide)
  | color hk | yes hk | no hk | reference hk => exact .of_eq hk (by decide)

theorem Operand.kind_ne_eof (h : Operand token e) : token.kind ≠ .eof :=
  h.bodily.ne_eof

theorem operator_bodily (op : Operator) : Bodily op.kind := by
  cases op <;> decide

theorem operator_kind_ne_eof (op : Operator) : op.kind ≠ .eof :=
  (operator_bodily op).ne_eof

theorem Expression.bodily (h : Expression rank ts e) : ∀ t ∈ ts, Bodily t.kind := by
  induction h with
  | operand h => exact List.forall_mem_singleton.mpr h.bodily
  | @operation rank ts us token op l r _ _ hk _ hl hr =>
    have hmark : Bodily token.kind := .of_eq hk (operator_bodily op)
    exact List.forall_mem_append.mpr ⟨hl, List.forall_mem_cons.mpr ⟨hmark, hr⟩⟩

theorem Framed.bodily (h : Framed first second third ts token e)
    (hk : ∀ kind ∈ [first, second, third], Bodily kind) :
    ∀ t ∈ ts, Bodily t.kind := by
  cases h with
  | intro hf hs he ht =>
    simp only [List.forall_mem_cons, List.forall_mem_append, List.cons_append]
    exact ⟨.of_eq hf (hk _ (by simp)), .of_eq hs (hk _ (by simp)), he.bodily,
      .of_eq ht (hk _ (by simp)), List.forall_mem_nil _⟩

mutual

theorem Item.bodily {ts : List Token} {item : TypedStyle.Item} :
    Item ts item → ∀ t ∈ ts, Bodily t.kind
  | .declaration h => h.bodily (by decide)
  | .assignment h => h.bodily (by decide)
  | .branch h hb => List.forall_mem_append.mpr ⟨h.bodily (by decide), hb.bodily⟩
  | .alternative h hb hk ho => by
    simp only [List.forall_mem_append, List.forall_mem_cons]
    exact ⟨h.bodily (by decide), hb.bodily, .of_eq hk (by decide), ho.bodily⟩

theorem Block.bodily {ts : List Token} {items : List TypedStyle.Item} :
    Block ts items → ∀ t ∈ ts, Bodily t.kind
  | .braces ho hi hc => by
    simp only [List.forall_mem_cons, List.forall_mem_append, List.cons_append]
    exact ⟨.of_eq ho (by decide), Items.bodily hi, .of_eq hc (by decide),
      List.forall_mem_nil _⟩

theorem Items.bodily {ts : List Token} {items : List TypedStyle.Item} :
    Many Item ts items → ∀ t ∈ ts, Bodily t.kind
  | .nil => List.forall_mem_nil _
  | .cons hi hr => List.forall_mem_append.mpr ⟨hi.bodily, Items.bodily hr⟩

end

theorem Many.inner {α : Type} {phrase : List Token → α → Prop} {xs : List α}
    (h : Many phrase ts xs) (hp : ∀ {us x}, phrase us x → Inner us) : Inner ts := by
  induction h with
  | nil => exact .nil
  | cons hx _ ih => exact Inner.append_iff.mpr ⟨hp hx, ih⟩

theorem Selector.kind_ne_eof {selector : TypedStyle.Selector} (h : Selector token selector) :
    token.kind ≠ .eof := by
  cases h with
  | tag hk | className hk | idName hk | color hk => simp [hk]

theorem Further.inner {selector : TypedStyle.Selector} (h : Further ts selector) : Inner ts := by
  cases h with
  | plain hs => simp [hs.kind_ne_eof]
  | comma hc hs => simp [hc, hs.kind_ne_eof]

theorem Member.inner {member : TypedStyle.Member} (h : Member ts member) : Inner ts := by
  cases h with
  | assignment h => exact .of_bodily (h.bodily (by decide))
  | rule hs hf hb =>
    simp [hs.kind_ne_eof, hf.inner Further.inner, Inner.of_bodily hb.bodily]

theorem Sheet.inner {sheet : TypedStyle.Sheet} (h : Sheet ts sheet) : Inner ts :=
  Many.inner h Member.inner

theorem Framed.head (h : Framed first second third ts token e) :
    ∃ rest, ts = token :: rest ∧ token.kind = first := by
  cases h with
  | intro hf => exact ⟨_, rfl, hf⟩

theorem Item.head {item : TypedStyle.Item} (h : Item ts item) : ∃ first rest, ts = first :: rest ∧
    (first.kind = .lowerName ∨ first.kind = .capitalName ∨ first.kind = .ifWord) := by
  cases h with
  | declaration h => obtain ⟨rest, rfl, hk⟩ := h.head; exact ⟨_, rest, rfl, .inl hk⟩
  | assignment h => obtain ⟨rest, rfl, hk⟩ := h.head; exact ⟨_, rest, rfl, .inr (.inl hk)⟩
  | branch h => obtain ⟨rest, rfl, hk⟩ := h.head; exact ⟨_, _, rfl, .inr (.inr hk)⟩
  | alternative h => obtain ⟨rest, rfl, hk⟩ := h.head; exact ⟨_, _, rfl, .inr (.inr hk)⟩

theorem Block.head {body : List TypedStyle.Item} (h : Block ts body) :
    ∃ first rest, ts = first :: rest ∧ first.kind = .openCurly := by
  cases h with
  | braces ho => exact ⟨_, _, rfl, ho⟩

theorem Further.ne_nil {selector : TypedStyle.Selector} (h : Further ts selector) : ts ≠ [] := by
  cases h <;> simp

theorem Member.ne_nil {member : TypedStyle.Member} (h : Member ts member) : ts ≠ [] := by
  cases h with
  | assignment h => obtain ⟨rest, rfl, _⟩ := h.head; simp
  | rule => simp

end Tokens

section Slots

variable {rank : Nat} {first second third : Token.Kind} {ts : List Token} {token : Token}
  {e : Expr}

theorem Operand.clean (h : Operand token e) : Clean e.slots := by
  cases h <;> simp [Expr.slots]

theorem Expression.clean (h : Expression rank ts e) : Clean e.slots := by
  induction h with
  | operand h => exact h.clean
  | operation _ _ _ _ hl hr => simp [Expr.slots, hl, hr]

theorem Framed.clean (h : Framed first second third ts token e) : Clean e.slots := by
  cases h with
  | intro _ _ he => exact he.clean

mutual

theorem Item.clean {ts : List Token} {item : TypedStyle.Item} : Item ts item → Clean item.slots
  | .declaration h => by simp [Item.slots, Declaration.slots, h.clean]
  | .assignment h => by simp [Item.slots, h.clean]
  | .branch h hb => by simp [Item.slots, elseSlots, h.clean, hb.clean]
  | .alternative h hb _ ho => by simp [Item.slots, elseSlots, h.clean, hb.clean, ho.clean]

theorem Block.clean {ts : List Token} {items : List TypedStyle.Item} :
    Block ts items → Clean (itemSlots items)
  | .braces _ hi _ => Items.clean hi

theorem Items.clean {ts : List Token} {items : List TypedStyle.Item} :
    Many Item ts items → Clean (itemSlots items)
  | .nil => by simp [itemSlots]
  | .cons hi hr => by simp [itemSlots, hi.clean, Items.clean hr]

end

theorem Member.clean {member : TypedStyle.Member} (h : Member ts member) : Clean member.slots := by
  cases h with
  | assignment h => exact h.clean
  | rule _ _ hb => exact hb.clean

theorem Members.clean {members : List TypedStyle.Member} (h : Many Member ts members) :
    Clean (members.flatMap Member.slots) := by
  induction h with
  | nil => simp
  | cons hm _ ih => simp [hm.clean, ih]

theorem Sheet.clean {sheet : TypedStyle.Sheet} (h : Sheet ts sheet) : Clean sheet.slots :=
  Members.clean h

end Slots

end Phrase

end TypedStyle
