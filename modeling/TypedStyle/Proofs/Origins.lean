import TypedStyle.Proofs.Printing
import TypedStyle.Proofs.Soundness

set_option autoImplicit false

namespace TypedStyle

/-- Tokens whose names and colours look like names and colours. -/
def Plain (tokens : List Token) : Prop :=
  ∀ token ∈ tokens, token.word.lexable = true

namespace Plain

variable {token : Token} {tokens more : List Token}

@[simp]
theorem cons_iff : Plain (token :: tokens) ↔ token.word.lexable = true ∧ Plain tokens := by
  simp [Plain]

@[simp]
theorem append_iff : Plain (tokens ++ more) ↔ Plain tokens ∧ Plain more := by
  simp only [Plain, List.mem_append, or_imp, forall_and]

theorem bare {words : List Token.Word} (h : ∀ word ∈ words, word.lexable = true) :
    Plain (words.map Token.bare) := by
  intro token ht
  obtain ⟨word, hw, rfl⟩ := List.mem_map.mp ht
  exact h word hw

end Plain

def Literal.Coloured : Literal → Prop
  | .color value => Lexeme.color value.toList = true
  | _ => True

def Expr.Coloured : Expr → Prop
  | .literal value _ => value.Coloured
  | .reference _ _ => True
  | .operation _ left right _ => left.Coloured ∧ right.Coloured

def Env.Coloured (env : Env) : Prop :=
  ∀ a ∈ env, a.value.Coloured

namespace Expr

theorem coloured_of_valueBy {look : String → Option Literal} {expr : Expr} {value : Literal}
    (he : expr.Coloured) (hl : ∀ name value, look name = some value → value.Coloured)
    (hv : expr.valueBy look = some value) : value.Coloured := by
  cases expr with
  | literal literal fault =>
    cases hv
    exact he
  | reference name fault => exact hl name value hv
  | operation op left right fault =>
    simp only [valueBy, bind, Option.bind_eq_some_iff] at hv
    obtain ⟨l, -, r, -, hv⟩ := hv
    cases l <;> cases r <;>
      simp only [Literal.operate?, bind, Option.bind_eq_some_iff, reduceCtorEq] at hv
    obtain ⟨measure, -, number, -, hv⟩ := hv
    cases hv
    trivial

theorem coloured_of_valueIn? {env : Env} {expr : Expr} {value : Literal} (he : expr.Coloured)
    (henv : env.Coloured) (hv : expr.valueIn? env = some value) : value.Coloured := by
  refine coloured_of_valueBy he ?_ hv
  clear hv
  induction env with
  | nil =>
    intro name value hv
    cases hv
  | cons a earlier ih =>
    intro name value hv
    have hearlier := ih fun b hb => henv b (List.mem_cons_of_mem _ hb)
    rw [Env.lookUp] at hv
    split at hv
    · exact coloured_of_valueBy (henv a List.mem_cons_self) hearlier hv
    · exact hearlier name value hv

end Expr

namespace Phrase

variable {ts : List Token} {rank : Nat} {first second third : Token.Kind} {token : Token} {e : Expr}

theorem Expression.coloured (h : Expression rank ts e) (hp : Plain ts) : e.Coloured := by
  induction h with
  | @operand rank token e h =>
    cases h with
    | color hk =>
      have hword := (Plain.cons_iff.mp hp).1
      rwa [Token.word, hk] at hword
    | _ => trivial
  | operation _ _ _ _ ihl ihr =>
    rw [Plain.append_iff, Plain.cons_iff] at hp
    exact ⟨ihl hp.1, ihr hp.2.2⟩

theorem Framed.coloured (h : Framed first second third ts token e) (hp : Plain ts) :
    e.Coloured ∧ token.word.lexable = true ∧ token.kind = first := by
  cases h with
  | intro hf _ he _ =>
    simp only [List.cons_append, Plain.cons_iff, Plain.append_iff] at hp
    exact ⟨he.coloured hp.2.2.1, hp.1, hf⟩

theorem Many.exists_phrase {α : Type} {phrase : List Token → α → Prop} {xs : List α}
    (h : Many phrase ts xs) (hp : Plain ts) {x : α} (hx : x ∈ xs) :
    ∃ us, phrase us x ∧ Plain us := by
  induction h with
  | nil => cases hx
  | cons hphrase _ ih =>
    rw [Plain.append_iff] at hp
    rcases List.mem_cons.mp hx with rfl | hx
    · exact ⟨_, hphrase, hp.1⟩
    · exact ih hp.2 hx

theorem Block.items {body : List TypedStyle.Item} (h : Block ts body) (hp : Plain ts) :
    ∃ us, Many Item us body ∧ Plain us := by
  cases h with
  | braces _ hi _ =>
    simp only [List.cons_append, Plain.cons_iff, Plain.append_iff] at hp
    exact ⟨_, hi, hp.2.1⟩

theorem Item.side {condition : Expr} {body inner : List TypedStyle.Item}
    {alternative : Option (List TypedStyle.Item)} {fault : Option Fault} {side : Side}
    (h : Item ts (.branch condition body alternative fault)) (hp : Plain ts)
    (hs : side.items? body alternative = some inner) : ∃ us, Many Item us inner ∧ Plain us := by
  cases h with
  | branch _ hb =>
    cases side with
    | body =>
      cases hs
      exact hb.items (Plain.append_iff.mp hp).2
    | alternative => cases hs
  | alternative _ hb _ ho =>
    simp only [Plain.cons_iff, Plain.append_iff] at hp
    cases side with
    | body =>
      cases hs
      exact hb.items hp.2.1
    | alternative =>
      cases hs
      exact ho.items hp.2.2.2

end Phrase

def Spelt (items : List Item) : Prop :=
  ∃ ts, Phrase.Many Phrase.Item ts items ∧ Plain ts

theorem Spelt.coloured_past {items : List Item} (h : Spelt items) {env : Env} (he : env.Coloured)
    (index : Nat) : (env.past (items.take index)).Coloured := by
  obtain ⟨ts, hm, hp⟩ := h
  intro a ha
  simp only [Env.past, List.mem_append, List.mem_reverse, List.mem_filterMap] at ha
  rcases ha with ⟨item, hi, ha⟩ | ha
  · obtain ⟨us, hitem, hus⟩ := hm.exists_phrase hp (List.mem_of_mem_take hi)
    cases hitem with
    | assignment hf =>
      cases ha
      exact (hf.coloured hus).1
    | _ => cases ha
  · exact he a ha

theorem Stands.spelt {guard : Env → Expr → Side → Prop} {env within : Env} {items : List Item}
    {place : Place} {item : Item} (h : Stands guard env items place item within)
    (hs : Spelt items) (he : env.Coloured) :
    (∃ ts, Phrase.Item ts item ∧ Plain ts) ∧ within.Coloured := by
  induction h with
  | here at_index =>
    obtain ⟨ts, hm, hp⟩ := hs
    exact ⟨hm.exists_phrase hp (List.mem_of_getElem? at_index),
      Spelt.coloured_past ⟨ts, hm, hp⟩ he _⟩
  | inside at_index on_side _ _ ih =>
    have hpast := hs.coloured_past he
    obtain ⟨ts, hm, hp⟩ := hs
    obtain ⟨us, hb, hus⟩ := hm.exists_phrase hp (List.mem_of_getElem? at_index)
    exact ih (hb.side hus on_side) (hpast _)

def Item.value? : Item → Option Literal
  | .declaration d => d.value.literal?
  | _ => none

def Member.values : Member → List Literal
  | .rule r => r.body.filterMap Item.value?
  | .assignment _ => []

def Sheet.values (sheet : Sheet) : List Literal :=
  sheet.members.flatMap Member.values

def Literal.Negative : Literal → Prop
  | .number _ value => value.toInt < 0
  | _ => False

instance (value : Literal) : Decidable value.Negative :=
  match value with
  | .bool _ | .color _ => inferInstanceAs (Decidable False)
  | .number _ value => inferInstanceAs (Decidable (value.toInt < 0))

theorem Literal.lexable_of_coloured {value : Literal} (hc : value.Coloured)
    (hn : ¬value.Negative) : value.Lexable := by
  cases value with
  | bool truth => trivial
  | color value => exact hc
  | number measure value => exact Int.not_lt.mp hn

theorem Lexeme.idName_of_color {text : List Char} (h : Lexeme.color text = true) :
    Lexeme.idName text = true := by
  unfold color at h
  split at h
  · next digits => simp [idName, color, h]
  · cases h

namespace Phrase

variable {ts : List Token} {token : Token}

theorem Selector.lexable {selector : TypedStyle.Selector} (h : Selector token selector)
    (hp : token.word.lexable = true) : selector.Lexable := by
  cases h with
  | tag hk | className hk | idName hk => rwa [Token.word, hk] at hp
  | color hk =>
    rw [Token.word, hk] at hp
    exact Lexeme.idName_of_color hp

theorem Further.lexable {selector : TypedStyle.Selector} (h : Further ts selector)
    (hp : Plain ts) : selector.Lexable := by
  cases h with
  | plain h => exact h.lexable (Plain.cons_iff.mp hp).1
  | comma _ h => exact h.lexable (Plain.cons_iff.mp (Plain.cons_iff.mp hp).2).1

theorem Member.rule_lexable {rule : TypedStyle.Rule} (h : Member ts (.rule rule)) (hp : Plain ts) :
    rule.selectors ≠ [] ∧ (∀ selector ∈ rule.selectors, selector.Lexable) ∧ Spelt rule.body := by
  cases h with
  | rule hs hm hb =>
    simp only [Plain.cons_iff, Plain.append_iff] at hp
    refine ⟨List.cons_ne_nil _ _, fun selector hmem => ?_, hb.items hp.2.2⟩
    rcases List.mem_cons.mp hmem with rfl | hmem
    · exact hs.lexable hp.1
    · obtain ⟨us, hf, hus⟩ := hm.exists_phrase hp.2.1 hmem
      exact hf.lexable hus

end Phrase

namespace Sheet

variable {sheet : Sheet} {ts : List Token}

theorem coloured_envAt (h : Phrase.Sheet ts sheet) (hp : Plain ts) (number : Nat) :
    (sheet.envAt number).Coloured := by
  intro a ha
  simp only [envAt, List.mem_reverse, List.mem_filterMap] at ha
  obtain ⟨member, hm, ha⟩ := ha
  obtain ⟨us, hmember, hus⟩ := Phrase.Many.exists_phrase h hp (List.mem_of_mem_take hm)
  cases hmember with
  | assignment hf =>
    cases ha
    exact (hf.coloured hus).1
  | rule => cases ha

theorem Flattened.lexable {number : Nat} {rule : Rule} {member : Member}
    (h : sheet.Flattened (number, rule) member) (henv : (sheet.envAt number).Coloured)
    (hr : Phrase.Member ts (.rule rule)) (hp : Plain ts)
    (hn : ∀ value ∈ member.values, ¬value.Negative) :
    ∃ flat : Rule, member = .rule flat ∧ flat.Lexable := by
  obtain ⟨results, ⟨entries, rfl, -, -, hm⟩, rfl⟩ := h
  obtain ⟨hne, hselectors, hbody⟩ := hr.rule_lexable hp
  refine ⟨_, rfl, hne, hselectors, fun item hi => ?_⟩
  obtain ⟨result, hresult, rfl⟩ := List.mem_map.mp hi
  obtain ⟨⟨place, _⟩, hentry, rfl⟩ := List.mem_map.mp hresult
  obtain ⟨-, source, within, value, ha, hv, rfl⟩ := (hm place _).mp hentry
  obtain ⟨⟨us, hitem, hus⟩, hwithin⟩ := Stands.spelt ha hbody henv
  have hshown : value ∈ (Member.rule { rule with
      body := (entries.map Prod.snd).map .declaration }).values :=
    List.mem_filterMap.mpr ⟨_, hi, rfl⟩
  cases hitem with
  | declaration hf =>
    obtain ⟨hcoloured, hname, hk⟩ := hf.coloured hus
    rw [Token.word, hk] at hname
    have hvalue := Expr.coloured_of_valueIn? hcoloured hwithin hv
    exact ⟨_, rfl, hname, ⟨value, rfl, Literal.lexable_of_coloured hvalue (hn value hshown)⟩, rfl⟩

/-- What flattening leaves of a sheet can be written, but for negative numbers. -/
theorem lexable_flatten (h : Phrase.Sheet ts sheet) (hp : Plain ts)
    (hf : sheet.flatten.failure = none)
    (hn : ∀ value ∈ sheet.flatten.sheet.values, ¬value.Negative) :
    sheet.flatten.sheet.Lexable := by
  intro member hm
  rcases sheet.flatten_run with ⟨-, -, hrules⟩ | ⟨failure, hfail, -⟩
  · obtain ⟨⟨number, rule⟩, hrule, hflat⟩ := exists_rule hrules hm
    have hat := List.mem_of_getElem? (mem_rules hrule)
    obtain ⟨us, hmember, hus⟩ := Phrase.Many.exists_phrase h hp hat
    exact hflat.lexable (coloured_envAt h hp number) hmember hus fun value hv =>
      hn value (List.mem_flatMap.mpr ⟨member, hm, hv⟩)
  · rw [hf] at hfail
    cases hfail

end Sheet

end TypedStyle
