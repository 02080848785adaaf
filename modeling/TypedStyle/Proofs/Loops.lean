import TypedStyle.Proofs.Phrase
import TypedStyle.Proofs.Reading

set_option autoImplicit false

namespace TypedStyle.Reader

variable {α : Type}

/-- The first step repeats the second one in front of every token of a certain kind, and ends in
front of any other. -/
structure Loop (loop : Fuel → Read (List α)) (one : Fuel → Read α) (goes : Token → Prop) :
    Prop where
  stop : ∀ ⦃reader : Reader⦄ ⦃fuel : Fuel⦄ ⦃token : Token⦄ ⦃rest : List Token⦄,
    reader.Before fuel (token :: rest) → ¬goes token → loop fuel reader = .ok [] reader
  turn : ∀ ⦃reader : Reader⦄ ⦃fuel : Fuel⦄ ⦃token : Token⦄ ⦃rest : List Token⦄,
    reader.Before fuel (token :: rest) → goes token → loop fuel reader =
      (do let first ← one fuel; let others ← loop fuel.less; return first :: others : Read _) reader

namespace Loop

variable {loop : Fuel → Read (List α)} {one : Fuel → Read α} {goes : Token → Prop}
  {ts us : List Token} {token next stop : Token} {x : α} {xs : List α} {failure : Failure}

theorem reads_nil (h : Loop loop one goes) (hg : ¬goes token) : Reads loop [] token [] := by
  intro reader fuel rest hb
  exact h.stop hb hg

theorem ends_cons {final : Except Failure (List α)} (h : Loop loop one goes)
    (hx : Reads one (token :: ts) next x) (hg : goes token) (hxs : Ends loop us stop final)
    (hs : (us ++ [stop]).head? = some next) :
    Ends loop (token :: ts ++ us) stop (final.map (x :: ·)) := by
  intro reader fuel rest hb
  obtain ⟨others, he⟩ := exists_eq_cons_of_head? hs rest
  have ht := h.turn (List.append_assoc .. ▸ hb) hg
  rw [List.append_assoc, he] at hb
  have hr := hxs (he ▸ hb.passed_less (List.cons_ne_nil token ts))
  rw [passed_passed, ← List.length_append] at hr
  refine ht.trans ((Step.bind_of_ok (hx hb)).trans ?_)
  cases final with
  | ok xs => exact Step.bind_of_ok hr
  | error failure => exact Step.bind_of_error hr

theorem blames_one (h : Loop loop one goes) (hx : Blames one ts stop failure)
    (hs : (ts ++ [stop]).head? = some token) (hg : goes token) :
    Blames loop ts stop failure := by
  intro reader fuel rest hb
  obtain ⟨others, he⟩ := exists_eq_cons_of_head? hs rest
  exact (h.turn (he ▸ hb) hg).trans (Step.bind_of_error (hx hb))

theorem reads {phrase : List Token → α → Prop} (h : Loop loop one goes)
    (hm : Phrase.Many phrase ts xs)
    (hp : ∀ {us x}, phrase us x → ∃ token rest, us = token :: rest ∧ goes token ∧
      ∀ next, Reads one us next x) (hs : ¬goes stop) : Reads loop ts stop xs := by
  induction hm with
  | nil => exact h.reads_nil hs
  | @cons ts us x xs hx hm ih =>
    obtain ⟨token, rest, rfl, hg, hr⟩ := hp hx
    have hne : us ++ [stop] ≠ [] := by simp
    obtain ⟨next, _, he⟩ := List.exists_cons_of_ne_nil hne
    exact h.ends_cons (hr next) hg ih (by rw [he]; rfl)

section Total

variable {phrase : List Token → α → Prop} {tokens : List Token}

theorem outcome_cons {rest : List Token} (h : Loop loop one goes) (hg : goes token)
    (hend : ∃ stop, ¬goes stop) (hne : ∀ {ts x}, phrase ts x → ts ≠ [])
    (hone : Outcome one (fun front _ => phrase front) (token :: rest))
    (hrest : ∀ {front others stop x}, token :: rest = front ++ stop :: others → phrase front x →
      Outcome loop (fun front stop xs => Phrase.Many phrase front xs ∧ ¬goes stop)
        (stop :: others)) :
    Outcome loop (fun front stop xs => Phrase.Many phrase front xs ∧ ¬goes stop)
      (token :: rest) := by
  cases hone with
  | blame hs hb hf hp =>
    obtain ⟨last, hlast⟩ := hend
    have hm := Phrase.Many.cons hp .nil
    rw [List.append_nil] at hm
    exact .blame hs (h.blames_one hb (head?_of_eq_append hs) hg) hf ⟨hm, hlast⟩
  | @read front others stop x hs hr hp =>
    obtain ⟨tail, rfl⟩ : ∃ tail, front = token :: tail := by
      cases front with
      | nil => exact absurd rfl (hne hp)
      | cons => simp_all
    cases hrest hs hp with
    | @read inner further next xs hi hxs hm =>
      have ht : token :: rest = (token :: tail ++ inner) ++ next :: further := by
        rw [hs, hi, List.append_assoc]
      exact .read ht (h.ends_cons hr hg hxs (head?_of_eq_append hi)) ⟨.cons hp hm.1, hm.2⟩
    | @blame inner further more next final xs failure hi hb hf hm =>
      have ht : token :: rest = (token :: tail ++ inner) ++ next :: further := by
        rw [hs, hi, List.append_assoc]
      have hw := Phrase.Many.cons hp hm.1
      rw [← List.append_assoc] at hw
      exact .blame ht (h.ends_cons hr hg hb (head?_of_eq_append hi)) hf ⟨hw, hm.2⟩

/-- What the repeated step does on all tokens up to a length decides what the loop does there. -/
theorem outcome (limit : Nat) (h : Loop loop one goes) (hend : ∃ stop, ¬goes stop)
    (hne : ∀ {ts x}, phrase ts x → ts ≠ [])
    (hone : ∀ {tokens}, Closed tokens → tokens.length ≤ limit →
      Outcome one (fun front _ => phrase front) tokens)
    (hc : Closed tokens) (hl : tokens.length ≤ limit) :
    Outcome loop (fun front stop xs => Phrase.Many phrase front xs ∧ ¬goes stop) tokens := by
  induction hn : tokens.length using Nat.strongRecOn generalizing tokens with
  | ind n ih =>
    obtain ⟨token, rest, rfl⟩ := hc.exists_cons
    by_cases hg : goes token
    -- the phrase is not empty, so what is left behind it is shorter
    · refine h.outcome_cons hg hend hne (hone hc hl) ?_
      intro front others stop x hs hp
      have hlen := congrArg List.length hs
      have hpos := List.length_pos_iff.mpr (hne hp)
      rw [List.length_append] at hlen
      exact ih _ (by omega) (hs ▸ hc).of_append (by omega) rfl
    · exact .read rfl (h.reads_nil hg) ⟨.nil, hg⟩

end Total

end Loop

end TypedStyle.Reader
