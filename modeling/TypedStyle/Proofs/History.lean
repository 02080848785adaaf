import TypedStyle.Proofs.Describes

/-!
What a scope knows, by the history of what has been done to it.
-/

set_option autoImplicit false

namespace TypedStyle.Scope

inductive Event (α : Type) where
  | push
  | pop
  | declare (name : String) (value : α)
  deriving Repr, DecidableEq

namespace Event

variable {α : Type}

def rise : Event α → Int
  | .push => 1
  | .pop => -1
  | .declare _ _ => 0

end Event

variable {α : Type}

def apply (scope : Scope α) : Event α → Scope α
  | .push => scope.push
  | .pop => scope.pop
  | .declare name value => scope.declare name value

def after (scope : Scope α) (history : List (Event α)) : Scope α :=
  history.foldl apply scope

inductive Balanced : List (Event α) → Prop
  | nil : Balanced []
  | declare {name : String} {value : α} {rest : List (Event α)} :
      Balanced rest → Balanced (.declare name value :: rest)
  | frame {inner rest : List (Event α)} :
      Balanced inner → Balanced rest → Balanced (.push :: (inner ++ .pop :: rest))

/-- A frame has been opened and is open at the end. It is the innermost one there. -/
def Entered (history : List (Event α)) : Prop :=
  ∃ outer inner, history = outer ++ .push :: inner ∧ Balanced inner

/-- The frame that was the innermost one before these events has been left. -/
def Left (since : List (Event α)) : Prop :=
  ∃ inner rest, since = inner ++ .pop :: rest ∧ Balanced inner

/-- The event at this place binds the name in a frame, and the frame has not been left since. -/
def LiveAt (history : List (Event α)) (place : Nat) (name : String) (value : α) : Prop :=
  ∃ past since, history = past ++ .declare name value :: since ∧ place = past.length ∧
    Entered past ∧ ¬Left since

def Latest (history : List (Event α)) (name : String) (value : α) : Prop :=
  ∃ place, LiveAt history place name value ∧
    ∀ other found, LiveAt history other name found → other ≤ place

section After

variable {scope : Scope α} {history inner rest : List (Event α)}

theorem after_append (scope : Scope α) (history rest : List (Event α)) :
    scope.after (history ++ rest) = (scope.after history).after rest :=
  List.foldl_append

theorem after_concat (scope : Scope α) (history : List (Event α)) (event : Event α) :
    scope.after (history ++ [event]) = (scope.after history).apply event :=
  after_append scope history [event]

/-- Only the innermost frame can differ behind balanced events. -/
theorem Balanced.pop_after (h : Balanced history) (scope : Scope α) :
    (scope.after history).pop = scope.pop := by
  induction h generalizing scope with
  | nil => rfl
  | @declare name value rest _ ih => exact (ih _).trans (scope.pop_declare name value)
  | @frame inner rest _ _ ihi ihr =>
    have hinner : (scope.push.after inner).pop = scope := ihi scope.push
    have hframe : scope.after (.push :: (inner ++ .pop :: rest)) =
        ((scope.push.after inner).pop).after rest := after_append scope.push inner _
    rw [hframe, hinner, ihr]

theorem Balanced.depth_after (h : Balanced history) (scope : Scope α) :
    (scope.after history).depth = scope.depth := by
  induction h generalizing scope with
  | nil => rfl
  | @declare name value rest _ ih => exact (ih _).trans (scope.depth_declare name value)
  | @frame inner rest hi _ _ ihr =>
    have hframe : scope.after (.push :: (inner ++ .pop :: rest)) =
        ((scope.push.after inner).pop).after rest := after_append scope.push inner _
    rw [hframe, hi.pop_after, ihr, pop_push]

theorem after_frame (h : Balanced inner) (scope : Scope α) (history rest : List (Event α)) :
    scope.after (history ++ .push :: (inner ++ .pop :: rest)) =
      scope.after (history ++ rest) := by
  have hframe : (scope.after history).after (.push :: (inner ++ .pop :: rest)) =
      (((scope.after history).push.after inner).pop).after rest := after_append _ inner _
  rw [after_append, hframe, h.pop_after, pop_push, after_append]

theorem eq_empty_of_depth (h : scope.depth = 0) : scope = empty := by
  obtain ⟨frames⟩ := scope
  obtain rfl := List.length_eq_zero_iff.mp h
  rfl

end After

section Balance

variable {history front rest inner since : List (Event α)} {name : String} {value : α}

def rise : List (Event α) → Int
  | [] => 0
  | event :: history => event.rise + rise history

@[simp]
theorem rise_nil : rise ([] : List (Event α)) = 0 := rfl

@[simp]
theorem rise_cons (event : Event α) (history : List (Event α)) :
    rise (event :: history) = event.rise + rise history := rfl

@[simp]
theorem rise_append (history rest : List (Event α)) :
    rise (history ++ rest) = rise history + rise rest := by
  induction history with
  | nil => rw [List.nil_append, rise_nil, Int.zero_add]
  | cons event history ih => rw [List.cons_append, rise_cons, rise_cons, ih, Int.add_assoc]

namespace Balanced

theorem rise_eq (h : Balanced history) : rise history = 0 := by
  induction h with
  | nil => rfl
  | declare _ ih => rw [rise_cons, ih]; rfl
  | frame _ _ ihi ihr =>
    rw [rise_cons, rise_append, rise_cons, ihi, ihr]
    rfl

theorem rise_front (h : Balanced (front ++ rest)) : 0 ≤ rise front := by
  generalize hs : front ++ rest = history at h
  induction h generalizing front rest with
  | nil =>
    obtain ⟨rfl, -⟩ := List.append_eq_nil_iff.mp hs
    exact Int.le_refl 0
  | declare _ ih =>
    rcases List.append_eq_cons_iff.mp hs with ⟨rfl, -⟩ | ⟨more, rfl, hm⟩
    · exact Int.le_refl 0
    · have hmore := ih hm.symm
      simpa [Event.rise] using hmore
  | frame hi _ ihi ihr =>
    rcases List.append_eq_cons_iff.mp hs with ⟨rfl, -⟩ | ⟨more, rfl, hm⟩
    · exact Int.le_refl 0
    · -- the front ends in the frame or behind it
      rcases List.append_eq_append_iff.mp hm with ⟨behind, rfl, hb⟩ | ⟨within, hw, -⟩
      · rcases List.cons_eq_append_iff.mp hb with ⟨rfl, -⟩ | ⟨others, rfl, ho⟩
        · simp [Event.rise, hi.rise_eq]
        · have hothers := ihr ho.symm
          simp only [rise_cons, rise_append, Event.rise, hi.rise_eq]
          omega
      · have hmore : 0 ≤ rise more := ihi hw.symm
        simp only [rise_cons, Event.rise]
        omega

theorem rise_rest (h : Balanced (front ++ rest)) : rise rest ≤ 0 := by
  have hfront := h.rise_front
  have hwhole := h.rise_eq
  rw [rise_append] at hwhole
  omega

theorem not_left (h : Balanced history) : ¬Left history := by
  rintro ⟨inner, rest, rfl, hi⟩
  rw [List.append_cons] at h
  have hfront := h.rise_front
  simp [Event.rise, hi.rise_eq] at hfront

theorem not_entered (h : Balanced history) : ¬Entered history := by
  rintro ⟨outer, inner, rfl, hi⟩
  have hrest := h.rise_rest
  simp [Event.rise, hi.rise_eq] at hrest

end Balanced

theorem Left.append (h : Left since) (rest : List (Event α)) : Left (since ++ rest) := by
  obtain ⟨inner, more, rfl, hi⟩ := h
  exact ⟨inner, more ++ rest, by rw [List.append_assoc, List.cons_append], hi⟩

theorem Entered.prepend (h : Entered history) (front : List (Event α)) :
    Entered (front ++ history) := by
  obtain ⟨outer, inner, rfl, hi⟩ := h
  exact ⟨front ++ outer, inner, by rw [List.append_assoc], hi⟩

theorem Entered.cons (h : Entered history) (event : Event α) : Entered (event :: history) :=
  h.prepend [event]

/-- Events that do not leave the frame in which they start end in it or in one they have opened. -/
theorem balanced_or_left_or_entered (history : List (Event α)) :
    Balanced history ∨ Left history ∨ Entered history := by
  induction hn : history.length using Nat.strongRecOn generalizing history with
  | ind n ih =>
    subst hn
    cases history with
    | nil => exact .inl .nil
    | cons event more =>
      have hmore := ih more.length (by simp) more rfl
      cases event with
      | declare name value =>
        obtain h | ⟨inner, rest, rfl, hi⟩ | h := hmore
        · exact .inl (.declare h)
        · exact .inr (.inl ⟨.declare name value :: inner, rest, rfl, .declare hi⟩)
        · exact .inr (.inr (h.cons _))
      | pop => exact .inr (.inl ⟨[], more, rfl, .nil⟩)
      | push =>
        obtain h | ⟨inner, rest, rfl, hi⟩ | h := hmore
        · exact .inr (.inr ⟨[], more, rfl, h⟩)
        · -- the frame is closed, and all depends on what comes behind it
          have hsplit : (.push :: (inner ++ .pop :: rest) : List (Event α)) =
              (.push :: (inner ++ [.pop])) ++ rest := by simp
          obtain h | ⟨between, behind, rfl, hb⟩ | h := ih rest.length (by simp; omega) rest rfl
          · exact .inl (.frame hi h)
          · have hframe := Balanced.frame hi hb
            exact .inr (.inl ⟨_, behind, by simp, hframe⟩)
          · exact .inr (.inr (hsplit ▸ h.prepend _))
        · exact .inr (.inr (h.cons _))

theorem Left.of_append_balanced (hr : Balanced rest) (h : Left (since ++ rest)) : Left since := by
  obtain ⟨inner, more, hs, hi⟩ := h
  rcases List.append_eq_append_iff.mp hs with ⟨within, rfl, rfl⟩ | ⟨behind, rfl, hb⟩
  · -- the pop would be one of the balanced events, and the events before it would be too deep
    have hfront := (List.append_cons within .pop more ▸ hr).rise_front
    have hrest := hi.rise_rest
    simp only [rise_append, rise_cons, rise_nil, Event.rise] at hfront
    omega
  · rcases List.cons_eq_append_iff.mp hb with ⟨rfl, rfl⟩ | ⟨others, rfl, -⟩
    · exact absurd ⟨[], more, rfl, .nil⟩ hr.not_left
    · exact ⟨inner, others, rfl, hi⟩

theorem concat_eq_append_cons {since : List (Event α)} {last event : Event α}
    (h : history ++ [last] = front ++ event :: since) :
    (since = [] ∧ front = history ∧ event = last) ∨
      ∃ others, since = others ++ [last] ∧ history = front ++ event :: others := by
  obtain rfl | ⟨others, final, rfl⟩ := List.eq_nil_or_concat since
  · obtain ⟨hfront, hevent⟩ := List.append_inj' h rfl
    exact .inl ⟨rfl, hfront.symm, (List.cons.inj hevent).1.symm⟩
  · rw [List.concat_eq_append, ← List.cons_append, ← List.append_assoc] at h
    obtain ⟨hfront, hfinal⟩ := List.append_inj' h rfl
    exact .inr ⟨others, by rw [List.concat_eq_append, hfinal], hfront⟩

theorem left_concat_iff {event : Event α} (h : event ≠ .pop) :
    Left (since ++ [event]) ↔ Left since := by
  refine ⟨?_, fun hs => hs.append _⟩
  rintro ⟨inner, rest, hs, hi⟩
  rcases concat_eq_append_cons hs with ⟨-, -, hevent⟩ | ⟨others, -, rfl⟩
  · exact absurd hevent.symm h
  · exact ⟨inner, others, rfl, hi⟩

theorem entered_of_not_left (h : ¬Left (since ++ [.pop])) : Entered since := by
  rcases balanced_or_left_or_entered since with hs | hs | hs
  · exact absurd ⟨since, [], rfl, hs⟩ h
  · exact absurd (hs.append _) h
  · exact hs

theorem after_of_not_entered (h : ¬Entered history) :
    (empty : Scope α).after history = empty := by
  induction hn : history.length using Nat.strongRecOn generalizing history with
  | ind n ih =>
    subst hn
    rcases balanced_or_left_or_entered history with hb | ⟨inner, rest, rfl, hi⟩ | he
    · exact eq_empty_of_depth (hb.depth_after empty)
    · have hinner : (empty : Scope α).after inner = empty :=
        eq_empty_of_depth (hi.depth_after empty)
      have hpop : (empty : Scope α).after (inner ++ .pop :: rest) =
          (empty : Scope α).after rest := by
        rw [after_append, hinner]
        rfl
      rw [hpop]
      refine ih rest.length (by simp; omega) (fun he => h ?_) rfl
      rw [List.append_cons]
      exact he.prepend _
    · exact absurd he h

theorem Entered.depth_pos (h : Entered history) (scope : Scope α) :
    0 < (scope.after history).depth := by
  obtain ⟨outer, inner, rfl, hi⟩ := h
  have hpush : (scope.after (outer ++ .push :: inner)) = (scope.after outer).push.after inner :=
    after_append scope outer _
  rw [hpush, hi.depth_after, depth_push]
  exact Nat.succ_pos _

end Balance

section Live

variable {history outer inner : List (Event α)} {place : Nat} {name : String} {value : α}

theorem LiveAt.getElem? (h : LiveAt history place name value) :
    history[place]? = some (.declare name value) := by
  obtain ⟨past, since, rfl, rfl, -⟩ := h
  simp

theorem liveAt_concat_iff {event : Event α} (h : event ≠ .pop) :
    LiveAt (history ++ [event]) place name value ↔ LiveAt history place name value ∨
      event = .declare name value ∧ place = history.length ∧ Entered history := by
  constructor
  · rintro ⟨past, since, hs, rfl, he, hl⟩
    rcases concat_eq_append_cons hs with ⟨-, rfl, rfl⟩ | ⟨others, rfl, rfl⟩
    · exact .inr ⟨rfl, rfl, he⟩
    · exact .inl ⟨past, others, rfl, rfl, he, fun hleft => hl (hleft.append _)⟩
  · rintro (⟨past, since, rfl, rfl, he, hl⟩ | ⟨rfl, rfl, he⟩)
    · rw [← left_concat_iff h] at hl
      exact ⟨past, since ++ [event], by simp, rfl, he, hl⟩
    · exact ⟨history, [], rfl, rfl, he, Balanced.nil.not_left⟩

theorem liveAt_frame_iff (hi : Balanced inner) :
    LiveAt (outer ++ .push :: (inner ++ [.pop])) place name value ↔
      LiveAt outer place name value := by
  constructor
  · rintro ⟨past, since, hs, rfl, he, hl⟩
    rcases List.append_eq_append_iff.mp hs with ⟨behind, rfl, hb⟩ | ⟨behind, rfl, hb⟩
    · rcases List.cons_eq_append_iff.mp hb with ⟨rfl, hpush⟩ | ⟨before, rfl, hbefore⟩
      · cases hpush
      · -- the pop at the end leaves the frame of the binding, if that is inside
        rcases concat_eq_append_cons hbefore with ⟨-, -, hpop⟩ | ⟨others, rfl, rfl⟩
        · cases hpop
        · exact absurd (((entered_of_not_left hl).cons _).prepend before) hi.not_entered
    · rcases List.cons_eq_append_iff.mp hb with ⟨rfl, hpush⟩ | ⟨others, rfl, rfl⟩
      · cases hpush
      · exact ⟨past, others, rfl, rfl, he, fun hleft => hl (hleft.append _)⟩
  · rintro ⟨past, since, rfl, rfl, he, hl⟩
    refine ⟨past, since ++ .push :: (inner ++ [.pop]), by simp, rfl, he, fun hleft => hl ?_⟩
    exact hleft.of_append_balanced (.frame hi .nil)

theorem not_liveAt_of_not_entered (h : ¬Entered history) :
    ¬LiveAt (history ++ [.pop]) place name value := by
  rintro ⟨past, since, hs, rfl, he, hl⟩
  rcases concat_eq_append_cons hs with ⟨-, -, hpop⟩ | ⟨others, rfl, rfl⟩
  · cases hpop
  · exact h (((entered_of_not_left hl).cons _).prepend past)

theorem Latest.unique {found : α} (h : Latest history name value)
    (hf : Latest history name found) : value = found := by
  obtain ⟨place, hlive, hlatest⟩ := h
  obtain ⟨other, hother, hbehind⟩ := hf
  obtain rfl := Nat.le_antisymm (hbehind place value hlive) (hlatest other found hother)
  have hevents := hlive.getElem?.symm.trans hother.getElem?
  simpa using hevents

def Recalls (history : List (Event α)) (name : String) : Option α → Prop
  | none => ∀ place value, ¬LiveAt history place name value
  | some value => Latest history name value

theorem Recalls.congr {other : List (Event α)} {result : Option α}
    (h : Recalls history name result)
    (hl : ∀ place value, LiveAt other place name value ↔ LiveAt history place name value) :
    Recalls other name result := by
  cases result with
  | none => exact fun place value hlive => h place value ((hl place value).mp hlive)
  | some value =>
    obtain ⟨place, hlive, hlatest⟩ := h
    exact ⟨place, (hl place value).mpr hlive,
      fun later found hlater => hlatest later found ((hl later found).mp hlater)⟩

theorem Recalls.declare {result : Option α} (h : Recalls history name result)
    (he : Entered history) (other : String) (value : α) :
    Recalls (history ++ [.declare other value]) name
      (if name = other then some value else result) := by
  by_cases hn : name = other
  · subst hn
    rw [if_pos rfl]
    have hne : Event.declare name value ≠ .pop := nofun
    refine ⟨history.length, (liveAt_concat_iff hne).mpr (.inr ⟨rfl, rfl, he⟩), ?_⟩
    intro later found hlater
    have hlength := (List.getElem?_eq_some_iff.mp hlater.getElem?).1
    rw [List.length_append, List.length_singleton] at hlength
    omega
  · rw [if_neg hn]
    refine h.congr fun place found => ?_
    have hne : Event.declare other value ≠ .pop := nofun
    have hother : Event.declare other value ≠ .declare name found := by simp [Ne.symm hn]
    rw [liveAt_concat_iff hne, or_iff_left fun hand => hother hand.1]

theorem recalls_resolve? (history : List (Event α)) (name : String) :
    Recalls history name (((empty : Scope α).after history).resolve? name) := by
  induction hn : history.length using Nat.strongRecOn generalizing history with
  | ind n ih =>
    subst hn
    obtain rfl | ⟨past, event, rfl⟩ := List.eq_nil_or_concat history
    · rintro place value ⟨past, since, hs, -⟩
      simp at hs
    rw [List.concat_eq_append]
    have hpast := ih past.length (by simp) past rfl
    cases event with
    | push =>
      rw [after_concat, apply, resolve?_push]
      exact hpast.congr fun place value => by simp [liveAt_concat_iff]
    | declare other value =>
      rw [after_concat, apply]
      by_cases he : Entered past
      · rw [resolve?_declare _ _ _ _ (he.depth_pos empty)]
        exact hpast.declare he other value
      · have hnone : (empty : Scope α).declare other value = empty := rfl
        rw [after_of_not_entered he, hnone, ← after_of_not_entered he]
        exact hpast.congr fun place found => by simp [liveAt_concat_iff, he]
    | pop =>
      by_cases he : Entered past
      · obtain ⟨outer, inner, rfl, hi⟩ := he
        rw [List.append_assoc, List.cons_append, after_frame hi, List.append_nil]
        have houter := ih outer.length (by simp) outer rfl
        exact houter.congr fun place value => liveAt_frame_iff hi
      · rw [after_concat, after_of_not_entered he]
        exact fun place value => not_liveAt_of_not_entered he

end Live

theorem resolve?_eq_some_iff {history : List (Event α)} {name : String} {value : α} :
    ((empty : Scope α).after history).resolve? name = some value ↔ Latest history name value := by
  have hrecalls := recalls_resolve? history name
  constructor
  · intro hvalue
    rwa [hvalue] at hrecalls
  · intro hlatest
    cases hfound : ((empty : Scope α).after history).resolve? name with
    | none =>
      rw [hfound] at hrecalls
      obtain ⟨place, hlive, -⟩ := hlatest
      exact absurd hlive (hrecalls place value)
    | some found =>
      rw [hfound] at hrecalls
      rw [hlatest.unique hrecalls]

theorem resolve?_eq_none_iff {history : List (Event α)} {name : String} :
    ((empty : Scope α).after history).resolve? name = none ↔
      ∀ place value, ¬LiveAt history place name value := by
  have hrecalls := recalls_resolve? history name
  constructor
  · intro hnone
    rwa [hnone] at hrecalls
  · intro hall
    cases hfound : ((empty : Scope α).after history).resolve? name with
    | none => rfl
    | some found =>
      rw [hfound] at hrecalls
      obtain ⟨place, hlive, -⟩ := hrecalls
      exact absurd hlive (hall place found)

/-- Pops without a frame and bindings outside of all frames are events like all others, and make no
difference. -/
theorem resolve?_history :
    (∀ (history : List (Event α)) (name : String),
      (∀ value, ((empty : Scope α).after history).resolve? name = some value ↔
        Latest history name value) ∧
      (((empty : Scope α).after history).resolve? name = none ↔
        ∀ place value, ¬LiveAt history place name value)) ∧
    ∀ before inner later : List (Event α), Balanced inner →
      let scope := (empty : Scope α).after (before ++ .push :: (inner ++ .pop :: later))
      let other := (empty : Scope α).after (before ++ later)
      (∀ name, scope.resolve? name = other.resolve? name) ∧ scope.depth = other.depth := by
  refine ⟨fun history name => ⟨fun value => resolve?_eq_some_iff, resolve?_eq_none_iff⟩, ?_⟩
  intro before inner later hi scope other
  have hscope : scope = other := after_frame hi empty before later
  exact ⟨fun name => by rw [hscope], by rw [hscope]⟩

/-- The first binding has no frame and the third has lost its own; what is bound again later is
another name. -/
theorem resolve?_history_of_shadowed :
    let before : List (Event Nat) :=
      [.declare "K" 1, .pop, .push, .declare "K" 2]
    let inner : List (Event Nat) := [.declare "K" 3, .push, .pop]
    let later : List (Event Nat) := [.declare "L" 4]
    let history := before ++ .push :: (inner ++ .pop :: later)
    Balanced inner ∧ Latest history "K" 2 ∧ (∀ place value, ¬LiveAt history place "M" value) ∧
      ((empty : Scope Nat).after history).resolve? "K" =
        ((empty : Scope Nat).after (before ++ later)).resolve? "K" := by
  intro before inner later history
  obtain ⟨hresolve, hframe⟩ := resolve?_history (α := Nat)
  have hi : Balanced inner := .declare (.frame .nil .nil)
  exact ⟨hi, ((hresolve history "K").1 2).mp rfl, (hresolve history "M").2.mp rfl,
    (hframe before inner later hi).1 "K"⟩

end TypedStyle.Scope
