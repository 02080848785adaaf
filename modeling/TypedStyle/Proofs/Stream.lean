import TypedStyle.Reader

set_option autoImplicit false

namespace TypedStyle

def Closed (tokens : List Token) : Prop :=
  ∃ last ∈ tokens.getLast?, last.kind = .eof

theorem Closed.of_append {front rest : List Token} {token : Token}
    (h : Closed (front ++ token :: rest)) : Closed (token :: rest) := by
  simpa [Closed, List.getLast?_append, List.getLast?_cons] using h

theorem Closed.tail {first token : Token} {rest : List Token}
    (h : Closed (first :: token :: rest)) : Closed (token :: rest) :=
  of_append (List.singleton_append ▸ h)

theorem Closed.exists_next {token : Token} {rest : List Token} (h : Closed (token :: rest))
    (hk : token.kind ≠ .eof) : ∃ next more, rest = next :: more := by
  cases rest with
  | cons next more => exact ⟨next, more, rfl⟩
  | nil =>
    obtain ⟨last, hl, he⟩ := h
    simp only [List.getLast?_singleton, Option.mem_def, Option.some.injEq] at hl
    exact absurd (hl ▸ he) hk

theorem Closed.exists_cons {tokens : List Token} (h : Closed tokens) :
    ∃ token rest, tokens = token :: rest := by
  cases tokens with
  | nil => obtain ⟨last, hl, _⟩ := h; simp at hl
  | cons token rest => exact ⟨token, rest, rfl⟩

/-- A token of this kind, as one can be put behind others to complete a phrase. -/
def Token.blank (kind : Token.Kind) : Token :=
  ⟨kind, "", ⟨⟨0, ""⟩, ⟨0, ""⟩⟩⟩

theorem exists_eq_cons_of_head? {front : List Token} {stop token : Token}
    (h : (front ++ [stop]).head? = some token) (rest : List Token) :
    ∃ others, front ++ stop :: rest = token :: others := by
  cases front with
  | nil => simpa using h
  | cons => simp_all

theorem head?_of_eq_append {front rest others : List Token} {stop token : Token}
    (h : token :: rest = front ++ stop :: others) : (front ++ [stop]).head? = some token := by
  cases front <;> simp_all

namespace Reader

def stream (reader : Reader) : List Token :=
  reader.ahead ++ [reader.last]

def passed (reader : Reader) (count : Nat) : Reader :=
  { reader with
    ahead := reader.ahead.drop count
    length_ahead_le := by
      have := reader.length_ahead_le
      rw [List.length_drop]
      omega }

theorem passed_passed (reader : Reader) (m n : Nat) :
    (reader.passed m).passed n = reader.passed (m + n) := by
  simp [passed, List.drop_drop]

theorem advance_run (reader : Reader) :
    advance reader = .ok reader.current (reader.passed 1) := by
  simp [advance, passed]

/-- How deep blocks may nest, and how often a loop may turn. -/
structure Fuel where
  depth : Nat
  width : Nat

def Fuel.less (fuel : Fuel) : Fuel :=
  { fuel with width := fuel.width - 1 }

/-- A reader in front of these tokens, with fuel for all of them. -/
structure Before (reader : Reader) (fuel : Fuel) (tokens : List Token) : Prop where
  grammar : reader.grammar = .standard
  depth : reader.ahead.length ≤ fuel.depth
  width : reader.ahead.length ≤ fuel.width
  stream : reader.stream = tokens

namespace Before

variable {reader : Reader} {fuel : Fuel} {front rest : List Token} {token : Token}

theorem current (h : reader.Before fuel (token :: rest)) : reader.current = token := by
  have hs := h.stream
  rw [Reader.stream] at hs
  rw [Reader.current]
  cases ha : reader.ahead with
  | nil => simp_all
  | cons => simp_all

theorem ahead_pos (h : reader.Before fuel (token :: rest)) (hk : token.kind ≠ .eof) :
    0 < reader.ahead.length := by
  have hc := h.current
  rw [Reader.current] at hc
  cases ha : reader.ahead with
  | nil =>
    rw [ha] at hc
    exact absurd (hc ▸ reader.last_eof) hk
  | cons => simp

theorem exists_width (h : reader.Before fuel (token :: rest)) (hk : token.kind ≠ .eof) :
    ∃ n, fuel.width = n + 1 := by
  have hp := h.ahead_pos hk
  have hw := h.width
  exact ⟨fuel.width - 1, by omega⟩

theorem exists_depth (h : reader.Before fuel (token :: rest)) (hk : token.kind ≠ .eof) :
    ∃ n, fuel.depth = n + 1 := by
  have hp := h.ahead_pos hk
  have hd := h.depth
  exact ⟨fuel.depth - 1, by omega⟩

theorem length_ahead (h : reader.Before fuel (front ++ token :: rest)) :
    reader.ahead.length = front.length + rest.length := by
  have hl := congrArg List.length h.stream
  simp only [Reader.stream, List.length_append, List.length_cons, List.length_nil] at hl
  omega

theorem passed (h : reader.Before fuel (front ++ token :: rest)) :
    (reader.passed front.length).Before fuel (token :: rest) := by
  have hl := h.length_ahead
  have hd := h.depth
  have hw := h.width
  refine ⟨h.grammar, ?_, ?_, ?_⟩
  · simp only [Reader.passed, List.length_drop]; omega
  · simp only [Reader.passed, List.length_drop]; omega
  · have hs := congrArg (List.drop front.length) h.stream
    rw [List.drop_left, Reader.stream, List.drop_append_of_le_length (by omega)] at hs
    exact hs

theorem next {first : Token} (h : reader.Before fuel (first :: token :: rest)) :
    (reader.passed 1).Before fuel (token :: rest) :=
  passed (List.singleton_append ▸ h)

theorem passed_less (h : reader.Before fuel (front ++ token :: rest)) (hf : front ≠ []) :
    (reader.passed front.length).Before fuel.less (token :: rest) := by
  have hp := h.passed
  have hl := h.length_ahead
  have hw := h.width
  have hn := List.length_pos_iff.mpr hf
  refine ⟨hp.grammar, hp.depth, ?_, hp.stream⟩
  simp only [Reader.passed, List.length_drop, Fuel.less]
  omega

theorem next_less {first : Token} (h : reader.Before fuel (first :: token :: rest)) :
    (reader.passed 1).Before fuel.less (token :: rest) :=
  passed_less (List.singleton_append ▸ h) (List.cons_ne_nil first [])

end Before

end Reader

end TypedStyle
