import TypedStyle.Proofs.Progress

set_option autoImplicit false

namespace TypedStyle.Reader

inductive Call where
  | advance
  | expect (kind : Token.Kind)
  | expectOr (kind : Token.Kind) (failure? : Option Failure)
  | expression (floor : Power)
  | operand
  | operation (left : Expr) (power : Power)
  | item
  | declaration
  | assignment
  | branch
  | rule
  deriving Repr, DecidableEq

namespace Call

abbrev Value : Call → Type
  | .advance | .expect _ | .expectOr _ _ => Token
  | .expression _ | .operand | .operation _ _ => Expr
  | .item | .branch => Item
  | .declaration => Declaration
  | .assignment => Assignment
  | .rule => Rule

def run : (call : Call) → Read call.Value
  | .advance => Reader.advance
  | .expect kind => Reader.expect kind
  | .expectOr kind failure? => Reader.expectOr kind failure?
  | .expression floor => Reader.expression floor
  | .operand => Reader.operand
  | .operation left power => Reader.operation left power
  | .item => Reader.item
  | .declaration => Reader.declaration
  | .assignment => Reader.assignment
  | .branch => Reader.branch
  | .rule => Reader.rule

def clocked : (call : Call) → Nat → Attempt call.Value
  | .advance, _ => liftM Reader.advance
  | .expect kind, _ => liftM (Reader.expect kind)
  | .expectOr kind failure?, _ => liftM (Reader.expectOr kind failure?)
  | .expression floor, clock => Clocked.expression clock floor
  | .operand, _ => liftM Reader.operand
  | .operation left power, clock => Clocked.operation clock left power
  | .item, clock => Clocked.item clock
  | .declaration, clock => Clocked.declaration clock
  | .assignment, clock => Clocked.assignment clock
  | .branch, clock => Clocked.branch clock
  | .rule, clock => Clocked.rule clock

def expects : Call → Bool
  | .expect _ | .expectOr _ _ => true
  | _ => false

/-- How many tokens the call passes at least when it succeeds: one if it reads a part of a sheet. -/
def least : Call → Nat
  | .advance | .expect _ | .expectOr _ _ => 0
  | _ => 1

def after (call : Call) (reader : Reader) : Reader :=
  final (call.run reader)

def afterAll (calls : List Call) (reader : Reader) : Reader :=
  calls.foldl (fun reader call => call.after reader) reader

variable {reader : Reader} {fuel : Nat}

theorem settles (call : Call) (h : reader.Ready fuel) :
    Settles call.clocked call.run call.least reader := by
  cases call with
  | advance => exact .lift advance_forward
  | expect kind => exact .lift expect_forward
  | expectOr kind failure? => exact .lift (expectOr_forward failure? fun _ => leadsTo_passed)
  | expression floor => exact expression_settles floor h
  | operand => exact .lift operand_forward
  | operation left power => exact operation_settles left power h
  | item => exact item_settles h
  | declaration => exact declaration_settles h
  | assignment => exact assignment_settles h
  | branch => exact branch_settles h
  | rule => exact rule_settles h

theorem leadsTo_after (call : Call) (h : reader.Ready fuel) :
    reader.LeadsTo 0 (call.after reader) :=
  (call.settles h).forward.final

theorem leadsTo_afterAll (calls : List Call) (h : reader.Ready fuel) :
    reader.LeadsTo 0 (afterAll calls reader) := by
  induction calls generalizing reader with
  | nil => exact .refl
  | cons call calls ih =>
    have hafter := call.leadsTo_after h
    exact hafter.trans (ih (h.leadsTo hafter))

theorem eq_of_expects {call : Call} {failure : Failure} {stuck : Reader}
    (he : call.expects = true) (h : call.run reader = .error failure stuck) : stuck = reader := by
  cases call with
  | expect kind =>
    rw [run, expect_eq_expectOr] at h
    exact eq_of_expectOr_error h
  | expectOr kind failure? => exact eq_of_expectOr_error h
  | _ => cases he

end Call

/-- How many of these tokens the reader has passed, if they were in front of it. -/
def cursor (reader : Reader) (tokens : List Token) : Nat :=
  tokens.length - reader.stream.length

/-- The reader is in front of one of these tokens, with all those behind it. -/
structure Within (reader : Reader) (tokens : List Token) : Prop where
  lt : reader.cursor tokens < tokens.length
  stream : reader.stream = tokens.drop (reader.cursor tokens)

section Within

variable {reader after : Reader} {tokens : List Token} {count least : Nat}

theorem length_stream (reader : Reader) : reader.stream.length = reader.ahead.length + 1 := by
  rw [stream, List.length_append, List.length_singleton]

theorem stream_passed (hc : count ≤ reader.ahead.length) :
    (reader.passed count).stream = reader.stream.drop count := by
  rw [stream, stream, passed, List.drop_append_of_le_length hc]

theorem cursor_of_stream (h : reader.stream = tokens) : reader.cursor tokens = 0 := by
  rw [cursor, h, Nat.sub_self]

theorem within_of_stream (h : reader.stream = tokens) : reader.Within tokens := by
  have hl := reader.length_stream
  refine ⟨?_, ?_⟩
  · rw [cursor_of_stream h, ← h]
    omega
  · rw [cursor_of_stream h, h, List.drop_zero]

namespace Within

theorem getElem?_cursor (h : reader.Within tokens) :
    tokens[reader.cursor tokens]? = some reader.current := by
  obtain ⟨rest, hs⟩ := reader.stream_eq_cons
  rw [← List.head?_drop, ← h.stream, hs, List.head?_cons]

theorem cursor_add_length (h : reader.Within tokens) :
    reader.cursor tokens + reader.stream.length = tokens.length := by
  have hlength := congrArg List.length h.stream
  have hlt := h.lt
  rw [List.length_drop] at hlength
  omega

theorem cursor_passed (h : reader.Within tokens) (hc : count ≤ reader.ahead.length) :
    (reader.passed count).cursor tokens = reader.cursor tokens + count := by
  have hsum := h.cursor_add_length
  have hlength := reader.length_stream
  rw [cursor, stream_passed hc, List.length_drop]
  omega

theorem passed (h : reader.Within tokens) (hc : count ≤ reader.ahead.length) :
    (reader.passed count).Within tokens := by
  have hsum := h.cursor_add_length
  have hlength := reader.length_stream
  refine ⟨?_, ?_⟩
  · rw [h.cursor_passed hc]
    omega
  · rw [h.cursor_passed hc, stream_passed hc, h.stream, List.drop_drop]

theorem leadsTo (h : reader.Within tokens) (hr : reader.LeadsTo least after) :
    after.Within tokens ∧ reader.cursor tokens + least ≤ after.cursor tokens := by
  obtain ⟨count, hn, hc, rfl⟩ := hr
  have hcursor := h.cursor_passed hc
  exact ⟨h.passed hc, by omega⟩

end Within

end Within

theorem power?_eof (created : Bool) :
    (if created then Grammar.standard else Grammar.empty).power? .eof = none := by
  cases created <;> rfl

/-- The grammar may be the standard one or the empty one, and the tokens any, with ends of file
anywhere or nowhere. A call that never ended would give nothing whatever the clock. -/
theorem calls_go_forward (tokens : List Token) (file : String) (created : Bool)
    (calls : List Call) (call : Call) :
    let all := closeTokens tokens file
    let start := ofTokens tokens file (if created then .standard else .empty)
    let before := Call.afterAll calls start
    let after := call.after before
    Closed all ∧ start.cursor all = 0 ∧ before.Within all ∧ after.Within all ∧
      all[before.cursor all]? = some before.current ∧
      (∃ turns, ∀ clock, turns ≤ clock →
        call.clocked clock before = some (Attempt.ending (call.run before))) ∧
      before.cursor all ≤ after.cursor all ∧
      (∀ failure stuck, call.expects = true → call.run before = .error failure stuck →
        stuck = before) ∧
      ∀ value behind, call.run before = .ok value behind →
        before.cursor all + call.least ≤ behind.cursor all := by
  intro all start before after
  have hstart : start.stream = all := stream_ofTokens tokens file _
  have hready : start.Ready start.budget := ready_ofTokens tokens file _ (power?_eof created)
  have hcalls : start.LeadsTo 0 before := Call.leadsTo_afterAll calls hready
  have hbefore : before.Within all := ((within_of_stream hstart).leadsTo hcalls).1
  have hsettles := call.settles (hready.leadsTo hcalls)
  obtain ⟨hafter, hforward⟩ := hbefore.leadsTo (call.leadsTo_after (hready.leadsTo hcalls))
  refine ⟨closed_closeTokens tokens file, cursor_of_stream hstart, hbefore, hafter,
    hbefore.getElem?_cursor, hsettles.ends, hforward, fun _ _ => Call.eq_of_expects, ?_⟩
  intro value behind hrun
  have hread := hsettles.forward
  rw [hrun] at hread
  exact (hbefore.leadsTo hread).2

/-- The first call fails where it is, and the second one at an end of file in the middle, which the
third one passes. The token behind it is read as any other. -/
theorem calls_go_forward_past_eof :
    let tokens : List Token := [.blank .trueWord, .blank .plus, .blank .eof, .blank .falseWord]
    let all := closeTokens tokens ""
    let start := ofTokens tokens "" .standard
    let before := Call.afterAll [.expect .semicolon, .expression .base, .advance] start
    let after := Call.operand.after before
    (Call.expect .semicolon).after start = start ∧ before.cursor all = 3 ∧ all.length = 5 ∧
      Call.operand.run before = .ok (.literal (.bool false)) after ∧
      before.cursor all + 1 ≤ after.cursor all ∧
      ∃ turns, ∀ clock, turns ≤ clock →
        Call.operand.clocked clock before = some (.ok (.literal (.bool false)), after) := by
  intro tokens all start before after
  obtain ⟨-, -, -, -, -, -, -, hstays, -⟩ := calls_go_forward tokens "" true [] (.expect .semicolon)
  obtain ⟨-, -, -, -, -, hends, -, -, hpasses⟩ := calls_go_forward tokens "" true
    [.expect .semicolon, .expression .base, .advance] .operand
  exact ⟨hstays _ _ rfl rfl, rfl, rfl, rfl, hpasses _ _ rfl, hends⟩

end TypedStyle.Reader
