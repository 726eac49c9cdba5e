import ExprLang.Proofs.Loop
import ExprLang.Proofs.Reading.Basic

/-!
# Tokens in view

A state has a list of tokens in view when its endless sequence, from the current token or from
the one behind it, is this list with the end behind it (`State.Views`). A rule looks one token
ahead, so every test of a rule is a test of the first token in view. The second half of the
module takes the short rules and the loops apart by such tests.
-/

namespace ExprLang.Parser

/-- The tokens of a state behind a number of others are a list without the end of input, and the
end of the source behind it. -/
structure State.Views (skipped : Nat) (state : State) (tokens : List Token) : Prop where
  /-- The endless sequence goes through the list. -/
  along : ∀ index, state.token (index + skipped) = tokens.getD index state.stream.ending
  /-- The list stops in front of the end. -/
  solid : ∀ token ∈ tokens, token.kind ≠ .endOfInput
  /-- The end is the end of input. -/
  ended : state.stream.ending.kind = .endOfInput

/-- The tokens from the current one on. -/
abbrev State.At (state : State) (tokens : List Token) : Prop := State.Views 0 state tokens

/-- The tokens behind the current one. -/
abbrev State.Ahead (state : State) (tokens : List Token) : Prop := State.Views 1 state tokens

namespace State.Views

variable {skipped : Nat} {state : State} {tokens : List Token} {token : Token}

/-- The first token in view. -/
theorem head (views : Views skipped state tokens) :
    (state.token skipped).kind = headKind tokens := by
  have first := views.along 0
  rw [Nat.zero_add] at first
  rw [first]
  cases tokens with
  | nil => exact views.ended
  | cons token tokens => rfl

/-- The first token in view, where there is one. -/
theorem first (views : Views skipped state (token :: tokens)) : state.token skipped = token := by
  have first := views.along 0
  rwa [Nat.zero_add] at first

/-- Where the first token in view is not the end, the list has a first token. -/
theorem cons (views : Views skipped state tokens)
    (more : (state.token skipped).kind ≠ .endOfInput) :
    ∃ rest, tokens = state.token skipped :: rest := by
  cases tokens with
  | nil => exact absurd views.head more
  | cons token rest => exact ⟨rest, by rw [views.first]⟩

/-- What lies in view depends on the window only. -/
theorem congr {other : State} (views : Views skipped state tokens)
    (window : ∀ index, other.token index = state.token index)
    (ending : other.stream.ending = state.stream.ending) : Views skipped other tokens := by
  refine ⟨fun index => ?_, views.solid, ?_⟩
  · rw [window, ending]
    exact views.along index
  · rw [ending]
    exact views.ended

/-- The kind of the current token. -/
theorem current_kind (views : state.At tokens) : state.current.kind = headKind tokens := views.head

/-- The kind of the next token. -/
theorem peek_kind (views : state.Ahead tokens) : state.peek.kind = headKind tokens := views.head

/-- The current token, where it is not the end. -/
theorem current_eq (views : state.At (token :: tokens)) : state.current = token := views.first

/-- The next token, where it is not the end. -/
theorem peek_eq (views : state.Ahead (token :: tokens)) : state.peek = token := views.first

/-- Behind the current token lie the others. -/
theorem behind (views : state.At (token :: tokens)) : state.Ahead tokens := by
  refine ⟨fun index => ?_, fun other inside => ?_, views.ended⟩
  · have next := views.along (index + 1)
    exact next
  · exact views.solid other (List.mem_cons_of_mem _ inside)

/-- Advancing makes the next token the current one. -/
theorem step (views : state.Ahead tokens) : state.advance.At tokens := by
  refine ⟨fun index => ?_, views.solid, ?_⟩
  · rw [State.advance_token, State.advance_ending]
    exact views.along index
  · rw [State.advance_ending]
    exact views.ended

/-- Advancing passes the next token. -/
theorem pass (views : state.Ahead (token :: tokens)) : state.advance.Ahead tokens :=
  views.step.behind

end State.Views

/-! ## Dispatch -/

/-- The kinds that begin operands are those with a rule for operands. -/
theorem operand?_isSome_eq (inner : Inner) (kind : Kind) :
    (operand? inner kind).isSome = kind.startsOperand := by
  cases kind <;> rfl

/-- A statement that begins with an operand is an expression. -/
theorem statementOfKind_operand (inner : Inner) {kind : Kind} (begins : kind.startsOperand = true) :
    statementOfKind inner kind = expressionStatement inner := by
  cases kind <;> first | rfl | exact absurd begins (by decide)

/-! ## Short rules -/

namespace Rule

variable {β : Type} {state last : State} {kind : Kind} {result : β}

/-- A look at the current token in front of a rule. -/
theorem current_bind (next : Token → Rule β) (state : State) :
    (Rule.current >>= next) state = next state.current state := rfl

/-- A step in front of a rule. -/
theorem advance_bind (next : Token → Rule β) (state : State) :
    (Rule.advance >>= next) state = next state.advance.current state.advance := rfl

/-- A step to a token of the kind in view. -/
theorem expect_ok (wanted : String) (found : state.peek.kind = kind) :
    Rule.expect kind wanted state = .ok state.peek state.advance := by
  unfold Rule.expect
  rw [bind_ok (show (get : Rule State) state = .ok state state from rfl),
    if_pos found, advance_run, State.advance_current]

/-- A step to a token of another kind than the one in view is a fault. -/
theorem expect_failed (wanted : String) (absent : state.peek.kind ≠ kind) :
    Rule.expect kind wanted state =
      .error ⟨.expected wanted state.peek.toLexeme, state.peek.position⟩ state := by
  unfold Rule.expect
  rw [bind_ok (show (get : Rule State) state = .ok state state from rfl), if_neg absent]
  rfl

/-- A step to a token of a kind in front of a rule needs this kind in view. -/
theorem expect_bind_eq_ok {wanted : String} {next : Token → Rule β} :
    (Rule.expect kind wanted >>= next) state = .ok result last ↔
      state.peek.kind = kind ∧ next state.peek state.advance = .ok result last := by
  by_cases found : state.peek.kind = kind
  · rw [bind_ok (expect_ok wanted found)]
    exact ⟨fun ran => ⟨found, ran⟩, fun ran => ran.2⟩
  · rw [bind_error (expect_failed wanted found)]
    exact ⟨fun ran => (nomatch ran), fun ran => absurd ran.1 found⟩

/-- A token of the kind in view is taken. -/
theorem accept_taken (found : state.peek.kind = kind) :
    Rule.accept kind state = .ok true state.advance := by
  unfold Rule.accept
  rw [bind_ok (show (get : Rule State) state = .ok state state from rfl), if_pos found,
    bind_ok (advance_run state)]
  rfl

/-- A token of another kind stays. -/
theorem accept_left (absent : state.peek.kind ≠ kind) :
    Rule.accept kind state = .ok false state := by
  unfold Rule.accept
  rw [bind_ok (show (get : Rule State) state = .ok state state from rfl), if_neg absent]
  rfl

/-- A rule behind an optional token. -/
theorem accept_bind_eq_ok {next : Bool → Rule β} :
    (Rule.accept kind >>= next) state = .ok result last ↔
      (state.peek.kind = kind ∧ next true state.advance = .ok result last) ∨
        (state.peek.kind ≠ kind ∧ next false state = .ok result last) := by
  by_cases here : state.peek.kind = kind
  · rw [bind_ok (accept_taken here)]
    exact ⟨fun ran => .inl ⟨here, ran⟩, fun ran => ran.elim (·.2) fun left => absurd here left.1⟩
  · rw [bind_ok (accept_left here)]
    exact ⟨fun ran => .inr ⟨here, ran⟩, fun ran => ran.elim (absurd ·.1 here) (·.2)⟩

/-! ## Turns of a loop -/

variable {α : Type} {continues : State → Bool} {turn : α → Rule α} {value : α}

/-- A loop has one run. -/
theorem Loops.unique {left right : EStateM.Result Diagnostic State α}
    (one : Loops continues turn value state left) (other : Loops continues turn value state right) :
    left = right := by
  induction one with
  | done stopped =>
    cases other with
    | done => rfl
    | failed going => exact absurd (stopped.symm.trans going) (by decide)
    | again going => exact absurd (stopped.symm.trans going) (by decide)
  | failed going ran =>
    cases other with
    | done stopped => exact absurd (stopped.symm.trans going) (by decide)
    | failed _ ran' => exact ran.symm.trans ran'
    | again _ ran' => cases ran.symm.trans ran'
  | again going ran _ ih =>
    cases other with
    | done stopped => exact absurd (stopped.symm.trans going) (by decide)
    | failed _ ran' => cases ran.symm.trans ran'
    | again _ ran' rest =>
      cases ran.symm.trans ran'
      exact ih rest

/-- A loop stops where its condition fails. -/
theorem LoopEnds.done (ends : LoopEnds continues turn value state)
    (stopped : continues state = false) :
    Rule.repeatWhile continues turn value state = .ok value state :=
  ends.unique (.done stopped)

/-- A loop stops with a fault of its turn. -/
theorem LoopEnds.failed {fault : Diagnostic} (ends : LoopEnds continues turn value state)
    (going : continues state = true) (ran : turn value state = .error fault last) :
    Rule.repeatWhile continues turn value state = .error fault last :=
  ends.unique (.failed going ran)

/-- A loop goes on behind its turn. -/
theorem LoopEnds.again {next : α} {middle : State} (ends : LoopEnds continues turn value state)
    (behind : LoopEnds continues turn next middle) (going : continues state = true)
    (ran : turn value state = .ok next middle) :
    Rule.repeatWhile continues turn value state = Rule.repeatWhile continues turn next middle :=
  ends.unique (.again going ran behind)

/-- A loop that goes on is a turn with the loop behind it. -/
theorem LoopEnds.bind_again (ends : LoopEnds continues turn value state)
    (behind : ∀ next middle, turn value state = .ok next middle →
      LoopEnds continues turn next middle) (going : continues state = true) (next : α → Rule β) :
    (Rule.repeatWhile continues turn value >>= next) state =
      (turn value >>= fun found => Rule.repeatWhile continues turn found >>= next) state := by
  cases ran : turn value state with
  | ok found middle =>
    have same := ends.again (behind found middle ran) going ran
    rw [bind_same same, bind_ok ran]
  | error fault last => rw [bind_error (ends.failed going ran), bind_error ran]

end Rule

end ExprLang.Parser
