import ExprLang.Proofs.Blame.Basic

/-!
# Runs and whom they blame

Each rule of the grammar blames tokens in order. The token that a construct begins with is not
blamed yet; behind a construct the token that comes next may be, for a missing operand leaves the
token that closes the construct to be read again (`ofRoom_blames`). Between two statements of a
source nothing ahead is blamed (`program_blames`).
-/

namespace ExprLang.Parser

open Rule (EndsBlamed bind_ok current_bind)

variable {start : State}

/-! ## Operands of one token -/

/-- A name blames nothing. -/
theorem name_blames : name.Blames start 0 1 :=
  Rule.current_blames.sequence fun _ => .value _ (Nat.zero_le 1)

/-- An integer that cannot be read is blamed. -/
theorem integer_blames : integer.Blames start 0 1 := by
  intro state blamed
  unfold integer
  rw [current_bind]
  cases readInteger? state.current.text with
  | some value => exact blamed.mono (Nat.zero_le 1)
  | none => exact (blamed.push ⟨.unreadableInteger, rfl⟩).mono (Nat.zero_le 1)

/-- A truth value blames nothing. -/
theorem boolean_blames : boolean.Blames start 0 1 :=
  Rule.current_blames.sequence fun _ => .value _ (Nat.zero_le 1)

/-! ## Parameters -/

/-- A parameter that is no name is blamed. -/
theorem parameter_blames : parameter.Blames start 1 0 :=
  (Rule.expect_blames _ (by decide)).sequence fun _ => .value _ (Nat.le_refl 0)

/-- Parameters blame what stands in their place. -/
theorem parameters_blames : parameters.Blames start 1 1 := by
  refine (Rule.accept_blames _).sequence fun closing => ?_
  split
  · exact .value _ (Nat.le_refl 1)
  · refine parameter_blames.sequence fun first => ?_
    refine ((Rule.repeatWhile_blames (fun names => ?_) _).from (Nat.zero_le 1)).sequence
      fun names => ?_
    · exact Rule.advance_blames.sequence fun _ => (parameter_blames.from (Nat.zero_le 1)).sequence
        fun _ => .value _ (Nat.zero_le 1)
    · exact (Rule.expect_blames _ (by decide)).sequence fun _ => .value _ (Nat.zero_le 1)

/-! ## Expressions -/

/-- The constructs inside blame tokens in order. An expression is taken together with the step in
front of it, which its placeholder may undo. -/
structure Inner.Blames (start : State) (inner : Inner) : Prop where
  /-- An expression behind a step. -/
  operand : ∀ above, (do _ ← Rule.advance; inner.derive (.expression above)).Blames start 1 1
  /-- The expression that a statement begins with. -/
  leading : (do let first ← Rule.current; leading inner first.kind).Blames start 0 1
  /-- A block. -/
  block : inner.block.Blames start 0 1

section

variable {inner : Inner} (inside : inner.Blames start)

include inside

/-- An expression behind a step, and what follows it. -/
theorem operandThen_blames {β : Type} {before after : Nat} (above : Precedence)
    {next : Expr → Rule β} (le : before ≤ 1) (rest : ∀ value, (next value).Blames start 1 after) :
    (do _ ← Rule.advance; let value ← inner.derive (.expression above); next value).Blames
      start before after := by
  have grouped := ((inside.operand above).from le).sequence rest
  rwa [bind_assoc] at grouped

/-- An operator before its operand. -/
theorem unary_blames : (unary inner).Blames start 0 1 :=
  Rule.current_blames.sequence fun _ =>
    operandThen_blames inside _ (Nat.zero_le 1) fun _ => .value _ (Nat.le_refl 1)

/-- An operator behind its left operand. -/
theorem binary_blames (left : Expr) : (binary inner left).Blames start 0 1 :=
  Rule.current_blames.sequence fun _ =>
    operandThen_blames inside _ (Nat.zero_le 1) fun _ => .value _ (Nat.le_refl 1)

/-- An expression in parentheses. -/
theorem grouped_blames : (grouped inner).Blames start 0 1 :=
  operandThen_blames inside _ (Nat.zero_le 1) fun _ =>
    (Rule.expect_blames _ (by decide)).sequence fun _ => .value _ (Nat.zero_le 1)

/-- Arguments between parentheses. -/
theorem arguments_blames : (arguments inner).Blames start 0 1 := by
  refine ((Rule.accept_blames _).from (Nat.zero_le 1)).sequence fun closing => ?_
  split
  · exact .value _ (Nat.le_refl 1)
  · refine operandThen_blames inside _ (Nat.le_refl 1) fun first => ?_
    refine (Rule.repeatWhile_blames (fun values => ?_) _).sequence fun values => ?_
    · exact Rule.advance_blames.sequence fun _ =>
        operandThen_blames inside _ (Nat.zero_le 1) fun _ => .value _ (Nat.le_refl 1)
    · exact (Rule.expect_blames _ (by decide)).sequence fun _ => .value _ (Nat.zero_le 1)

/-- An operator or a call behind an expression. -/
theorem extend_blames (left : Expr) : (extend inner left).Blames start 0 1 := by
  refine Rule.current_blames.sequence fun token => ?_
  split
  · exact Rule.current_blames.sequence fun _ => (arguments_blames inside).sequence fun _ =>
      .value _ (Nat.le_refl 1)
  · exact binary_blames inside left

/-- A function literal. -/
theorem function_blames : (function inner).Blames start 0 1 :=
  Rule.current_blames.sequence fun _ =>
    ((Rule.expect_blames _ (by decide)).from (Nat.zero_le 1)).sequence fun _ =>
      (parameters_blames.from (Nat.zero_le 1)).sequence fun _ =>
        (Rule.expect_blames _ (by decide)).sequence fun _ => inside.block.sequence fun _ =>
          .value _ (Nat.le_refl 1)

/-- An operand, whatever token it begins with. -/
theorem operand_blames {kind : Kind} {rule : Rule Expr} (found : operand? inner kind = some rule) :
    rule.Blames start 0 1 := by
  unfold operand? at found
  split at found <;> cases found
  · exact name_blames
  · exact integer_blames
  · exact boolean_blames
  · exact boolean_blames
  · exact unary_blames inside
  · exact unary_blames inside
  · exact grouped_blames inside
  · exact function_blames inside

/-- At an operand an expression blames what the operand and the operators behind it blame. -/
theorem expressionBody_blames (above : Precedence) {state : State}
    (found : (operand? inner state.current.kind).isSome)
    (blamed : State.Blamed start 0 state.diagnostics.toList state) :
    EndsBlamed start 1 (expressionBody inner above state) := by
  obtain ⟨operand, found⟩ := Option.isSome_iff_exists.mp found
  have turns : ∀ left, (operatorTurn inner left).Blames start 1 1 := fun left =>
    Rule.advance_blames.sequence fun _ => extend_blames inside left
  have operators_blame : ∀ left, (operators inner above left).Blames start 1 1 := fun left =>
    Rule.repeatWhile_blames turns left
  rw [expressionBody_operand above found]
  exact (operand_blames inside found).sequence operators_blame state blamed

end

/-- A placeholder blames the token that the parser has just stepped to, and leaves it ahead if it
goes back. -/
theorem placeholder_blames {state moved : State}
    (blamed : State.Blamed start 1 state.diagnostics.toList state)
    (window : ∀ index, moved.token index = state.token (index + 1))
    (known : moved.previous = some state.current)
    (kept : moved.diagnostics = state.diagnostics) :
    EndsBlamed start 1 (placeholder moved) := by
  have blames : Diagnostic.Blames
      ⟨.missingOperand moved.current.toLexeme, moved.current.position⟩ (state.token 1) := by
    rw [← window 0]
    exact ⟨.missingOperand, rfl⟩
  have pushed := blamed.push blames
  rw [← kept, ← Array.toList_push, ← placeholder_diagnostics] at pushed
  have ran : placeholder moved =
      .ok (Expr.missing moved.current.position) (placeholder.after moved) := by
    rw [Rule.after_ok (placeholder_run moved)]
    exact placeholder_run moved
  rw [ran]
  rcases placeholder_window window known with stays | back
  · refine (State.Blamed.congr pushed.step fun index => ?_).mono (Nat.zero_le 1)
    rw [State.advance_token, stays, window]
  · exact State.Blamed.congr pushed back

/-- Behind a step an expression blames what it blames at its operand, and otherwise what a
placeholder blames. -/
theorem expressionBody_behind_blames {inner : Inner} (inside : inner.Blames start)
    (above : Precedence) {state moved : State}
    (blamed : State.Blamed start 1 state.diagnostics.toList state)
    (window : ∀ index, moved.token index = state.token (index + 1))
    (known : moved.previous = some state.current)
    (kept : moved.diagnostics = state.diagnostics) :
    EndsBlamed start 1 (expressionBody inner above moved) := by
  cases found : operand? inner moved.current.kind with
  | some operand =>
    refine expressionBody_blames inside above (by rw [found]; rfl) ?_
    rw [kept]
    refine blamed.step.congr fun index => ?_
    rw [window, State.advance_token]
  | none =>
    rw [expressionBody_placeholder above found]
    exact placeholder_blames blamed window known kept

/-- Without room a construct blames the token that it begins with. -/
theorem derive_zero_blames {α : Type} (target : Nonterminal α) :
    ((Inner.ofRoom 0).derive target).Blames start 0 1 := by
  intro state blamed
  rw [derive_zero]
  have overflow : Cause.Blames state.current.toLexeme target.overflow := by
    cases target with
    | expression above => exact .deepExpression
    | block => exact .deepBlock
  have blames : Diagnostic.Blames ⟨target.overflow, state.current.position⟩ (state.token 0) :=
    ⟨overflow, rfl⟩
  have pushed := (blamed.push blames).mono (Nat.zero_le 1)
  exact EndsBlamed.inside (pushed.congr fun index => state.token_counters _ _ index)

/-- The expression that a statement begins with blames what an expression at its operand blames,
and otherwise the current token. -/
theorem leading_blames {inner : Inner}
    (operand : ∀ {state : State}, (operand? inner state.current.kind).isSome →
      State.Blamed start 0 state.diagnostics.toList state →
        EndsBlamed start 1 (inner.expression state)) :
    (do let first ← Rule.current; leading inner first.kind).Blames start 0 1 := by
  intro state blamed
  rw [current_bind]
  unfold leading
  by_cases found : (operand? inner state.current.kind).isSome = true
  · rw [if_pos found]
    exact operand found blamed
  · rw [if_neg found, missingOperand_run]
    exact (blamed.record ⟨.missingOperand, rfl⟩).mono (Nat.zero_le 1)

/-! ## Statements -/

section

variable {inner : Inner} (inside : inner.Blames start)

include inside

/-- A binding. -/
theorem binding_blames : (binding inner).Blames start 0 1 :=
  Rule.current_blames.sequence fun _ =>
    ((Rule.expect_blames _ (by decide)).from (Nat.zero_le 1)).sequence fun _ =>
      ((Rule.expect_blames _ (by decide)).from (Nat.zero_le 1)).sequence fun _ =>
        operandThen_blames inside _ (Nat.zero_le 1) fun _ =>
          (Rule.expect_blames _ (by decide)).sequence fun _ => .value _ (Nat.zero_le 1)

/-- The end of a function. -/
theorem result_blames : (result inner).Blames start 0 1 := by
  refine Rule.current_blames.sequence fun keyword => ?_
  refine ((Rule.accept_blames _).from (Nat.zero_le 1)).sequence fun bare => ?_
  split
  · exact .value _ (Nat.le_refl 1)
  · exact operandThen_blames inside _ (Nat.le_refl 1) fun _ =>
      (Rule.expect_blames _ (by decide)).sequence fun _ => .value _ (Nat.zero_le 1)

/-- An expression on its own. -/
theorem expressionStatement_blames : (expressionStatement inner).Blames start 0 1 := by
  rw [expressionStatement_eq]
  exact Rule.current_blames.sequence fun _ => inside.leading.sequence fun _ =>
    (Rule.accept_blames _).sequence fun _ => .value _ (Nat.le_refl 1)

/-- A condition. -/
theorem condition_blames : (condition inner).Blames start 0 1 := by
  refine Rule.current_blames.sequence fun keyword => ?_
  refine ((Rule.expect_blames _ (by decide)).from (Nat.zero_le 1)).sequence fun _ => ?_
  refine operandThen_blames inside _ (Nat.zero_le 1) fun test => ?_
  refine (Rule.expect_blames _ (by decide)).sequence fun _ => ?_
  refine ((Rule.expect_blames _ (by decide)).from (Nat.zero_le 1)).sequence fun _ => ?_
  refine inside.block.sequence fun consequence => ?_
  refine (Rule.accept_blames _).sequence fun other => ?_
  split
  · exact (Rule.expect_blames _ (by decide)).sequence fun _ => inside.block.sequence fun _ =>
      .value _ (Nat.le_refl 1)
  · exact .value _ (Nat.le_refl 1)

/-- A statement, whatever token it begins with. -/
theorem statementOfKind_blames (kind : Kind) : (statementOfKind inner kind).Blames start 0 1 := by
  unfold statementOfKind
  split
  · exact binding_blames inside
  · exact result_blames inside
  · exact condition_blames inside
  · exact expressionStatement_blames inside

omit inside in
/-- Skipping tokens blames nothing. -/
theorem skipStatement_blames : Rule.skipStatement.Blames start 1 1 := by
  refine (Rule.repeatWhile_blames (fun _ => ?_) _).sequence fun _ => .value _ (Nat.le_refl 1)
  exact Rule.advance_blames.sequence fun _ => .value _ (Nat.zero_le 1)

omit inside in
/-- The way to the next statement leaves the fault as the last diagnostic, whether it is recorded
or thrown again. -/
theorem recover_blames {fault : Diagnostic} {state : State}
    (blamed : State.Blamed start 1 (state.diagnostics.toList ++ [fault]) state) :
    EndsBlamed start 1 (recover fault state) := by
  rw [Rule.recover_run]
  split
  · exact blamed
  · refine skipStatement_blames (state.record fault) ?_
    have recorded := blamed.congr fun index => state.token_record fault index
    rwa [← Array.toList_push] at recorded

/-- A statement with the remedy for its faults. -/
theorem statement_blames : (statement inner).Blames start 0 1 := by
  intro state blamed
  rw [Rule.statement_run]
  have attempted := (statementOfKind_blames inside state.current.kind).sequence
    fun value => Rule.Blames.value (some value) (Nat.le_refl 1)
  rw [← map_eq_pure_bind] at attempted
  have noted := blamed.congr fun index => state.token_note (.statement state.current) index
  have ended := attempted (state.note (.statement state.current)) noted
  cases ran : (some <$> statementOfKind inner state.current.kind)
      (state.note (.statement state.current)) with
  | ok read last =>
    rw [ran] at ended
    rw [Rule.tryCatch_ok ran]
    exact ended
  | error fault last =>
    rw [ran] at ended
    rw [Rule.tryCatch_error ran]
    exact recover_blames ended

/-- A statement behind others. -/
theorem nextStatement_blames (statements : Array Stmt) :
    (nextStatement inner statements).Blames start 0 0 :=
  (statement_blames inside).sequence fun _ => Rule.advance_blames.sequence fun _ =>
    .value _ (Nat.le_refl 0)

/-- A statement behind others of a block. The end of the source is blamed for the brace that is
missing. -/
theorem nextInBlock_blames (statements : Array Stmt) :
    (nextInBlock inner statements).Blames start 0 0 := by
  intro state blamed
  unfold nextInBlock
  rw [current_bind]
  split
  · exact (blamed.push ⟨.expected (by decide), rfl⟩).mono (Nat.zero_le 1)
  · exact nextStatement_blames inside statements state blamed

/-- The statements of a block. -/
theorem blockBody_blames : (blockBody inner).Blames start 0 1 :=
  (Rule.advance_blames.from (Nat.zero_le 1)).sequence fun _ =>
    (Rule.repeatWhile_blames (nextInBlock_blames inside) _).sequence fun _ =>
      .value _ (Nat.zero_le 1)

/-- The statements of a source. -/
theorem program_blames (statements : Array Stmt) :
    (Rule.repeatWhile (currentIsNot .endOfInput) (nextStatement inner) statements).Blames
      start 0 0 :=
  Rule.repeatWhile_blames (nextStatement_blames inside) statements

end

/-! ## Expressions and blocks -/

/-- The parts of a construct blame tokens in order, however many constructs may still be opened. -/
theorem ofRoom_blames : ∀ room : Nat, (Inner.ofRoom room).Blames start
  | 0 => by
    refine ⟨fun above => ?_, leading_blames fun _ blamed => ?_, derive_zero_blames _⟩
    · exact Rule.advance_blames.sequence fun _ => derive_zero_blames _
    · exact derive_zero_blames _ _ blamed
  | room + 1 => by
    have inside := ofRoom_blames room
    refine ⟨fun above state blamed => ?_, leading_blames fun {state} found blamed => ?_, ?_⟩
    · rw [Rule.advance_bind, derive_expression]
      refine EndsBlamed.inside (expressionBody_behind_blames inside above blamed (fun index => ?_)
        state.advance_previous state.advance_diagnostics)
      rw [State.token_counters, State.advance_token]
    · rw [Inner.expression, derive_expression]
      refine EndsBlamed.inside (expressionBody_blames inside _ ?_ ?_)
      · rwa [operand?_isSome _ (Inner.ofRoom (room + 1))]
      · exact blamed.congr fun index => state.token_counters _ _ index
    · rw [Inner.block, derive_block]
      intro state blamed
      refine EndsBlamed.inside (blockBody_blames inside _ ?_)
      exact blamed.congr fun index => state.token_counters _ _ index

end ExprLang.Parser
