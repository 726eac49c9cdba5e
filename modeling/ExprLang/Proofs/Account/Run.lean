import ExprLang.Proofs.Account.Basic
import ExprLang.Proofs.Digits
import ExprLang.Proofs.Reading.Trace

/-!
# Runs and the marks of their trees

Whatever a run records on its way, the marks of the tree that it gives account for the tokens which
it passes (`derive_accounts`, `program_accounts`). A rule begins at its first token, so that its
marks are counted from there, and up to the token behind its last one. Where an operand is missing,
the parser goes back to the token before it: then nothing is passed, and there is no mark.
-/

namespace ExprLang.Parser

open Rule (bind_eq_ok)
open State (Accounts)

/-! ## Parameters -/

/-- A parameter accounts for its token. -/
theorem parameter_accounts {name : Ident} {state last : State}
    (ran : parameter state = .ok name last) : Accounts state.advance [name.mark] last.advance := by
  obtain ⟨kind, rfl, rfl⟩ := parameter_eq_ok.mp ran
  rw [← state.advance_current] at kind ⊢
  exact .token fun _ => ⟨kind, rfl⟩

/-- Parameters account for their tokens. -/
theorem parameters_accounts {names : List Ident} {state last : State}
    (ran : parameters state = .ok names last) :
    Accounts state.advance (names.map Ident.mark) last.advance := by
  rcases parameters_eq_ok.mp ran with ⟨-, rfl, rfl⟩ |
    ⟨-, first, second, named, found, third, looped, -, rfl, rfl⟩
  · exact .step _
  · have start : Accounts state.advance (#[first].toList.map Ident.mark) second.advance :=
      parameter_accounts named
    have all := Rule.repeatWhile_invariant
      (fun (names : Array Ident) last =>
        Accounts state.advance (names.toList.map Ident.mark) last.advance)
      start (fun names middle next last accounts _ ran => by
        obtain ⟨name, named, rfl⟩ := parameterTurn_eq_ok.mp ran
        have more := accounts.trans ((Accounts.step _).trans (parameter_accounts named))
        simpa using more) looped
    exact all.then ⟨1, .advance _⟩

/-! ## Expressions -/

/-- The trees of the constructs inside account for the tokens passed. -/
structure Inner.Accounts (inner : Inner) : Prop where
  /-- An expression. -/
  expression : ∀ {above : Precedence} {state last : State} {value : Expr},
    inner.derive (.expression above) state = .ok value last →
      State.Accounts state value.marks last.advance
  /-- A block, behind its opening brace. -/
  block : ∀ {state last : State} {body : List Stmt}, inner.block state = .ok body last →
    State.Accounts state.advance (Stmt.marksAll body) last.advance

/-- A truth value accounts for its token. -/
theorem boolean_accounts {state last : State} {value : Expr}
    (ran : boolean state = .ok value last)
    (kind : state.current.kind = .trueWord ∨ state.current.kind = .falseWord) :
    Accounts state value.marks last.advance := by
  obtain ⟨rfl, rfl⟩ := boolean_eq_ok.mp ran
  refine .token fun _ => ?_
  rcases kind with kind | kind <;> simp [Role.Fits, kind]

section

variable {inner : Inner} (inside : inner.Accounts) {state last : State}

include inside

/-- An operator before its operand accounts for its tokens. -/
theorem unary_accounts {value : Expr} (ran : unary inner state = .ok value last)
    (kind : state.current.kind = .bang ∨ state.current.kind = .minus) :
    Accounts state value.marks last.advance := by
  obtain ⟨operand, found, rfl⟩ := unary_eq_ok.mp ran
  have sign : Accounts state [⟨.unary state.current.text, state.current.position⟩] state.advance :=
    .token fun _ => ⟨kind, rfl⟩
  exact sign.trans (inside.expression found)

/-- An expression in parentheses accounts for its tokens. -/
theorem grouped_accounts {value : Expr} (ran : grouped inner state = .ok value last) :
    Accounts state value.marks last.advance := by
  obtain ⟨middle, parsed, -, rfl⟩ := grouped_eq_ok.mp ran
  exact ((inside.expression parsed).behind ⟨1, .advance _⟩).then ⟨1, .advance _⟩

/-- A function literal accounts for its tokens. -/
theorem function_accounts {value : Expr} (ran : function inner state = .ok value last)
    (kind : state.current.kind = .functionWord) : Accounts state value.marks last.advance := by
  obtain ⟨-, names, middle, named, -, body, found, rfl⟩ := function_eq_ok.mp ran
  have keyword : Accounts state [⟨.function, state.current.position⟩] state.advance :=
    .token fun _ => kind
  have parameters := (parameters_accounts named).behind ⟨1, .advance _⟩
  have block := (inside.block found).behind ⟨1, .advance _⟩
  exact keyword.trans (parameters.trans block)

/-- An operand accounts for its tokens. -/
theorem operand_accounts {rule : Rule Expr} {value : Expr}
    (found : operand? inner state.current.kind = some rule) (ran : rule state = .ok value last) :
    Accounts state value.marks last.advance := by
  unfold operand? at found
  split at found <;> cases found
  case h_1 kind =>
    obtain ⟨rfl, rfl⟩ := name_eq_ok.mp ran
    exact .token fun _ => ⟨kind, rfl⟩
  case h_2 kind =>
    obtain ⟨number, read, rfl, rfl⟩ := integer_eq_ok.mp ran
    refine .token fun digital => ⟨kind, ?_⟩
    obtain ⟨some_digit, all_digits⟩ := digital kind
    exact readInteger?_digits_eq some_digit all_digits read
  case h_3 kind => exact boolean_accounts ran (.inl kind)
  case h_4 kind => exact boolean_accounts ran (.inr kind)
  case h_5 kind => exact unary_accounts inside ran (.inl kind)
  case h_6 kind => exact unary_accounts inside ran (.inr kind)
  case h_7 kind => exact grouped_accounts inside ran
  case h_8 kind => exact function_accounts inside ran kind

/-- Arguments account for their tokens. -/
theorem arguments_accounts {values : List Expr} (ran : arguments inner state = .ok values last) :
    Accounts state.advance (Expr.marksAll values) last.advance := by
  rcases arguments_eq_ok.mp ran with ⟨-, rfl, rfl⟩ |
    ⟨-, first, second, found, values, third, looped, -, rfl, rfl⟩
  · exact .step _
  · have start : Accounts state.advance (Expr.marksAll #[first].toList) second.advance := by
      simpa [Expr.marksAll] using inside.expression found
    have all := Rule.repeatWhile_invariant
      (fun (values : Array Expr) last =>
        Accounts state.advance (Expr.marksAll values.toList) last.advance)
      start (fun values middle next last accounts _ ran => by
        obtain ⟨value, found, rfl⟩ := argumentTurn_eq_ok.mp ran
        have more := accounts.trans ((Accounts.step _).trans (inside.expression found))
        simpa [Expr.marksAll, Expr.marksAll_append] using more) looped
    exact all.then ⟨1, .advance _⟩

/-- An operator or a call behind an expression accounts for its tokens. -/
theorem extend_accounts {left value : Expr} (ran : extend inner left state = .ok value last)
    (binds : state.current.kind ≠ .leftParen → state.current.kind.isInfix = true) :
    ∃ new, value.marks = left.marks ++ new ∧ Accounts state new last.advance := by
  rcases extend_eq_ok.mp ran with ⟨paren, values, found, rfl⟩ | ⟨paren, right, found, rfl⟩
  · have opening : Accounts state [⟨.call, state.current.position⟩] state.advance :=
      .token fun _ => paren
    exact ⟨_, rfl, opening.trans (arguments_accounts inside found)⟩
  · have sign : Accounts state [⟨.binary state.current.text, state.current.position⟩]
        state.advance := .token fun _ => ⟨binds paren, rfl⟩
    exact ⟨_, rfl, sign.trans (inside.expression found)⟩

/-- The operators behind an expression account for their tokens. -/
theorem operators_accounts {above : Precedence} {left value : Expr}
    (ran : operators inner above left state = .ok value last) :
    ∃ new, value.marks = left.marks ++ new ∧ Accounts state.advance new last.advance := by
  refine Rule.repeatWhile_invariant
    (fun (value : Expr) last =>
      ∃ new, value.marks = left.marks ++ new ∧ Accounts state.advance new last.advance)
    ⟨[], by simp, .refl _⟩ (fun value middle next last accounts going ran => ?_) ran
  obtain ⟨new, same, accounts⟩ := accounts
  have tighter : above < .ofKind middle.peek.kind := by simpa [bindsTighter] using going
  rw [← middle.advance_current] at tighter
  obtain ⟨more, same_more, accounts_more⟩ :=
    extend_accounts inside ran (Kind.isInfix_of_tighter tighter)
  refine ⟨new ++ more, ?_, accounts.trans accounts_more⟩
  rw [same_more, same, List.append_assoc]

/-- An expression accounts for its tokens. Where its operand is missing, it has no marks, and the
parser may have gone back to the token before it. -/
theorem expressionBody_accounts {above : Precedence} {value : Expr}
    (ran : expressionBody inner above state = .ok value last) :
    Accounts state value.marks last.advance := by
  cases found : operand? inner state.current.kind with
  | some operand =>
    rw [expressionBody_operand above found] at ran
    obtain ⟨left, middle, first, ran⟩ := bind_eq_ok.mp ran
    obtain ⟨new, same, accounts⟩ := operators_accounts inside ran
    rw [same]
    exact (operand_accounts inside found first).trans accounts
  | none =>
    rw [expressionBody_placeholder above found] at ran
    have reached := placeholder_after state
    rw [Rule.after_ok ran] at reached
    rw [placeholder_run] at ran
    obtain ⟨rfl, -⟩ := EStateM.Result.ok.inj ran
    rcases reached with ⟨count, passes⟩ | back
    · exact State.Reaches.accounts ⟨_, passes.trans (.advance last)⟩
    · refine State.Reaches.accounts ⟨0, fun index => ?_⟩
      rw [State.advance_token, back.behind]
      rfl

/-! ## Statements -/

/-- A binding accounts for its tokens. -/
theorem binding_accounts {value : Stmt} (ran : binding inner state = .ok value last)
    (kind : state.current.kind = .letWord) : Accounts state value.marks last.advance := by
  obtain ⟨named, -, found, middle, parsed, -, rfl, rfl⟩ := binding_eq_ok.mp ran
  have keyword : Accounts state [⟨.binding, state.current.position⟩] state.advance :=
    .token fun _ => kind
  have target : Accounts state.advance [⟨.name state.peek.text, state.peek.position⟩]
      state.advance.advance := by
    rw [← state.advance_current] at named ⊢
    exact .token fun _ => ⟨named, rfl⟩
  have value := ((inside.expression parsed).behind ⟨1, .advance _⟩).then ⟨1, .advance _⟩
  exact keyword.trans (target.trans value)

/-- The end of a function accounts for its tokens. -/
theorem result_accounts {value : Stmt} (ran : result inner state = .ok value last)
    (kind : state.current.kind = .returnWord) : Accounts state value.marks last.advance := by
  have keyword : Accounts state [⟨.result, state.current.position⟩] state.advance :=
    .token fun _ => kind
  rcases result_eq_ok.mp ran with ⟨-, rfl, rfl⟩ | ⟨-, found, middle, parsed, -, rfl, rfl⟩
  · exact keyword.then ⟨1, .advance _⟩
  · exact keyword.trans ((inside.expression parsed).then ⟨1, .advance _⟩)

/-- An expression on its own accounts for its tokens. -/
theorem expressionStatement_accounts {value : Stmt}
    (ran : expressionStatement inner state = .ok value last) :
    Accounts state value.marks last.advance := by
  obtain ⟨found, middle, parsed, rfl, ending⟩ := expressionStatement_eq_ok.mp ran
  have accounts : Accounts state found.marks middle.advance := by
    rcases leading_eq_ok.mp parsed with ⟨-, parsed⟩ | ⟨-, rfl, rfl⟩
    · exact inside.expression parsed
    · refine State.Reaches.accounts ⟨1, fun index => ?_⟩
      rw [State.advance_token, State.token_record]
  rcases ending with ⟨-, rfl⟩ | ⟨-, rfl⟩
  · exact accounts.then ⟨1, .advance _⟩
  · exact accounts

/-- A condition accounts for its tokens. -/
theorem condition_accounts {value : Stmt} (ran : condition inner state = .ok value last)
    (kind : state.current.kind = .ifWord) : Accounts state value.marks last.advance := by
  obtain ⟨-, test, second, tested, -, -, consequence, third, first, ending⟩ :=
    condition_eq_ok.mp ran
  have keyword : Accounts state [⟨.condition, state.current.position⟩] state.advance :=
    .token fun _ => kind
  have test_accounts := (inside.expression tested).behind ⟨1, .advance _⟩
  have first_accounts := ((inside.block first).behind ⟨1, .advance _⟩).behind ⟨1, .advance _⟩
  have opened := keyword.trans (test_accounts.trans first_accounts)
  rcases ending with ⟨-, -, alternative, other, rfl⟩ | ⟨-, rfl, rfl⟩
  · have other_accounts := ((inside.block other).behind ⟨1, .advance _⟩).behind ⟨1, .advance _⟩
    have whole := opened.trans other_accounts
    simpa [Stmt.marks] using whole
  · exact opened

/-- A statement accounts for its tokens. -/
theorem statementOfKind_accounts {kind : Kind} {value : Stmt} (same : state.current.kind = kind)
    (ran : statementOfKind inner kind state = .ok value last) :
    Accounts state value.marks last.advance := by
  unfold statementOfKind at ran
  split at ran
  · exact binding_accounts inside ran same
  · exact result_accounts inside ran same
  · exact condition_accounts inside ran same
  · exact expressionStatement_accounts inside ran

end

section

variable {inner : Inner} (inside : inner.Accounts) (forward : inner.Holds Rule.Forward)
  {state last : State}

include inside forward

/-- A statement and the step behind it account for their tokens, whether it is read or skipped. -/
theorem nextStatement_accounts {statements next : Array Stmt}
    (ran : nextStatement inner statements state = .ok next last) :
    ∃ new, Stmt.marksAll next.toList = Stmt.marksAll statements.toList ++ new ∧
      Accounts state new last := by
  obtain ⟨read, middle, attempt, rfl, rfl⟩ := nextStatement_eq_ok.mp ran
  have reached := (Rule.forward_closed.statement_holds forward).of_ok attempt
  rcases statement_cases attempt with ⟨value, rfl, parsed⟩ | ⟨fault, final, -, recovered⟩
  · have noted : State.Passes 0 state (state.note (.statement state.current)) :=
      fun index => state.token_note _ index
    refine ⟨value.marks, ?_, (statementOfKind_accounts inside rfl parsed).behind ⟨0, noted⟩⟩
    rw [Array.toList_append, Stmt.marksAll_append]
    simp [Stmt.marksAll]
  · obtain rfl := Rule.recover_none recovered
    exact ⟨[], by simp, (State.Reaches.accounts reached).then ⟨1, .advance _⟩⟩

/-- The statements of a block account for their tokens, behind the opening brace. -/
theorem blockBody_accounts {body : List Stmt} (ran : blockBody inner state = .ok body last) :
    Accounts state.advance (Stmt.marksAll body) last.advance := by
  obtain ⟨found, looped, rfl⟩ := blockBody_eq_ok.mp ran
  have all := Rule.repeatWhile_invariant
    (fun (statements : Array Stmt) last =>
      Accounts state.advance (Stmt.marksAll statements.toList) last)
    (.refl _) (fun statements middle next last accounts _ ran => by
      obtain ⟨new, same, more⟩ := nextStatement_accounts inside forward (nextInBlock_ok ran).2
      rw [same]
      exact accounts.trans more) looped
  exact all.then ⟨1, .advance _⟩

/-- The statements of a source account for its tokens. -/
theorem program_accounts {found : Array Stmt}
    (ran : Rule.repeatWhile (currentIsNot .endOfInput) (nextStatement inner) #[] state =
      .ok found last) : Accounts state (Stmt.marksAll found.toList) last := by
  refine Rule.repeatWhile_invariant
    (fun (statements : Array Stmt) last => Accounts state (Stmt.marksAll statements.toList) last)
    (.refl _) (fun statements middle next last accounts _ ran => ?_) ran
  obtain ⟨new, same, more⟩ := nextStatement_accounts inside forward ran
  rw [same]
  exact accounts.trans more

end

/-- The counters of a construct do not matter for the tokens passed. -/
theorem State.Accounts.leave {state final : State} {marks : List Mark} {depth nesting : Int}
    (accounts : State.Accounts state marks final.advance) :
    State.Accounts state marks (State.advance { final with depth, nesting }) := by
  refine accounts.then ⟨0, fun index => ?_⟩
  rw [State.advance_token, State.advance_token, State.token_counters]

/-- Whatever room there is, expressions and blocks account for their tokens. -/
theorem derive_accounts : ∀ room : Nat, (Inner.ofRoom room).Accounts
  | 0 => ⟨fun ran => absurd ran derive_zero_fails, fun ran => absurd ran derive_zero_fails⟩
  | room + 1 => by
    have inside := derive_accounts room
    constructor
    · intro above state last value ran
      rw [derive_expression] at ran
      obtain ⟨final, found, rfl⟩ := inside_eq_ok ran
      have entered : State.Passes 0 state
          { state with depth := state.depth + 0, nesting := state.nesting + 1 } :=
        fun index => state.token_counters _ _ index
      exact ((expressionBody_accounts inside found).behind ⟨0, entered⟩).leave
    · intro state last body ran
      rw [Inner.block, derive_block] at ran
      obtain ⟨final, found, rfl⟩ := inside_eq_ok ran
      have entered : State.Passes 0 state.advance (State.advance
          { state with depth := state.depth + 1, nesting := state.nesting + 1 }) := by
        intro index
        rw [State.advance_token, State.advance_token, State.token_counters]
      exact ((blockBody_accounts inside (ofRoom_forward room) found).behind ⟨0, entered⟩).leave

end ExprLang.Parser
