import ExprLang.Proofs.Nesting.Calls

/-!
# No other calls

`Called` leaves no call out. Where a rule is called, its run depends on the rules for expressions
and blocks inside of it at the calls only that `Called` names: rules that do anything else in all
other states lead to the same run (`Called.depends`), and so they do one level further up
(`Called.derive_depends`).
-/

namespace ExprLang.Parser

namespace Rule

variable {α β : Type} {state : State} {kind : Kind}

/-- Sequences agree where their first rules do, and what follows agrees behind the values. -/
theorem bind_congr {first other : Rule α} {next further : α → Rule β}
    (same : first state = other state)
    (rest : ∀ value middle, other state = .ok value middle →
      next value middle = further value middle) :
    (first >>= next) state = (other >>= further) state := by
  cases ran : other state with
  | ok value middle =>
    rw [bind_ok ran, bind_ok (same.trans ran)]
    exact rest value middle ran
  | error fault last => rw [bind_error ran, bind_error (same.trans ran)]

/-- Behind a token that is expected, rules agree where they do behind this token. -/
theorem expect_bind_congr {wanted : String} {next further : Token → Rule β}
    (rest : state.peek.kind = kind →
      next state.peek state.advance = further state.peek state.advance) :
    (Rule.expect kind wanted >>= next) state = (Rule.expect kind wanted >>= further) state := by
  refine bind_congr rfl fun value middle ran => ?_
  by_cases found : state.peek.kind = kind
  · rw [expect_ok wanted found] at ran
    cases ran
    exact rest found
  · rw [expect_failed wanted found] at ran
    cases ran

/-- Behind an optional token, rules agree where they do with and without it. -/
theorem accept_bind_congr {next further : Bool → Rule β}
    (taken : state.peek.kind = kind → next true state.advance = further true state.advance)
    (left : state.peek.kind ≠ kind → next false state = further false state) :
    (Rule.accept kind >>= next) state = (Rule.accept kind >>= further) state := by
  refine bind_congr rfl fun value middle ran => ?_
  by_cases found : state.peek.kind = kind
  · rw [accept_taken found] at ran
    cases ran
    exact taken found
  · rw [accept_left found] at ran
    cases ran
    exact left found

/-- Attempts with one remedy agree where they do without it. -/
theorem tryCatch_congr {first other : Rule α} {remedy : Diagnostic → Rule α}
    (same : first state = other state) :
    (tryCatch first remedy : Rule α) state = (tryCatch other remedy : Rule α) state := by
  change EStateM.tryCatch first remedy state = EStateM.tryCatch other remedy state
  unfold EStateM.tryCatch
  rw [same]

/-- Rules around which one more construct is opened agree where they do inside of it. -/
theorem inside_congr {blocks : Int} {first other : Rule α}
    (same : first (state.enter blocks) = other (state.enter blocks)) :
    Rule.inside blocks first state = Rule.inside blocks other state := by
  unfold State.enter at same
  unfold Rule.inside
  rw [same]

/-- Loops agree where their turns do, behind each number of turns. -/
theorem repeatWhile_congr {continues : State → Bool} {turn other : α → Rule α} {value : α}
    (same : ∀ found last, Turns continues other value state found last → continues last = true →
      turn found last = other found last) :
    repeatWhile continues turn value state = repeatWhile continues other value state := by
  have along : ∀ (tokens : List Token) (found : α) (last : State),
      Turns continues other value state found last →
      repeatAlong continues turn tokens found last =
        repeatAlong continues other tokens found last := by
    intro tokens
    induction tokens with
    | nil => exact fun _ _ _ => rfl
    | cons token tokens ih =>
      intro found last turns
      unfold repeatAlong
      rw [bind_ok (show (get : Rule State) last = .ok last last from rfl),
        bind_ok (show (get : Rule State) last = .ok last last from rfl)]
      by_cases going : continues last = true
      · rw [if_pos going, if_pos going]
        exact bind_congr (same found last turns going) fun next middle ran =>
          ih next middle (turns.turned going ran)
      · rw [if_neg going, if_neg going]
  exact along _ value state .start

end Rule

open Rule (bind_congr expect_bind_congr accept_bind_congr tryCatch_congr inside_congr
  repeatWhile_congr)

/-- The rule of a nonterminal, as one of all rules. -/
def Nonterminal.routine : {α : Type} → Nonterminal α → Routine α
  | _, .expression above => .expression above
  | _, .block => .block

/-- Rules for what lies one level deeper that do what the parser does at the calls. In other states
they may do anything. -/
structure Inner.Agrees (start : State) (room : Nat) (inner : Inner) : Prop where
  /-- The expressions that are called for. -/
  expression : ∀ above state, Called start room (.expression above) state →
    inner.derive (.expression above) state = (Inner.ofRoom room).derive (.expression above) state
  /-- The blocks that are called for. -/
  block : ∀ state, Called start room .block state →
    inner.block state = (Inner.ofRoom room).block state

namespace Called

variable {start state : State} {room : Nat} {inner : Inner} (agrees : inner.Agrees start room)

include agrees

/-- An expression that is called for, with what follows it. -/
theorem expression_bind {β : Type} {above : Precedence} {next further : Expr → Rule β}
    (called : Called start room (.expression above) state)
    (rest : ∀ value middle,
      (Inner.ofRoom room).derive (.expression above) state = .ok value middle →
        next value middle = further value middle) :
    (inner.derive (.expression above) >>= next) state =
      ((Inner.ofRoom room).derive (.expression above) >>= further) state :=
  bind_congr (agrees.expression above state called) rest

/-- A binding. -/
theorem binding_depends (called : Called start room .binding state) :
    binding inner state = binding (Inner.ofRoom room) state :=
  expect_bind_congr fun named => expect_bind_congr fun assigned =>
    (called.bound named assigned).expression_bind agrees fun _ _ _ => rfl

/-- The end of a function. -/
theorem result_depends (called : Called start room .result state) :
    result inner state = result (Inner.ofRoom room) state :=
  accept_bind_congr (fun _ => by rw [if_pos rfl, if_pos rfl]) fun valued =>
    (called.returned valued).expression_bind agrees fun _ _ _ => rfl

/-- An expression on its own. -/
theorem expressionStatement_depends (called : Called start room .expressionStatement state) :
    expressionStatement inner state = expressionStatement (Inner.ofRoom room) state := by
  have same : leading inner state.current.kind state =
      leading (Inner.ofRoom room) state.current.kind state := by
    unfold leading
    rw [← Routine.operand?_rule, ← Routine.operand?_rule, Option.isSome_map, Option.isSome_map]
    by_cases begins : (Routine.operand? state.current.kind).isSome = true
    · rw [if_pos begins, if_pos begins]
      exact agrees.expression _ state (called.alone begins)
    · rw [if_neg begins, if_neg begins]
  unfold expressionStatement
  rw [Rule.current_bind, Rule.current_bind]
  exact bind_congr same fun _ _ _ => rfl

/-- A condition. -/
theorem condition_depends (called : Called start room .condition state) :
    condition inner state = condition (Inner.ofRoom room) state := by
  refine expect_bind_congr fun opening => ?_
  refine (called.test opening).expression_bind agrees fun test tested ran => ?_
  refine expect_bind_congr fun closing => expect_bind_congr fun brace => ?_
  refine bind_congr (agrees.block _ (called.consequence opening ran closing brace)) ?_
  intro body chosen first
  refine accept_bind_congr (fun otherwise => expect_bind_congr fun curly => ?_) fun _ => rfl
  exact bind_congr (agrees.block _
    (called.alternative opening ran closing brace first otherwise curly)) fun _ _ _ => rfl

/-- Arguments between parentheses. -/
theorem arguments_depends (called : Called start room .arguments state) :
    Parser.arguments inner state = Parser.arguments (Inner.ofRoom room) state := by
  refine accept_bind_congr (fun _ => by rw [if_pos rfl, if_pos rfl]) fun some_left => ?_
  refine (called.argument some_left).expression_bind agrees fun first middle ran => ?_
  refine bind_congr (repeatWhile_congr fun values last turns going => ?_) fun _ _ _ => rfl
  exact (called.furtherArgument some_left ran turns going).expression_bind agrees fun _ _ _ => rfl

/-- A function literal. -/
theorem function_depends (called : Called start room .function state) :
    function inner state = function (Inner.ofRoom room) state := by
  refine expect_bind_congr fun opening => ?_
  refine bind_congr rfl fun names named ran => expect_bind_congr fun brace => ?_
  exact bind_congr (agrees.block _ (called.body opening ran brace)) fun _ _ _ => rfl

/-- The rule for the first token of a statement. -/
theorem ofKind_depends {kind : Kind} (called : Called start room (.ofKind kind) state) :
    statementOfKind inner kind state = statementOfKind (Inner.ofRoom room) kind state := by
  rw [← Routine.ofKind_rule, ← Routine.ofKind_rule]
  revert called
  unfold Routine.ofKind
  split
  · exact fun called => called.binding_depends agrees
  · exact fun called => called.result_depends agrees
  · exact fun called => called.condition_depends agrees
  · exact fun called => called.expressionStatement_depends agrees

/-- A statement, with the recovery from its faults. -/
theorem statement_depends (called : Called start room .statement state) :
    statement inner state = statement (Inner.ofRoom room) state := by
  rw [Rule.statement_run, Rule.statement_run]
  refine tryCatch_congr ?_
  rw [map_eq_pure_bind, map_eq_pure_bind]
  exact Rule.bind_same (called.ofKind.ofKind_depends agrees)

/-- The run of a rule depends on the rules for expressions and blocks inside of it at their calls
only. -/
theorem depends {α : Type} {routine : Routine α} (called : Called start room routine state) :
    routine.rule inner state = routine.rule (Inner.ofRoom room) state := by
  cases routine with
  | program =>
    refine bind_congr (repeatWhile_congr fun values last turns going => ?_) fun _ _ _ => rfl
    exact Rule.bind_same ((called.inProgram turns going).statement_depends agrees)
  | statement => exact called.statement_depends agrees
  | binding => exact called.binding_depends agrees
  | result => exact called.result_depends agrees
  | expressionStatement => exact called.expressionStatement_depends agrees
  | condition => exact called.condition_depends agrees
  | block => exact agrees.block state called
  | expression above => exact agrees.expression above state called
  | missingOperand | name | integer | boolean | parameters => rfl
  | unary => exact called.signed.expression_bind agrees fun _ _ _ => rfl
  | binary left => exact called.right.expression_bind agrees fun _ _ _ => rfl
  | grouped => exact called.inside.expression_bind agrees fun _ _ _ => rfl
  | call callee =>
    have arguments := called.arguments.arguments_depends agrees
    change (Parser.arguments inner >>= _) state = (Parser.arguments _ >>= _) state
    exact Rule.bind_same arguments
  | arguments => exact called.arguments_depends agrees
  | function => exact called.function_depends agrees

/-- The run of an expression depends on the rules one level deeper at their calls only. -/
theorem expressionBody_depends {above : Precedence}
    (called : Called start (room + 1) (.expression above) state) :
    expressionBody inner above (state.enter 0) =
      expressionBody (Inner.ofRoom room) above (state.enter 0) := by
  unfold expressionBody
  rw [Rule.current_bind, Rule.current_bind, ← Routine.operand?_rule, ← Routine.operand?_rule]
  cases found : Routine.operand? (state.enter 0).current.kind with
  | none => rfl
  | some routine =>
    refine bind_congr ((called.operand found).depends agrees) fun first middle ran => ?_
    refine repeatWhile_congr fun left last turns going => ?_
    have operator := (called.operator found ran turns going).depends agrees
    rw [← State.advance_current, Routine.operator_rule, Routine.operator_rule] at operator
    rw [Rule.advance_bind, Rule.advance_bind, operator]

/-- The run of a block depends on the rules one level deeper at their calls only. -/
theorem blockBody_depends (called : Called start (room + 1) .block state) :
    blockBody inner (state.enter 1) = blockBody (Inner.ofRoom room) (state.enter 1) := by
  unfold blockBody
  rw [Rule.advance_bind, Rule.advance_bind]
  refine Rule.bind_same (repeatWhile_congr fun values last turns going => ?_)
  unfold nextInBlock
  rw [Rule.current_bind, Rule.current_bind]
  by_cases ended : last.current.kind = .endOfInput
  · rw [if_pos ended, if_pos ended]
  · rw [if_neg ended, if_neg ended]
    exact Rule.bind_same ((called.inBlock turns going ended).statement_depends agrees)

/-- The run of an expression or of a block depends on the rules one level deeper at their calls
only. -/
theorem derive_depends {α : Type} {target : Nonterminal α}
    (called : Called start (room + 1) target.routine state) :
    Rule.inside target.blocks (target.body inner) state =
      Nonterminal.derive (room + 1) target state := by
  refine inside_congr ?_
  cases target with
  | expression above => exact called.expressionBody_depends agrees
  | block => exact called.blockBody_depends agrees

end Called

end ExprLang.Parser
