import ExprLang.Proofs.Reading.Source

/-!
# How runs build trees

A run that ends with a value builds a part of a tree from the values of the runs inside it, whatever
is recorded on the way (`Builds`): a fault costs a statement, but never leaves half of one. The
relation forgets the tokens. It keeps the states a part lies between, and the room for expressions
and blocks inside, so that what is claimed of all trees is proved by one induction on it.
-/

namespace ExprLang.Parser

open Rule (bind_eq_ok)

/-- A part of a tree. -/
inductive Part where
  /-- An expression. -/
  | expression (value : Expr)
  /-- The arguments of a call. -/
  | arguments (values : List Expr)
  /-- A block. -/
  | block (body : List Stmt)
  /-- A statement. -/
  | statement (value : Stmt)
  /-- Statements one behind the other. -/
  | statements (values : List Stmt)

/-- Diagnostics are only added from one state to another. -/
def State.Grows (before after : State) : Prop :=
  before.diagnostics.toList <+: after.diagnostics.toList

/-- Nothing is added where the diagnostics are the same. -/
theorem State.Grows.of_eq {before after : State} (same : after.diagnostics = before.diagnostics) :
    Grows before after :=
  ⟨[], by rw [List.append_nil, same]⟩

/-- What a run builds from one state to another, where so many expressions and blocks may lie
inside each other: a value is put together from values that are built between the two states, one
behind the other. -/
inductive Builds : Nat → State → Part → State → Prop where
  /-- A run passes tokens in front of a part and behind it. -/
  | wider {room : Nat} {before start stop after : State} {part : Part}
      (front : State.Grows before start) (inside : Builds room start part stop)
      (behind : State.Grows stop after) : Builds room before part after
  /-- A name. -/
  | name {room : Nat} {state : State} (ident : Ident) :
      Builds (room + 1) state (.expression (.name ident)) state
  /-- An integer. -/
  | integer {room : Nat} {state : State} (value : Int) (position : Position) :
      Builds (room + 1) state (.expression (.integer value position)) state
  /-- A truth value. -/
  | boolean {room : Nat} {state : State} (value : Bool) (position : Position) :
      Builds (room + 1) state (.expression (.boolean value position)) state
  /-- A placeholder is recorded where it stands. -/
  | missing {room : Nat} {before after : State} {found : Lexeme} {position : Position}
      (recorded : after.diagnostics = before.diagnostics.push ⟨.missingOperand found, position⟩) :
      Builds room before (.expression (.missing position)) after
  /-- An operator before its operand. -/
  | unary {room : Nat} {before after : State} {value : Expr} (operator : String)
      (position : Position) (operand : Builds room before (.expression value) after) :
      Builds (room + 1) before (.expression (.unary operator value position)) after
  /-- An expression in parentheses. -/
  | grouped {room : Nat} {before after : State} {value : Expr}
      (inside : Builds room before (.expression value) after) :
      Builds (room + 1) before (.expression value) after
  /-- An operator between its operands. The right one is read inside, the left one is not. -/
  | binary {room : Nat} {before middle after : State} {left right : Expr} (operator : String)
      (position : Position) (first : Builds (room + 1) before (.expression left) middle)
      (second : Builds room middle (.expression right) after) :
      Builds (room + 1) before (.expression (.binary operator left right position)) after
  /-- A call. The arguments are read inside, the callee is not. -/
  | call {room : Nat} {before middle after : State} {callee : Expr} {values : List Expr}
      (position : Position) (first : Builds (room + 1) before (.expression callee) middle)
      (second : Builds room middle (.arguments values) after) :
      Builds (room + 1) before (.expression (.call callee values position)) after
  /-- A function literal. -/
  | function {room : Nat} {before after : State} {body : List Stmt} (names : List Ident)
      (position : Position) (inside : Builds room before (.block body) after) :
      Builds (room + 1) before (.expression (.function names body position)) after
  /-- No argument. -/
  | noArgument {room : Nat} {state : State} : Builds room state (.arguments []) state
  /-- An argument behind others. -/
  | argument {room : Nat} {before middle after : State} {values : List Expr} {value : Expr}
      (first : Builds room before (.arguments values) middle)
      (second : Builds room middle (.expression value) after) :
      Builds room before (.arguments (values ++ [value])) after
  /-- A block. -/
  | block {room : Nat} {before after : State} {body : List Stmt}
      (inside : Builds room before (.statements body) after) :
      Builds (room + 1) before (.block body) after
  /-- No statement. -/
  | noStatement {room : Nat} {state : State} : Builds room state (.statements []) state
  /-- A statement behind others. -/
  | next {room : Nat} {before middle after : State} {values : List Stmt} {value : Stmt}
      (first : Builds room before (.statements values) middle)
      (second : Builds room middle (.statement value) after) :
      Builds room before (.statements (values ++ [value])) after
  /-- A binding. -/
  | binding {room : Nat} {before after : State} {value : Expr} (target : Ident)
      (position : Position) (inside : Builds room before (.expression value) after) :
      Builds room before (.statement (.binding target value position)) after
  /-- The end of a function without a value. -/
  | bareResult {room : Nat} {state : State} (position : Position) :
      Builds room state (.statement (.result none position)) state
  /-- The end of a function with a value. -/
  | result {room : Nat} {before after : State} {value : Expr} (position : Position)
      (inside : Builds room before (.expression value) after) :
      Builds room before (.statement (.result (some value) position)) after
  /-- An expression on its own. -/
  | expression {room : Nat} {before after : State} {value : Expr} (position : Position)
      (inside : Builds room before (.expression value) after) :
      Builds room before (.statement (.expression value position)) after
  /-- A condition with one branch. -/
  | condition {room : Nat} {before middle after : State} {test : Expr} {consequence : List Stmt}
      (position : Position) (tested : Builds room before (.expression test) middle)
      (first : Builds room middle (.block consequence) after) :
      Builds room before (.statement (.condition test consequence none position)) after
  /-- A condition with two branches. -/
  | alternative {room : Nat} {before middle behind after : State} {test : Expr}
      {consequence alternative : List Stmt} (position : Position)
      (tested : Builds room before (.expression test) middle)
      (first : Builds room middle (.block consequence) behind)
      (second : Builds room behind (.block alternative) after) :
      Builds room before
        (.statement (.condition test consequence (some alternative) position)) after

namespace Builds

variable {room : Nat} {before start stop after : State} {part : Part}

/-- A part behind a state with the same diagnostics. -/
theorem since (inside : Builds room start part after)
    (same : start.diagnostics = before.diagnostics) : Builds room before part after :=
  .wider (.of_eq same) inside (.of_eq rfl)

/-- A part in front of a state with the same diagnostics. -/
theorem upTo (inside : Builds room before part stop)
    (same : after.diagnostics = stop.diagnostics) : Builds room before part after :=
  .wider (.of_eq rfl) inside (.of_eq same)

/-- A part in front of other steps. -/
theorem followed (inside : Builds room before part stop) (framed : State.Framed stop after) :
    Builds room before part after :=
  .wider (.of_eq rfl) inside framed.diagnostics

end Builds

/-! ## Expressions -/

/-- The trees of the constructs inside are built from the values of their parts. -/
structure Inner.Builds (inner : Inner) (room : Nat) : Prop where
  /-- An expression. -/
  expression : ∀ {above : Precedence} {state last : State} {value : Expr},
    inner.derive (.expression above) state = .ok value last →
      Parser.Builds room state (.expression value) last
  /-- A block. -/
  block : ∀ {state last : State} {body : List Stmt}, inner.block state = .ok body last →
    Parser.Builds room state (.block body) last

section

variable {room : Nat} {inner : Inner} (inside : inner.Builds room) {state last : State}

include inside

/-- An operator before its operand builds on the operand. -/
theorem unary_builds {value : Expr} (ran : unary inner state = .ok value last) :
    Builds (room + 1) state (.expression value) last := by
  obtain ⟨operand, found, rfl⟩ := unary_eq_ok.mp ran
  have built : Builds room state (.expression operand) last :=
    (inside.expression found).since (by simp)
  exact .unary _ _ built

/-- An expression in parentheses is the expression. -/
theorem grouped_builds {value : Expr} (ran : grouped inner state = .ok value last) :
    Builds (room + 1) state (.expression value) last := by
  obtain ⟨middle, parsed, -, rfl⟩ := grouped_eq_ok.mp ran
  have built : Builds room state (.expression value) middle :=
    (inside.expression parsed).since (by simp)
  exact .grouped (built.upTo (by simp))

/-- A function literal builds on its body. -/
theorem function_builds {value : Expr} (ran : function inner state = .ok value last) :
    Builds (room + 1) state (.expression value) last := by
  obtain ⟨-, names, middle, named, -, body, found, rfl⟩ := function_eq_ok.mp ran
  have skipped : State.Framed state middle.advance :=
    (state.advance_framed.trans (Rule.Framed.of_ok framed_closed.parameters_holds named)).trans
      middle.advance_framed
  exact .function _ _ (.wider skipped.diagnostics (inside.block found) (.of_eq rfl))

/-- An operand builds on its parts. -/
theorem operand_builds {rule : Rule Expr} {value : Expr}
    (found : operand? inner state.current.kind = some rule) (ran : rule state = .ok value last) :
    Builds (room + 1) state (.expression value) last := by
  unfold operand? at found
  split at found <;> cases found
  case h_1 =>
    obtain ⟨rfl, rfl⟩ := name_eq_ok.mp ran
    exact .name _
  case h_2 =>
    obtain ⟨number, -, rfl, rfl⟩ := integer_eq_ok.mp ran
    exact .integer _ _
  case h_3 | h_4 =>
    obtain ⟨rfl, rfl⟩ := boolean_eq_ok.mp ran
    exact .boolean _ _
  case h_5 | h_6 => exact unary_builds inside ran
  case h_7 => exact grouped_builds inside ran
  case h_8 => exact function_builds inside ran

/-- Arguments are built one behind the other. -/
theorem arguments_builds {values : List Expr} (ran : arguments inner state = .ok values last) :
    Builds room state (.arguments values) last := by
  rcases arguments_eq_ok.mp ran with ⟨-, rfl, rfl⟩ |
    ⟨-, first, second, found, values, third, looped, -, rfl, rfl⟩
  · exact Builds.noArgument.upTo (by simp)
  · have start : Builds room state (.arguments #[first].toList) second :=
      .argument .noArgument ((inside.expression found).since (by simp))
    have all := Rule.repeatWhile_invariant
      (fun (values : Array Expr) last => Builds room state (.arguments values.toList) last)
      start (fun values middle next last built _ ran => by
        obtain ⟨value, found, rfl⟩ := argumentTurn_eq_ok.mp ran
        rw [Array.toList_push]
        exact .argument built ((inside.expression found).since (by simp))) looped
    exact all.upTo (by simp)

/-- An operator or a call builds on the expression before it. -/
theorem extend_builds {before : State} {left value : Expr}
    (built : Builds (room + 1) before (.expression left) state)
    (ran : extend inner left state = .ok value last) :
    Builds (room + 1) before (.expression value) last := by
  rcases extend_eq_ok.mp ran with ⟨-, values, found, rfl⟩ | ⟨-, right, found, rfl⟩
  · exact .call _ built (arguments_builds inside found)
  · exact .binary _ _ built ((inside.expression found).since (by simp))

/-- An expression builds on its operand, or is a placeholder. -/
theorem expressionBody_builds {above : Precedence} {value : Expr}
    (ran : expressionBody inner above state = .ok value last) :
    Builds (room + 1) state (.expression value) last := by
  cases found : operand? inner state.current.kind with
  | some operand =>
    rw [expressionBody_operand above found] at ran
    obtain ⟨left, middle, first, ran⟩ := bind_eq_ok.mp ran
    have start := operand_builds inside found first
    exact Rule.repeatWhile_invariant
      (fun (value : Expr) last => Builds (room + 1) state (.expression value) last) start
      (fun value middle next last built _ ran => by
        exact extend_builds inside (built.upTo (by simp)) ran) ran
  | none =>
    rw [expressionBody_placeholder above found] at ran
    have recorded := placeholder_diagnostics state
    rw [Rule.after_ok ran] at recorded
    rw [placeholder_run] at ran
    obtain ⟨rfl, -⟩ := EStateM.Result.ok.inj ran
    exact .missing recorded

/-! ## Statements -/

/-- A binding builds on its value. -/
theorem binding_builds {value : Stmt} (ran : binding inner state = .ok value last) :
    Builds room state (.statement value) last := by
  obtain ⟨-, -, found, middle, parsed, -, rfl, rfl⟩ := binding_eq_ok.mp ran
  have built : Builds room state (.expression found) middle :=
    (inside.expression parsed).since (by simp)
  exact .binding _ _ (built.upTo (by simp))

/-- The end of a function builds on its value. -/
theorem result_builds {value : Stmt} (ran : result inner state = .ok value last) :
    Builds room state (.statement value) last := by
  rcases result_eq_ok.mp ran with ⟨-, rfl, rfl⟩ | ⟨-, found, middle, parsed, -, rfl, rfl⟩
  · exact (Builds.bareResult _).upTo (by simp)
  · have built : Builds room state (.expression found) middle :=
      (inside.expression parsed).since (by simp)
    exact .result _ (built.upTo (by simp))

/-- An expression on its own builds on it. -/
theorem expressionStatement_builds {value : Stmt}
    (ran : expressionStatement inner state = .ok value last) :
    Builds room state (.statement value) last := by
  obtain ⟨found, middle, parsed, rfl, ending⟩ := expressionStatement_eq_ok.mp ran
  have built : Builds room state (.expression found) middle := by
    rcases leading_eq_ok.mp parsed with ⟨-, parsed⟩ | ⟨-, rfl, rfl⟩
    · exact inside.expression parsed
    · exact .missing rfl
  rcases ending with ⟨-, rfl⟩ | ⟨-, rfl⟩
  · exact .expression _ (built.upTo (by simp))
  · exact .expression _ built

/-- A condition builds on its test and its branches. -/
theorem condition_builds {value : Stmt} (ran : condition inner state = .ok value last) :
    Builds room state (.statement value) last := by
  obtain ⟨-, test, second, tested, -, -, consequence, third, first, ending⟩ :=
    condition_eq_ok.mp ran
  have test_built : Builds room state (.expression test) second :=
    (inside.expression tested).since (by simp)
  have first_built : Builds room second (.block consequence) third :=
    (inside.block first).since (by simp)
  rcases ending with ⟨-, -, alternative, other, rfl⟩ | ⟨-, rfl, rfl⟩
  · have other_built : Builds room third (.block alternative) last :=
      (inside.block other).since (by simp)
    exact .alternative _ test_built first_built other_built
  · exact .condition _ test_built first_built

/-- A statement builds on its parts. -/
theorem statementOfKind_builds {kind : Kind} {value : Stmt}
    (ran : statementOfKind inner kind state = .ok value last) :
    Builds room state (.statement value) last := by
  unfold statementOfKind at ran
  split at ran
  · exact binding_builds inside ran
  · exact result_builds inside ran
  · exact condition_builds inside ran
  · exact expressionStatement_builds inside ran

variable (framed : inner.Holds Rule.Framed) {before : State} {statements next : Array Stmt}

include framed

/-- A statement that is read stands behind the others; one with a fault leaves only diagnostics. -/
theorem nextStatement_builds (built : Builds room before (.statements statements.toList) state)
    (ran : nextStatement inner statements state = .ok next last) :
    Builds room before (.statements next.toList) last := by
  obtain ⟨read, middle, attempt, rfl, rfl⟩ := nextStatement_eq_ok.mp ran
  rcases statement_cases attempt with ⟨value, rfl, parsed⟩ | ⟨fault, final, -, recovered⟩
  · have whole : (statements ++ (some value).toArray).toList = statements.toList ++ [value] := by
      simp
    rw [whole]
    have value_built : Builds room state (.statement value) middle :=
      (statementOfKind_builds inside parsed).since rfl
    exact .next built (value_built.upTo (by simp))
  · obtain rfl := Rule.recover_none recovered
    have whole : (statements ++ (none : Option Stmt).toArray).toList = statements.toList := by
      simp
    rw [whole]
    have skipped := Rule.Framed.of_ok (framed_closed.statement_holds framed) attempt
    exact (built.followed skipped).upTo (by simp)

/-- The statements of a source are built one behind the other. -/
theorem program_builds
    (ran : Rule.repeatWhile (currentIsNot .endOfInput) (nextStatement inner) #[] state =
      .ok next last) : Builds room state (.statements next.toList) last :=
  Rule.repeatWhile_invariant
    (fun (statements : Array Stmt) last => Builds room state (.statements statements.toList) last)
    .noStatement (fun _ _ _ _ built _ ran => nextStatement_builds inside framed built ran) ran

/-- The statements of a block are built one behind the other. -/
theorem blockBody_builds {body : List Stmt} (ran : blockBody inner state = .ok body last) :
    Builds (room + 1) state (.block body) last := by
  obtain ⟨found, looped, rfl⟩ := blockBody_eq_ok.mp ran
  have start : Builds room state (.statements (#[] : Array Stmt).toList) state.advance :=
    Builds.noStatement.upTo (by simp)
  have all := Rule.repeatWhile_invariant
    (fun (statements : Array Stmt) last => Builds room state (.statements statements.toList) last)
    start
    (fun _ _ _ _ built _ ran => nextStatement_builds inside framed built (nextInBlock_ok ran).2)
    looped
  exact .block all

end

/-- Whatever room there is, expressions and blocks are built from the values of their parts. -/
theorem derive_builds : ∀ room : Nat, (Inner.ofRoom room).Builds room
  | 0 => ⟨fun ran => absurd ran derive_zero_fails, fun ran => absurd ran derive_zero_fails⟩
  | room + 1 => by
    have inside := derive_builds room
    constructor
    · intro above state last value ran
      rw [derive_expression] at ran
      obtain ⟨final, found, rfl⟩ := inside_eq_ok ran
      have built : Builds (room + 1) state (.expression value) final :=
        (expressionBody_builds inside found).since rfl
      exact built.upTo rfl
    · intro state last body ran
      rw [Inner.block, derive_block] at ran
      obtain ⟨final, found, rfl⟩ := inside_eq_ok ran
      have built : Builds (room + 1) state (.block body) final :=
        (blockBody_builds inside (ofRoom_framed room) found).since rfl
      exact built.upTo rfl

/-- The program of a source is built from its first token on, with all the room there is. -/
theorem parse_builds {source : String} (nonempty : source ≠ "") {parsed : Parsed}
    (ran : parse source = .ok parsed) :
    ∃ last, Builds maxNesting (State.ofText source) (.statements parsed.program.statements) last ∧
      parsed.diagnostics = last.diagnostics.toList := by
  obtain ⟨found, last, loops, rfl⟩ := parse_loops nonempty ran
  have looped :=
    program_loop_eq (ofRoom_forward maxNesting) (State.ofText_outermost source).ended loops
  have builds := program_builds (derive_builds maxNesting) (ofRoom_framed maxNesting) looped
  exact ⟨last, builds, rfl⟩

end ExprLang.Parser
