import ExprLang.Proofs.Nesting.Height

/-!
# The calls of the rules

Each rule of the grammar runs in states that the rules around it lead to. `Called` names them: it
has one case for each place of the grammar where a rule runs another one. The counters of depth and
nesting are raised in two rules only, those of expressions and of blocks, and every rule gives back
what it has raised (`Routine.calls_restore`). So at each call the nesting and the room that is left
make up the limit, and no more blocks are open than constructs (`nesting_bounded`).
-/

namespace ExprLang.Parser

/-- The rules of the grammar, each with what it is given. -/
inductive Routine : Type → Type where
  /-- All statements of a source. -/
  | program : Routine Program
  /-- A statement, with the recovery from its faults. -/
  | statement : Routine (Option Stmt)
  /-- A binding. -/
  | binding : Routine Stmt
  /-- The end of a function. -/
  | result : Routine Stmt
  /-- An expression on its own. -/
  | expressionStatement : Routine Stmt
  /-- A condition. -/
  | condition : Routine Stmt
  /-- A block. -/
  | block : Routine (List Stmt)
  /-- An expression whose operators bind tighter than a level. -/
  | expression (above : Precedence) : Routine Expr
  /-- A missing operand. -/
  | missingOperand : Routine Expr
  /-- A name. -/
  | name : Routine Expr
  /-- An integer. -/
  | integer : Routine Expr
  /-- A truth value. -/
  | boolean : Routine Expr
  /-- An operator before its operand. -/
  | unary : Routine Expr
  /-- An operator behind its left operand. -/
  | binary (left : Expr) : Routine Expr
  /-- An expression in parentheses. -/
  | grouped : Routine Expr
  /-- A call behind its callee. -/
  | call (callee : Expr) : Routine Expr
  /-- The arguments of a call. -/
  | arguments : Routine (List Expr)
  /-- A function literal. -/
  | function : Routine Expr
  /-- The parameters of a function literal. -/
  | parameters : Routine (List Ident)

namespace Routine

/-- What a rule of the grammar does. -/
def rule (inner : Inner) : {α : Type} → Routine α → Rule α
  | _, .program => Parser.program inner
  | _, .statement => Parser.statement inner
  | _, .binding => Parser.binding inner
  | _, .result => Parser.result inner
  | _, .expressionStatement => Parser.expressionStatement inner
  | _, .condition => Parser.condition inner
  | _, .block => inner.block
  | _, .expression above => inner.derive (.expression above)
  | _, .missingOperand => Parser.missingOperand
  | _, .name => Parser.name
  | _, .integer => Parser.integer
  | _, .boolean => Parser.boolean
  | _, .unary => Parser.unary inner
  | _, .binary left => Parser.binary inner left
  | _, .grouped => Parser.grouped inner
  | _, .call callee => Parser.call inner callee
  | _, .arguments => Parser.arguments inner
  | _, .function => Parser.function inner
  | _, .parameters => Parser.parameters

/-- By how much a rule raises the nesting while it runs. -/
def raises {α : Type} : Routine α → Int
  | .block | .expression _ => 1
  | _ => 0

/-- The rule for a statement that begins with a token of a kind. -/
def ofKind : Kind → Routine Stmt
  | .letWord => .binding
  | .returnWord => .result
  | .ifWord => .condition
  | _ => .expressionStatement

/-- The rule for an operand that begins with a token of a kind. -/
def operand? : Kind → Option (Routine Expr)
  | .identifier => some .name
  | .integer => some .integer
  | .trueWord | .falseWord => some .boolean
  | .bang | .minus => some .unary
  | .leftParen => some .grouped
  | .functionWord => some .function
  | _ => none

/-- The rule for an operator of a kind behind an expression. -/
def operator (kind : Kind) (left : Expr) : Routine Expr :=
  if kind = .leftParen then .call left else .binary left

variable {inner : Inner}

/-- A statement runs the rule for its first token. -/
theorem ofKind_rule (kind : Kind) : (ofKind kind).rule inner = statementOfKind inner kind := by
  cases kind <;> rfl

/-- An expression runs the rule for its first token. -/
theorem operand?_rule (kind : Kind) :
    (operand? kind).map (·.rule inner) = Parser.operand? inner kind := by
  cases kind <;> rfl

/-- The rule for an operand that begins with a token of a kind is the one of its routine. -/
theorem operand?_some {kind : Kind} {routine : Routine Expr}
    (found : operand? kind = some routine) :
    Parser.operand? inner kind = some (routine.rule inner) := by
  rw [← operand?_rule, found, Option.map_some]

/-- Behind an operand runs the rule for the operator. -/
theorem operator_rule (left : Expr) (state : State) :
    (operator state.current.kind left).rule inner state = extend inner left state := by
  unfold operator extend
  rw [Rule.bind_ok (Rule.current_run state)]
  by_cases call : state.current.kind = .leftParen
  · rw [if_pos call, if_pos call, rule]
  · rw [if_neg call, if_neg call, rule]

/-- Every rule of the grammar keeps the frame. -/
theorem framed (room : Nat) {α : Type} (routine : Routine α) :
    (routine.rule (Inner.ofRoom room)).Framed := by
  have inside := ofRoom_framed room
  cases routine with
  | program =>
    exact framed_closed.sequence
      (framed_closed.repeatWhile_holds (framed_closed.nextStatement_holds inside) _) fun _ =>
        framed_closed.value _
  | statement => exact framed_closed.statement_holds inside
  | binding => exact framed_closed.binding_holds inside
  | result => exact framed_closed.result_holds inside
  | expressionStatement => exact framed_closed.expressionStatement_holds inside
  | condition => exact framed_closed.condition_holds inside
  | block => exact inside.block
  | expression above => exact derive_framed room (.expression above)
  | missingOperand => exact framed_closed.missingOperand_holds
  | name =>
    have found : Parser.operand? (Inner.ofRoom room) .identifier = some Parser.name := rfl
    exact framed_closed.operand_holds inside found
  | integer =>
    have found : Parser.operand? (Inner.ofRoom room) .integer = some Parser.integer := rfl
    exact framed_closed.operand_holds inside found
  | boolean =>
    have found : Parser.operand? (Inner.ofRoom room) .trueWord = some Parser.boolean := rfl
    exact framed_closed.operand_holds inside found
  | unary => exact framed_closed.unary_holds inside
  | binary left => exact framed_closed.binary_holds inside left
  | grouped => exact framed_closed.grouped_holds inside
  | call callee => exact framed_closed.call_holds inside callee
  | arguments => exact framed_closed.arguments_holds inside
  | function => exact framed_closed.function_holds inside
  | parameters => exact framed_closed.parameters_holds

/-- A rule of the grammar with as much room as the state has. -/
def run {α : Type} (routine : Routine α) : Rule α := withRoom fun inner => routine.rule inner

/-- With its room a rule keeps the frame. -/
theorem run_framed {α : Type} (routine : Routine α) : routine.run.Framed := by
  intro state
  have same : routine.run state = routine.rule (Inner.ofRoom state.room) state :=
    withRoom_run (fun inner => routine.rule inner) state
  rw [Rule.after_congr same]
  exact routine.framed state.room state

end Routine

/-- A rule restores the counters of every state, and of the diagnostics it only adds to the end,
whether it ends with a value or with a fault. -/
def Rule.Restores {α : Type} (rule : Rule α) : Prop :=
  ∀ state, ∃ last,
    ((∃ value, rule state = .ok value last) ∨ ∃ fault, rule state = .error fault last) ∧
      last.depth = state.depth ∧ last.nesting = state.nesting ∧
      state.diagnostics.toList <+: last.diagnostics.toList

/-- What keeps the frame restores the counters. -/
theorem Rule.Framed.restores {α : Type} {rule : Rule α} (framed : rule.Framed) :
    rule.Restores := by
  intro state
  have kept := framed state
  cases ran : rule state with
  | ok value last =>
    rw [Rule.after_ok ran] at kept
    exact ⟨last, .inl ⟨value, rfl⟩, kept.depth, kept.nesting, kept.diagnostics⟩
  | error fault last =>
    rw [Rule.after_error ran] at kept
    exact ⟨last, .inr ⟨fault, rfl⟩, kept.depth, kept.nesting, kept.diagnostics⟩

/-- Every rule of the grammar gives back what it has raised. In whatever state it is called, with
whatever counters, from outside or by another rule with any room left, and whether it ends with a
value or with a fault: the depth and the nesting are those of the call again, and the diagnostics
recorded before the call are the first of those recorded behind it. -/
theorem Routine.calls_restore {α : Type} (routine : Routine α) :
    routine.run.Restores ∧ ∀ room, (routine.rule (Inner.ofRoom room)).Restores :=
  ⟨routine.run_framed.restores, fun room => (routine.framed room).restores⟩

/-- Where a loop stands after some turns that ended with values. -/
inductive Turns {α : Type} (continues : State → Bool) (turn : α → Rule α) (value : α)
    (state : State) : α → State → Prop where
  /-- Before the first turn. -/
  | start : Turns continues turn value state value state
  /-- After one more turn. -/
  | turned {found next : α} {middle last : State}
      (before : Turns continues turn value state found middle) (going : continues middle = true)
      (ran : turn found middle = .ok next last) : Turns continues turn value state next last

/-- The turns of a loop keep the frame. -/
theorem Turns.framed {α : Type} {continues : State → Bool} {turn : α → Rule α} {value found : α}
    {state last : State} (turns : Turns continues turn value state found last)
    (each : ∀ value, (turn value).Framed) : State.Framed state last := by
  induction turns with
  | start => exact .refl _
  | turned _ _ ran ih => exact ih.trans ((each _).of_ok ran)

/-- A run of a loop goes through each of the states between its turns. -/
theorem Turns.behind {α : Type} {continues : State → Bool} {turn : α → Rule α} {value found : α}
    {state last : State} {result : EStateM.Result Diagnostic State α}
    (turns : Turns continues turn value state found last)
    (loops : Rule.Loops continues turn value state result) :
    Rule.Loops continues turn found last result := by
  induction turns with
  | start => exact loops
  | turned _ going ran ih =>
    cases ih with
    | done stopped => exact absurd (stopped.symm.trans going) (by decide)
    | failed _ faulted => cases ran.symm.trans faulted
    | again _ again rest =>
      cases ran.symm.trans again
      exact rest

/-- Some turns in front of a run of a loop make up a run of it. -/
theorem Turns.loops {α : Type} {continues : State → Bool} {turn : α → Rule α} {value found : α}
    {state last : State} {result : EStateM.Result Diagnostic State α}
    (turns : Turns continues turn value state found last)
    (loops : Rule.Loops continues turn found last result) :
    Rule.Loops continues turn value state result := by
  induction turns with
  | start => exact loops
  | turned _ going ran ih => exact ih (.again going ran loops)

/-- The state inside of a construct that opens so many blocks. -/
def State.enter (state : State) (blocks : Int) : State :=
  { state with depth := state.depth + blocks, nesting := state.nesting + 1 }

/-- The calls of the rules in the run of the parser from a state on: which rule is called, with how
much room for expressions and blocks, and in which state. -/
inductive Called (start : State) : {α : Type} → Nat → Routine α → State → Prop where
  /-- The parser calls the rule of programs. -/
  | program : Called start start.room .program start
  /-- A program calls the rule of statements in a loop. -/
  | inProgram {room : Nat} {state last : State} {before : Array Stmt}
      (caller : Called start room .program state)
      (turns : Turns (currentIsNot .endOfInput) (nextStatement (Inner.ofRoom room)) #[] state
        before last)
      (going : currentIsNot .endOfInput last = true) : Called start room .statement last
  /-- A block calls the rule of statements in a loop. -/
  | inBlock {room : Nat} {state last : State} {before : Array Stmt}
      (caller : Called start (room + 1) .block state)
      (turns : Turns (currentIsNot .rightBrace) (nextInBlock (Inner.ofRoom room)) #[]
        (state.enter 1).advance before last)
      (going : currentIsNot .rightBrace last = true) (more : last.current.kind ≠ .endOfInput) :
      Called start room .statement last
  /-- A statement calls the rule for its first token. -/
  | ofKind {room : Nat} {state : State} (caller : Called start room .statement state) :
      Called start room (.ofKind state.current.kind) (state.note (.statement state.current))
  /-- A binding calls the rule of expressions for its value. -/
  | bound {room : Nat} {state : State} (caller : Called start room .binding state)
      (named : state.peek.kind = .identifier) (assigned : state.advance.peek.kind = .assign) :
      Called start room (.expression .lowest) state.advance.advance.advance
  /-- The end of a function calls the rule of expressions for its value. -/
  | returned {room : Nat} {state : State} (caller : Called start room .result state)
      (valued : state.peek.kind ≠ .semicolon) :
      Called start room (.expression .lowest) state.advance
  /-- An expression on its own calls the rule of expressions. -/
  | alone {room : Nat} {state : State} (caller : Called start room .expressionStatement state)
      (begins : (Routine.operand? state.current.kind).isSome = true) :
      Called start room (.expression .lowest) state
  /-- A statement that begins with no operand calls the rule of missing operands. -/
  | absent {room : Nat} {state : State} (caller : Called start room .expressionStatement state)
      (begins : (Routine.operand? state.current.kind).isSome = false) :
      Called start room .missingOperand state
  /-- A condition calls the rule of expressions for its test. -/
  | test {room : Nat} {state : State} (caller : Called start room .condition state)
      (opening : state.peek.kind = .leftParen) :
      Called start room (.expression .lowest) state.advance.advance
  /-- A condition calls the rule of blocks behind its test. -/
  | consequence {room : Nat} {state tested : State} {test : Expr}
      (caller : Called start room .condition state) (opening : state.peek.kind = .leftParen)
      (ran : (Inner.ofRoom room).expression state.advance.advance = .ok test tested)
      (closing : tested.peek.kind = .rightParen)
      (brace : tested.advance.peek.kind = .leftBrace) :
      Called start room .block tested.advance.advance
  /-- A condition calls the rule of blocks behind its first branch. -/
  | alternative {room : Nat} {state tested chosen : State} {test : Expr} {body : List Stmt}
      (caller : Called start room .condition state) (opening : state.peek.kind = .leftParen)
      (ran : (Inner.ofRoom room).expression state.advance.advance = .ok test tested)
      (closing : tested.peek.kind = .rightParen)
      (brace : tested.advance.peek.kind = .leftBrace)
      (first : (Inner.ofRoom room).block tested.advance.advance = .ok body chosen)
      (otherwise : chosen.peek.kind = .elseWord)
      (curly : chosen.advance.peek.kind = .leftBrace) :
      Called start room .block chosen.advance.advance
  /-- An expression calls the rule for its first token. -/
  | operand {room : Nat} {state : State} {above : Precedence} {routine : Routine Expr}
      (caller : Called start (room + 1) (.expression above) state)
      (found : Routine.operand? state.current.kind = some routine) :
      Called start room routine (state.enter 0)
  /-- An expression that begins with no operand calls the rule of missing operands. -/
  | placeholder {room : Nat} {state : State} {above : Precedence}
      (caller : Called start (room + 1) (.expression above) state)
      (none_found : Routine.operand? state.current.kind = none) :
      Called start room .missingOperand (state.enter 0)
  /-- An expression calls the rule for each operator behind its operand in a loop. -/
  | operator {room : Nat} {state middle last : State} {above : Precedence}
      {routine : Routine Expr} {first left : Expr}
      (caller : Called start (room + 1) (.expression above) state)
      (found : Routine.operand? state.current.kind = some routine)
      (ran : routine.rule (Inner.ofRoom room) (state.enter 0) = .ok first middle)
      (turns : Turns (bindsTighter above) (operatorTurn (Inner.ofRoom room)) first middle left last)
      (going : bindsTighter above last = true) :
      Called start room (.operator last.peek.kind left) last.advance
  /-- An operator before its operand calls the rule of expressions. -/
  | signed {room : Nat} {state : State} (caller : Called start room .unary state) :
      Called start room (.expression .unary) state.advance
  /-- An operator behind its left operand calls the rule of expressions. -/
  | right {room : Nat} {state : State} {left : Expr}
      (caller : Called start room (.binary left) state) :
      Called start room (.expression (.ofKind state.current.kind)) state.advance
  /-- A parenthesis calls the rule of expressions. -/
  | inside {room : Nat} {state : State} (caller : Called start room .grouped state) :
      Called start room (.expression .lowest) state.advance
  /-- A call calls the rule of arguments. -/
  | arguments {room : Nat} {state : State} {callee : Expr}
      (caller : Called start room (.call callee) state) : Called start room .arguments state
  /-- Arguments call the rule of expressions for the first one. -/
  | argument {room : Nat} {state : State} (caller : Called start room .arguments state)
      (some_left : state.peek.kind ≠ .rightParen) :
      Called start room (.expression .lowest) state.advance
  /-- Arguments call the rule of expressions for the others in a loop. -/
  | furtherArgument {room : Nat} {state middle last : State} {first : Expr} {values : Array Expr}
      (caller : Called start room .arguments state) (some_left : state.peek.kind ≠ .rightParen)
      (ran : (Inner.ofRoom room).expression state.advance = .ok first middle)
      (turns : Turns commaFollows (argumentTurn (Inner.ofRoom room)) #[first] middle values last)
      (going : commaFollows last = true) :
      Called start room (.expression .lowest) last.advance.advance
  /-- A function literal calls the rule of parameters. -/
  | parameters {room : Nat} {state : State} (caller : Called start room .function state)
      (opening : state.peek.kind = .leftParen) : Called start room .parameters state.advance
  /-- A function literal calls the rule of blocks for its body. -/
  | body {room : Nat} {state named : State} {names : List Ident}
      (caller : Called start room .function state) (opening : state.peek.kind = .leftParen)
      (ran : Parser.parameters state.advance = .ok names named)
      (brace : named.peek.kind = .leftBrace) : Called start room .block named.advance

/-! ## What holds at the calls -/

/-- What every rule keeps, and what entering a construct keeps with the room that is left in it,
holds at every call if it holds at the start. -/
theorem Called.keeps (holds : Nat → State → Prop)
    (framed : ∀ {room : Nat} {state last : State}, holds room state → State.Framed state last →
      holds room last)
    (enter : ∀ {room : Nat} {state : State} {blocks : Int}, holds (room + 1) state → 0 ≤ blocks →
      blocks ≤ 1 → holds room (state.enter blocks))
    {start : State} (outset : holds start.room start) {α : Type} {room : Nat} {routine : Routine α}
    {state : State} (called : Called start room routine state) : holds room state := by
  have advance : ∀ {room : Nat} {state : State}, holds room state → holds room state.advance :=
    fun kept => framed kept (State.advance_framed _)
  induction called with
  | program => exact outset
  | inProgram _ turns _ caller =>
    exact framed caller (turns.framed (framed_closed.nextStatement_holds (ofRoom_framed _)))
  | inBlock _ turns _ _ caller =>
    have entered := advance (enter caller Int.one_nonneg (Int.le_refl 1))
    exact framed entered (turns.framed (framed_closed.nextInBlock_holds (ofRoom_framed _)))
  | @ofKind _ state _ caller => exact framed caller (framed_closed.note _ state)
  | bound _ _ _ caller => exact advance (advance (advance caller))
  | returned _ _ caller => exact advance caller
  | alone _ _ caller => exact caller
  | absent _ _ caller => exact caller
  | test _ _ caller => exact advance (advance caller)
  | consequence _ _ ran _ _ caller =>
    have tested := framed (advance (advance caller)) ((derive_framed _ _).of_ok ran)
    exact advance (advance tested)
  | alternative _ _ ran _ _ first _ _ caller =>
    have tested := framed (advance (advance caller)) ((derive_framed _ _).of_ok ran)
    have chosen := framed (advance (advance tested)) ((derive_framed _ _).of_ok first)
    exact advance (advance chosen)
  | operand _ _ caller => exact enter caller (Int.le_refl 0) Int.one_nonneg
  | placeholder _ _ caller => exact enter caller (Int.le_refl 0) Int.one_nonneg
  | @operator room _ _ _ _ routine _ _ _ _ ran turns _ caller =>
    have entered := enter caller (Int.le_refl 0) Int.one_nonneg
    have first := framed entered ((routine.framed room).of_ok ran)
    exact advance (framed first (turns.framed (operatorTurn_framed (ofRoom_framed _))))
  | signed _ caller => exact advance caller
  | right _ caller => exact advance caller
  | inside _ caller => exact advance caller
  | arguments _ caller => exact caller
  | argument _ _ caller => exact advance caller
  | furtherArgument _ _ ran turns _ caller =>
    have first := framed (advance caller) ((derive_framed _ _).of_ok ran)
    have others := framed first (turns.framed (argumentTurn_framed (ofRoom_framed _)))
    exact advance (advance others)
  | parameters _ _ caller => exact advance caller
  | body _ _ ran _ caller =>
    have named := framed (advance caller) (Rule.Framed.of_ok framed_closed.parameters_holds ran)
    exact advance named

/-- At every call the stream ends. -/
theorem Called.ended {start : State} (ended : start.stream.ending.kind = .endOfInput) {α : Type}
    {room : Nat} {routine : Routine α} {state : State} (called : Called start room routine state) :
    state.stream.ending.kind = .endOfInput :=
  called.keeps (fun _ state => state.stream.ending.kind = .endOfInput)
    (fun ended framed => framed.ending ▸ ended) (fun ended _ _ => ended) ended

/-! ## The counters at the calls -/

/-- The counters agree with the room that is left: expressions and blocks around the current token
and those that may still be opened make up the limit, and no more blocks are open than there are
constructs. -/
structure State.Counted (room : Nat) (state : State) : Prop where
  /-- What is open and what may be opened. -/
  limit : state.nesting + room = maxNesting
  /-- No block is closed that was not opened. -/
  nonneg : 0 ≤ state.depth
  /-- A block is a construct. -/
  within : state.depth ≤ state.nesting

namespace State.Counted

variable {room : Nat} {state last : State}

/-- What keeps the frame keeps the counters. -/
theorem framed (counted : state.Counted room) (framed : State.Framed state last) :
    last.Counted room where
  limit := by rw [framed.nesting, counted.limit]
  nonneg := by rw [framed.depth]; exact counted.nonneg
  within := by rw [framed.depth, framed.nesting]; exact counted.within

/-- Inside of a construct there is less room. -/
theorem enter (counted : state.Counted (room + 1)) {blocks : Int} (some_or_none : 0 ≤ blocks)
    (single : blocks ≤ 1) : (state.enter blocks).Counted room := by
  have limit := counted.limit
  have nonneg := counted.nonneg
  have within := counted.within
  constructor
  · simp only [State.enter]
    omega
  · simp only [State.enter]
    omega
  · simp only [State.enter]
    omega

end State.Counted

/-- At every call the counters agree with the room that is left. -/
theorem Called.counted {start : State} (counted : start.Counted start.room) {α : Type} {room : Nat}
    {routine : Routine α} {state : State} (called : Called start room routine state) :
    state.Counted room :=
  called.keeps (fun room state => state.Counted room) State.Counted.framed
    (fun counted => counted.enter) counted

/-- The counters lie within their bounds: as many blocks as constructs at the most, and one
construct more than the limit at the most. -/
structure State.Bounded (state : State) (raised : Int) : Prop where
  /-- No block is closed that was not opened. -/
  nonneg : 0 ≤ state.depth
  /-- A block is a construct. -/
  within : state.depth ≤ state.nesting
  /-- The nesting, raised by so much, is no more than one above the limit. -/
  limit : state.nesting + raised ≤ 101

/-- Counters that agree with the room lie within their bounds, also while a rule raises them. -/
theorem State.Counted.bounded {room : Nat} {state : State} (counted : state.Counted room)
    {α : Type} (routine : Routine α) : state.Bounded routine.raises := by
  have limit := counted.limit
  have most : (maxNesting : Int) = 100 := rfl
  have raised : routine.raises ≤ 1 := by cases routine <;> simp [Routine.raises]
  exact ⟨counted.nonneg, counted.within, by omega⟩

/-- Outside of all constructs the counters agree with the room. -/
theorem State.Outermost.counted {state : State} (outermost : state.Outermost) :
    state.Counted state.room where
  limit := by rw [outermost.nesting, outermost.room, Int.zero_add]
  nonneg := Int.le_of_eq outermost.depth.symm
  within := Int.le_of_eq (outermost.depth.trans outermost.nesting.symm)

/-- At the start of a source text the counters agree with the room. -/
theorem State.ofText_counted (source : String) :
    (State.ofText source).Counted (State.ofText source).room :=
  (State.ofText_outermost source).counted

/-- Nesting is bounded. At every call of a rule, and where it ends, no more blocks are open than
constructs, and the nesting is at most 101, also while the rule raises it. In the program that
parsing gives, at most 100 expressions and blocks lie inside each other. -/
theorem nesting_bounded {source : String} (nonempty : source ≠ "") :
    (∃ start, State.ofSource source = .ok start ∧
      ∀ {α : Type} (room : Nat) (routine : Routine α) (state : State),
        Called start room routine state →
          state.Bounded routine.raises ∧
          ((routine.rule (Inner.ofRoom room)).after state).Bounded routine.raises) ∧
    ∃ parsed, parse source = .ok parsed ∧
      ∀ statement ∈ parsed.program.statements, statement.height ≤ 100 := by
  have ran := parse_eq nonempty
  refine ⟨⟨_, State.ofSource_eq nonempty, fun room routine state called => ?_⟩, _, ran,
    fun statement found => parse_height nonempty ran found⟩
  have entry := called.counted (State.ofText_counted source)
  have exit := entry.framed (routine.framed room state)
  exact ⟨entry.bounded routine, exit.bounded routine⟩

/-- A source that calls most of the rules. -/
theorem nesting_bounded_mixed :
    "if (f(1, -x)) \x7b return fn(a) \x7b (a) \x7d; \x7d else \x7b let = ; \x7d" ≠ "" ∧
    (∃ start, State.ofSource
        "if (f(1, -x)) \x7b return fn(a) \x7b (a) \x7d; \x7d else \x7b let = ; \x7d" = .ok start ∧
      ∀ {α : Type} (room : Nat) (routine : Routine α) (state : State),
        Called start room routine state →
          state.Bounded routine.raises ∧
          ((routine.rule (Inner.ofRoom room)).after state).Bounded routine.raises) ∧
    ∃ parsed, parse
        "if (f(1, -x)) \x7b return fn(a) \x7b (a) \x7d; \x7d else \x7b let = ; \x7d" = .ok parsed ∧
      ∀ statement ∈ parsed.program.statements, statement.height ≤ 100 :=
  ⟨by decide, nesting_bounded (by decide)⟩

end ExprLang.Parser
