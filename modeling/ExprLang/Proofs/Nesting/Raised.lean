import ExprLang.Proofs.Nesting.Complete

/-!
# Where too deep nesting comes up

A fault of nesting is left alone by every rule around the one that it arises in, and by the
statements of blocks. So it comes up in the rule of a statement outside of all constructs, however
deep in it the fault has arisen (`Called.comes_up`).
-/

namespace ExprLang.Parser

/-! ## The calls of the rule of statements -/

/-- A call of the rule of statements from the rule of programs, where some statements were read
before. -/
structure ProgramCall (start : State) (before : Array Stmt) (state : State) : Prop where
  /-- The statements in front. -/
  turns : Turns (currentIsNot .endOfInput) (nextStatement (Inner.ofRoom start.room)) #[] start
    before state
  /-- The source goes on. -/
  going : currentIsNot .endOfInput state = true

/-- A call of the rule of statements from the rule of blocks, whatever has called that one. -/
inductive BlockCall (start : State) (room : Nat) (state : State) : Prop where
  /-- The call behind some statements of the block. -/
  | call {block : State} {before : Array Stmt} (caller : Called start (room + 1) .block block)
      (turns : Turns (currentIsNot .rightBrace) (nextInBlock (Inner.ofRoom room)) #[]
        (block.enter 1).advance before state)
      (going : currentIsNot .rightBrace state = true) (more : state.current.kind ≠ .endOfInput)

/-- A statement of a block runs inside of a construct. -/
theorem BlockCall.inside {start : State} (counted : start.Counted start.room) {room : Nat}
    {state : State} (called : BlockCall start room state) : 1 ≤ state.nesting := by
  obtain ⟨caller, turns, -, -⟩ := called
  rename_i block before
  have outside : 0 ≤ block.nesting :=
    Int.le_trans (caller.counted counted).nonneg (caller.counted counted).within
  have framed := turns.framed (framed_closed.nextInBlock_holds (ofRoom_framed room))
  have entered : (block.enter 1).advance.nesting = block.nesting + 1 := by
    rw [State.advance_nesting, State.enter]
  rw [framed.nesting, entered]
  omega

/-- The statements of a program run outside of all constructs. -/
theorem Turns.outermost {room : Nat} {before found : Array Stmt} {start last : State}
    (turns : Turns (currentIsNot .endOfInput) (nextStatement (Inner.ofRoom room)) before start found
      last) (outside : start.Outermost) : last.Outermost := by
  induction turns with
  | start => exact outside
  | turned _ _ ran ih =>
    obtain ⟨read, last, again, kept⟩ := nextStatement_ok (ofRoom_framed room) _ ih
    cases ran.symm.trans again
    exact kept

/-- Where the calls of the rules of programs and of statements come from. -/
def Routine.Origin (start : State) (room : Nat) : {α : Type} → Routine α → State → Prop
  | _, .program, state => room = start.room ∧ state = start
  | _, .statement, state =>
    (room = start.room ∧ ∃ before, ProgramCall start before state) ∨ BlockCall start room state
  | _, _, _ => True

/-- The rule of programs is called once, and the rule of statements from programs and from
blocks. -/
theorem Called.origin {start state : State} {α : Type} {room : Nat} {routine : Routine α}
    (called : Called start room routine state) : routine.Origin start room state := by
  induction called with
  | program => exact ⟨rfl, rfl⟩
  | inProgram _ turns going caller =>
    obtain ⟨rfl, rfl⟩ := caller
    exact .inl ⟨rfl, _, turns, going⟩
  | inBlock caller turns going more => exact .inr (.call caller turns going more)
  | ofKind _ _ =>
    unfold Routine.ofKind
    split <;> trivial
  | operand _ found =>
    unfold Routine.operand? at found
    split at found <;> cases found <;> trivial
  | operator _ _ _ _ _ _ =>
    unfold Routine.operator
    split <;> trivial
  | _ => trivial

/-! ## The way of a fault -/

/-- A rule ends with a fault. -/
def Rule.Fails {α : Type} (rule : Rule α) (fault : Diagnostic) (state : State) : Prop :=
  ∃ last, rule state = .error fault last

namespace Rule.Fails

variable {α β : Type} {rule : Rule α} {fault : Diagnostic} {state : State} {kind : Kind}

/-- Rules with one result fail alike. -/
theorem congr {other : Rule α} {middle : State} (fails : rule.Fails fault middle)
    (same : other state = rule middle) : other.Fails fault state := by
  obtain ⟨last, ran⟩ := fails
  exact ⟨last, same.trans ran⟩

/-- A sequence fails with its first rule. -/
theorem first {next : α → Rule β} (fails : rule.Fails fault state) :
    (rule >>= next).Fails fault state := by
  obtain ⟨last, ran⟩ := fails
  exact ⟨last, bind_error ran⟩

/-- A sequence fails behind its first rule. -/
theorem behind {next : α → Rule β} {found : α} {middle : State}
    (ran : rule state = .ok found middle) (fails : (next found).Fails fault middle) :
    (rule >>= next).Fails fault state :=
  fails.congr (bind_ok ran)

/-- A look at the current token in front of a rule. -/
theorem look {next : Token → Rule β} (fails : (next state.current).Fails fault state) :
    (Rule.current >>= next).Fails fault state := behind (current_run state) fails

/-- A step in front of a rule. -/
theorem advance {next : Token → Rule β}
    (fails : (next state.advance.current).Fails fault state.advance) :
    (Rule.advance >>= next).Fails fault state := behind (advance_run state) fails

/-- A step to a token of a kind in front of a rule. -/
theorem expect {wanted : String} {next : Token → Rule β} (found : state.peek.kind = kind)
    (fails : (next state.peek).Fails fault state.advance) :
    (Rule.expect kind wanted >>= next).Fails fault state := behind (expect_ok wanted found) fails

/-- A construct fails with the rule inside of it. -/
theorem inside {blocks : Int} (fails : rule.Fails fault (state.enter blocks)) :
    (Rule.inside blocks rule).Fails fault state := by
  obtain ⟨last, ran⟩ := fails
  exact ⟨_, inside_error ran⟩

/-- A loop fails with one of its turns. -/
theorem loop {continues : State → Bool} {turn : α → Rule α} {value found : α} {middle : State}
    (ends : LoopEnds continues turn value state)
    (turns : Turns continues turn value state found middle) (going : continues middle = true)
    (fails : (turn found).Fails fault middle) :
    (Rule.repeatWhile continues turn value).Fails fault state := by
  obtain ⟨last, ran⟩ := fails
  exact ⟨last, ends.unique (turns.loops (.failed going ran))⟩

end Rule.Fails

open Rule (Fails)

/-- A statement inside of a construct passes a fault of nesting on. -/
theorem statement_fails {room : Nat} {state : State} {fault : Diagnostic}
    (deep : fault.cause.isDepth = true) (inside : 0 < state.nesting)
    (fails : (statementOfKind (Inner.ofRoom room) state.current.kind).Fails fault
      (state.note (.statement state.current))) :
    (statement (Inner.ofRoom room)).Fails fault state := by
  obtain ⟨last, ran⟩ := fails
  have framed := framed_closed.statementOfKind_holds (ofRoom_framed room) state.current.kind
    (state.note (.statement state.current))
  rw [Rule.after_error ran] at framed
  have nested : 0 < last.nesting := by
    rw [framed.nesting]
    exact inside
  refine ⟨last, ?_⟩
  rw [Rule.statement_of_error ran, Rule.recover_run, if_pos ⟨deep, nested⟩]

/-- A fault of nesting comes up in a statement outside of all constructs, whatever call of a rule it
has arisen in. -/
theorem Called.comes_up {start state : State} (outside : start.Outermost) {fault : Diagnostic}
    (deep : fault.cause.isDepth = true) {α : Type} {room : Nat} {routine : Routine α}
    (called : Called start room routine state)
    (fails : (routine.rule (Inner.ofRoom room)).Fails fault state) :
    ∃ before outer, ProgramCall start before outer ∧
      (statementOfKind (Inner.ofRoom start.room) outer.current.kind).Fails fault
        (outer.note (.statement outer.current)) := by
  -- A fault of the called rule ends its caller too, up to the statement that records it.
  induction called with
  | program =>
    obtain ⟨last, ran⟩ := fails
    obtain ⟨_, _, ended, -⟩ := program_ok (ofRoom_framed start.room) (ofRoom_forward _) outside
    cases ran.symm.trans ended
  | inProgram caller turns going _ =>
    obtain ⟨rfl, rfl⟩ := caller.origin
    obtain ⟨last, ran⟩ := fails
    have outermost := turns.outermost outside
    obtain ⟨_, _, ended⟩ :=
      statement_ok (ofRoom_framed _) outermost.ended (Int.le_of_eq outermost.nesting)
    cases ran.symm.trans ended
  | @inBlock room state last before caller turns going more ih =>
    refine ih ?_
    change ((Inner.ofRoom (room + 1)).derive .block).Fails fault state
    rw [derive_block]
    have ended : (state.enter 1).advance.stream.ending.kind = .endOfInput := by
      rw [State.advance_ending]
      exact caller.ended outside.ended
    have loop := (loops_end (ofRoom_forward room) ended).block #[]
    refine .inside (.advance (.first (.loop loop turns going (.look ?_))))
    rw [if_neg more]
    exact .first fails
  | @ofKind room state caller ih =>
    change ((Routine.ofKind state.current.kind).rule (Inner.ofRoom room)).Fails fault _ at fails
    rw [Routine.ofKind_rule] at fails
    rcases caller.origin with ⟨rfl, before, outermost⟩ | inner
    · exact ⟨before, state, outermost, fails⟩
    · exact ih (statement_fails deep (inner.inside outside.counted) fails)
  | bound _ named assigned ih =>
    exact ih (.look (.expect named (.expect assigned (.advance (.first fails)))))
  | returned _ valued ih =>
    exact ih (.look (.behind (Rule.accept_left valued) (.advance (.first fails))))
  | @alone room state _ begins ih =>
    have leads : leading (Inner.ofRoom room) state.current.kind =
        (Inner.ofRoom room).expression := by
      unfold leading
      rw [← Routine.operand?_rule, Option.isSome_map, if_pos begins]
    refine ih (.look ?_)
    rw [leads]
    exact .first fails
  | absent _ _ _ =>
    obtain ⟨_, ran⟩ := fails
    cases ran
  | test _ opening ih => exact ih (.look (.expect opening (.advance (.first fails))))
  | consequence _ opening ran closing brace ih =>
    refine ih (.look (.expect opening (.advance (.behind ran ?_))))
    exact .expect closing (.expect brace (.first fails))
  | alternative _ opening ran closing brace first otherwise curly ih =>
    refine ih (.look (.expect opening (.advance (.behind ran ?_))))
    refine .expect closing (.expect brace (.behind first ?_))
    exact .behind (Rule.accept_taken otherwise) (.expect curly (.first fails))
  | @operand room state above routine caller found ih =>
    refine ih ?_
    change ((Inner.ofRoom (room + 1)).derive (.expression above)).Fails fault state
    rw [derive_expression]
    exact .inside ((Fails.first fails).congr
      (expressionBody_operand above (Routine.operand?_some found)))
  | placeholder _ _ _ =>
    obtain ⟨_, ran⟩ := fails
    cases ran
  | @operator room state middle last above routine first left caller found ran turns going ih =>
    have ended : middle.stream.ending.kind = .endOfInput := by
      rw [((routine.framed room).of_ok ran).ending]
      exact caller.ended outside.ended
    have loop := (loops_end (ofRoom_forward room) ended).operators above first
    have extended : (extend (Inner.ofRoom room) left).Fails fault last.advance := by
      refine fails.congr ?_
      rw [← State.advance_current, Routine.operator_rule]
    refine ih ?_
    change ((Inner.ofRoom (room + 1)).derive (.expression above)).Fails fault state
    rw [derive_expression]
    have body := Fails.behind ran (.loop loop turns going (.advance extended))
    exact .inside (body.congr (expressionBody_operand above (Routine.operand?_some found)))
  | signed _ ih => exact ih (.look (.advance (.first fails)))
  | right _ ih => exact ih (.look (.advance (.first fails)))
  | inside _ ih => exact ih (.advance (.first fails))
  | arguments _ ih => exact ih (.look (.first fails))
  | argument _ some_left ih =>
    exact ih (.behind (Rule.accept_left some_left) (.advance (.first fails)))
  | @furtherArgument room state middle last first values caller some_left ran turns going ih =>
    have framed := (State.advance_framed state).trans ((derive_framed room _).of_ok ran)
    have ended : middle.stream.ending.kind = .endOfInput := by
      rw [framed.ending]
      exact caller.ended outside.ended
    have loop := (loops_end (ofRoom_forward room) ended).arguments #[first]
    have turn : (argumentTurn (Inner.ofRoom room) values).Fails fault last :=
      .advance (.advance (.first fails))
    refine ih (.behind (Rule.accept_left some_left) (.advance (.behind ran ?_)))
    exact .first (.loop loop turns going turn)
  | parameters _ opening ih => exact ih (.look (.expect opening (.first fails)))
  | body _ opening ran brace ih =>
    exact ih (.look (.expect opening (.behind ran (.expect brace (.first fails)))))

/-- Where nothing more may be opened an expression or a block is a fault of nesting at its first
token. -/
theorem Nonterminal.routine_fails {α : Type} (target : Nonterminal α) (state : State) :
    (target.routine.rule (Inner.ofRoom 0)).Fails ⟨target.overflow, state.current.position⟩
      state := by
  have overflows : ((Inner.ofRoom 0).derive target).Fails
      ⟨target.overflow, state.current.position⟩ state := by
    rw [derive_zero]
    exact .inside (.look ⟨_, rfl⟩)
  cases target with
  | expression above => exact overflows
  | block => exact overflows

end ExprLang.Parser
