import ExprLang.Proofs.Reading.Inversion

/-!
# From runs to readings

A run that ends with a value and leaves no diagnostic behind has a reading of the tokens it has
passed (`derive_traced`). The diagnostics of a state are only added to, so that every part of
such a run leaves none behind either; a missing operand and the recovery behind a fault cannot be
among the parts.
-/

namespace ExprLang.Parser

open Rule (bind_eq_ok Loops)

/-- No diagnostic has been recorded. -/
def State.Clean (state : State) : Prop := state.diagnostics = #[]

/-- Before a state without diagnostics there was none. -/
theorem State.Framed.clean {before after : State} (framed : Framed before after)
    (clean : after.Clean) : before.Clean := by
  have added := framed.diagnostics
  rw [State.Clean] at clean ⊢
  rw [clean] at added
  exact Array.toList_eq_nil_iff.mp (List.prefix_nil.mp added)

/-- Advancing adds no diagnostic. -/
theorem State.Clean.of_advance {state : State} (clean : state.advance.Clean) : state.Clean := by
  rwa [State.Clean, State.advance_diagnostics] at clean

/-- A recorded diagnostic stays. -/
theorem State.not_clean_record {state last : State} {diagnostic : Diagnostic}
    (framed : Framed (state.record diagnostic) last) : ¬ last.Clean := by
  intro clean
  have none_recorded := framed.clean clean
  simp [State.Clean, State.record] at none_recorded

/-- A turn of the arguments keeps the frame. -/
theorem argumentTurn_framed {inner : Inner} (framed : inner.Holds Rule.Framed)
    (values : Array Expr) : (argumentTurn inner values).Framed :=
  framed_closed.sequence framed_closed.advance fun _ =>
    framed_closed.operandThen_holds framed _ fun _ => framed_closed.value _

/-- A turn of the operators keeps the frame. -/
theorem operatorTurn_framed {inner : Inner} (framed : inner.Holds Rule.Framed) (left : Expr) :
    (operatorTurn inner left).Framed :=
  framed_closed.sequence framed_closed.advance fun _ => framed_closed.extend_holds framed left

/-- A state lies behind a construct that can be read with so many levels at the most. -/
def State.HasRead (last : State) (room : Nat) (phrase : Phrase) (tokens : List Token) : Prop :=
  ∃ levels rest, levels ≤ room ∧ last.Ahead rest ∧ Reads phrase levels tokens rest

/-! ## Parameters -/

/-- A run over further parameters is a reading. -/
theorem moreNames_traced {before found : Array Ident} {state last : State} {tokens : List Token}
    (loops : Loops commaFollows parameterTurn before state (.ok found last))
    (views : state.Ahead tokens) (closing : last.peek.kind = .rightParen) :
    ∃ names rest, found.toList = before.toList ++ names ∧ last.advance.Ahead rest ∧
      ReadsMoreNames tokens rest names := by
  generalize ended : EStateM.Result.ok found last = result at loops
  induction loops generalizing tokens with
  | failed => cases ended
  | done stopped =>
    cases ended
    obtain ⟨rest, rfl⟩ := views.cons (by rw [State.token, closing]; decide)
    exact ⟨[], rest, by simp, views.pass, .last closing⟩
  | @again before next state middle _ going ran _ ih =>
    have separator : state.peek.kind = .comma := by simpa [commaFollows] using going
    obtain ⟨behind, rfl⟩ := views.cons (by rw [State.token, separator]; decide)
    obtain ⟨name, named, rfl⟩ := parameterTurn_eq_ok.mp ran
    obtain ⟨kind, rfl, rfl⟩ := parameter_eq_ok.mp named
    obtain ⟨behind, rfl⟩ := views.pass.cons (by rw [State.token, kind]; decide)
    obtain ⟨names, rest, same, last_views, reads⟩ := ih views.pass.pass ended
    refine ⟨_, rest, ?_, last_views, .next separator kind reads⟩
    rw [same]
    simp [State.token]

/-- A run over parameters is a reading. -/
theorem names_traced {names : List Ident} {state last : State} {tokens : List Token}
    (ran : parameters state = .ok names last) (views : state.Ahead tokens) :
    ∃ rest, last.Ahead rest ∧ ReadsNames tokens rest names := by
  rcases parameters_eq_ok.mp ran with ⟨closing, rfl, rfl⟩ |
    ⟨_, first, second, named, found, third, looped, closing, rfl, rfl⟩
  · obtain ⟨rest, rfl⟩ := views.cons (by rw [State.token, closing]; decide)
    exact ⟨rest, views.pass, .none closing⟩
  · obtain ⟨kind, rfl, rfl⟩ := parameter_eq_ok.mp named
    obtain ⟨rest, rfl⟩ := views.cons (by rw [State.token, kind]; decide)
    have loops := (loops_end (ofRoom_forward 0) views.pass.ended).parameters
      #[⟨state.peek.text, state.peek.position⟩]
    rw [Rule.LoopEnds, looped] at loops
    obtain ⟨names, rest, same, last_views, reads⟩ := moreNames_traced loops views.pass closing
    refine ⟨rest, last_views, ?_⟩
    rw [same]
    exact .some kind reads

/-! ## Expressions -/

/-- The constructs inside leave no diagnostic behind only where they have a reading. -/
structure Inner.Traced (inner : Inner) (room : Nat) : Prop where
  /-- An expression. -/
  expression : ∀ {above : Precedence} {state last : State} {value : Expr} {tokens : List Token},
    inner.derive (.expression above) state = .ok value last → last.Clean → state.At tokens →
      last.HasRead room (.expression above value) tokens
  /-- A block. -/
  block : ∀ {state last : State} {body : List Stmt} {tokens : List Token},
    inner.block state = .ok body last → last.Clean → state.Ahead tokens →
      last.HasRead room (.block body) tokens

section

variable {room : Nat} {inner : Inner} (traced : inner.Traced room) {state last : State}
  {tokens : List Token}

include traced

/-- A run over an operator before its operand is a reading. -/
theorem unary_traced {value : Expr} (ran : unary inner state = .ok value last)
    (clean : last.Clean) (views : state.At tokens)
    (kind : state.current.kind = .bang ∨ state.current.kind = .minus) :
    last.HasRead room (.operand value) tokens := by
  have more : (state.token 0).kind ≠ .endOfInput := by
    rw [State.token]
    rcases kind with kind | kind <;> rw [kind] <;> decide
  obtain ⟨behind, rfl⟩ := views.cons more
  obtain ⟨operand, inside, rfl⟩ := unary_eq_ok.mp ran
  obtain ⟨levels, rest, enough, stops, reads⟩ :=
    traced.expression inside clean views.behind.step
  exact ⟨levels, rest, enough, stops, .unary kind reads⟩

/-- A run over an expression in parentheses is a reading. -/
theorem grouped_traced {value : Expr} (ran : grouped inner state = .ok value last)
    (clean : last.Clean) (views : state.At tokens) (kind : state.current.kind = .leftParen) :
    last.HasRead room (.operand value) tokens := by
  obtain ⟨behind, rfl⟩ := views.cons (by rw [State.token, kind]; decide)
  obtain ⟨middle, inside, closing, rfl⟩ := grouped_eq_ok.mp ran
  obtain ⟨levels, rest, enough, stops, reads⟩ :=
    traced.expression inside clean.of_advance views.behind.step
  obtain ⟨rest, rfl⟩ := stops.cons (by rw [State.token, closing]; decide)
  exact ⟨levels, rest, enough, stops.pass, .grouped kind reads closing⟩

/-- A run over a function literal is a reading. -/
theorem function_traced {value : Expr} (ran : function inner state = .ok value last)
    (clean : last.Clean) (views : state.At tokens) (kind : state.current.kind = .functionWord) :
    last.HasRead room (.operand value) tokens := by
  obtain ⟨behind, rfl⟩ := views.cons (by rw [State.token, kind]; decide)
  obtain ⟨paren, names, middle, named, curly, body, inside, rfl⟩ := function_eq_ok.mp ran
  obtain ⟨tokens, rfl⟩ := views.behind.cons (by rw [State.token, paren]; decide)
  obtain ⟨rest, stops, parameters⟩ := names_traced named views.behind.pass
  obtain ⟨rest, rfl⟩ := stops.cons (by rw [State.token, curly]; decide)
  obtain ⟨levels, rest, enough, stops, reads⟩ := traced.block inside clean stops.pass
  exact ⟨levels, rest, enough, stops, .function kind paren parameters curly reads⟩

/-- A run over an operand is a reading. -/
theorem operand_traced {rule : Rule Expr} {value : Expr}
    (found : operand? inner state.current.kind = some rule) (ran : rule state = .ok value last)
    (clean : last.Clean) (views : state.At tokens) :
    last.HasRead room (.operand value) tokens := by
  have begins : state.current.kind.startsOperand = true := by
    rw [← operand?_isSome_eq inner, found]
    rfl
  have more : (state.token 0).kind ≠ .endOfInput := by
    intro ended
    rw [State.token] at ended
    rw [ended] at begins
    exact absurd begins (by decide)
  unfold operand? at found
  split at found <;> cases found
  case h_1 kind =>
    obtain ⟨rest, rfl⟩ := views.cons more
    obtain ⟨rfl, rfl⟩ := name_eq_ok.mp ran
    exact ⟨0, rest, Nat.zero_le _, views.behind, .name kind⟩
  case h_2 kind =>
    obtain ⟨rest, rfl⟩ := views.cons more
    obtain ⟨number, readable, rfl, rfl⟩ := integer_eq_ok.mp ran
    exact ⟨0, rest, Nat.zero_le _, views.behind, .integer kind readable⟩
  case h_3 kind =>
    obtain ⟨rest, rfl⟩ := views.cons more
    obtain ⟨rfl, rfl⟩ := boolean_eq_ok.mp ran
    exact ⟨0, rest, Nat.zero_le _, views.behind, .boolean (.inl kind)⟩
  case h_4 kind =>
    obtain ⟨rest, rfl⟩ := views.cons more
    obtain ⟨rfl, rfl⟩ := boolean_eq_ok.mp ran
    exact ⟨0, rest, Nat.zero_le _, views.behind, .boolean (.inr kind)⟩
  case h_5 kind => exact unary_traced traced ran clean views (.inl kind)
  case h_6 kind => exact unary_traced traced ran clean views (.inr kind)
  case h_7 kind => exact grouped_traced traced ran clean views kind
  case h_8 kind => exact function_traced traced ran clean views kind

/-- A run over further arguments is a reading. -/
theorem moreArguments_traced (framed : inner.Holds Rule.Framed) {before found : Array Expr}
    (loops : Loops commaFollows (argumentTurn inner) before state (.ok found last))
    (clean : last.Clean) (views : state.Ahead tokens) (closing : last.peek.kind = .rightParen) :
    ∃ values, found.toList = before.toList ++ values ∧
      last.advance.HasRead room (.moreArguments values) tokens := by
  generalize ended : EStateM.Result.ok found last = result at loops
  induction loops generalizing tokens with
  | failed => cases ended
  | done stopped =>
    cases ended
    obtain ⟨rest, rfl⟩ := views.cons (by rw [State.token, closing]; decide)
    exact ⟨[], by simp, 0, rest, Nat.zero_le _, views.pass, .lastArgument closing⟩
  | @again before next state middle _ going ran further ih =>
    have separator : state.peek.kind = .comma := by simpa [commaFollows] using going
    obtain ⟨behind, rfl⟩ := views.cons (by rw [State.token, separator]; decide)
    subst ended
    have middle_clean := (further.keeps (argumentTurn_framed framed)).clean clean
    obtain ⟨value, inside, rfl⟩ := argumentTurn_eq_ok.mp ran
    obtain ⟨near, third, enough, stops, reads⟩ :=
      traced.expression inside middle_clean views.pass.step
    obtain ⟨values, same, far, rest, enough_behind, last_stops, more⟩ := ih stops rfl
    refine ⟨value :: values, ?_, max near far, rest, by omega, last_stops,
      .nextArgument separator reads more⟩
    rw [same]
    simp

/-- A run over arguments is a reading. -/
theorem arguments_traced (framed : inner.Holds Rule.Framed) (forward : inner.Holds Rule.Forward)
    {values : List Expr} (ran : arguments inner state = .ok values last) (clean : last.Clean)
    (views : state.Ahead tokens) : last.HasRead room (.arguments values) tokens := by
  rcases arguments_eq_ok.mp ran with ⟨closing, rfl, rfl⟩ |
    ⟨_, value, second, inside, found, third, looped, closing, rfl, rfl⟩
  · obtain ⟨rest, rfl⟩ := views.cons (by rw [State.token, closing]; decide)
    exact ⟨0, rest, Nat.zero_le _, views.pass, .noArgument closing⟩
  · have third_clean := clean.of_advance
    have looped_framed :=
      (framed_closed.repeatWhile_holds (argumentTurn_framed framed) #[value]).of_ok looped
    obtain ⟨near, middle, enough, stops, reads⟩ :=
      traced.expression inside (looped_framed.clean third_clean) views.step
    have loops := (loops_end forward stops.ended).arguments #[value]
    rw [Rule.LoopEnds, looped] at loops
    obtain ⟨values, same, far, rest, enough_behind, last_stops, more⟩ :=
      moreArguments_traced traced framed loops third_clean stops closing
    refine ⟨max near far, rest, by omega, last_stops, ?_⟩
    rw [same]
    exact .arguments reads more

/-- A run over the operators behind an expression is a reading. -/
theorem operators_traced (framed : inner.Holds Rule.Framed) (forward : inner.Holds Rule.Forward)
    {above : Precedence} {left value : Expr}
    (loops : Loops (bindsTighter above) (operatorTurn inner) left state (.ok value last))
    (clean : last.Clean) (views : state.Ahead tokens) :
    last.HasRead room (.operators above left value) tokens := by
  generalize ended : EStateM.Result.ok value last = result at loops
  induction loops generalizing tokens with
  | failed => cases ended
  | @done left state stopped =>
    cases ended
    refine ⟨0, tokens, Nat.zero_le _, views, .noOperator ?_⟩
    rw [bindsTighter, views.peek_kind] at stopped
    simpa using stopped
  | @again left next state middle _ going ran further ih =>
    subst ended
    have tighter : above < .ofKind state.peek.kind := by simpa [bindsTighter] using going
    have operator : (state.token 1).kind ≠ .endOfInput := by
      intro ended
      rw [State.token] at ended
      rw [ended] at tighter
      cases above <;> exact absurd tighter (by decide)
    obtain ⟨behind, rfl⟩ := views.cons operator
    have middle_clean := (further.keeps (operatorTurn_framed framed)).clean clean
    rw [operatorTurn_run] at ran
    have sign : state.advance.current = state.peek := state.advance_current
    rcases extend_eq_ok.mp ran with ⟨kind, values, inside, rfl⟩ | ⟨kind, right, inside, rfl⟩
    · obtain ⟨near, third, enough, stops, reads⟩ :=
        arguments_traced traced framed forward inside middle_clean views.pass
      obtain ⟨far, rest, enough_behind, last_stops, more⟩ := ih stops rfl
      rw [sign] at kind more
      rw [kind] at tighter
      exact ⟨max near far, rest, by omega, last_stops, .call tighter kind reads more⟩
    · obtain ⟨near, third, enough, stops, reads⟩ :=
        traced.expression inside middle_clean views.pass.step
      obtain ⟨far, rest, enough_behind, last_stops, more⟩ := ih stops rfl
      rw [sign] at kind more reads
      exact ⟨max near far, rest, by omega, last_stops, .binary tighter kind reads more⟩

/-- A run over an expression is a reading, one level deeper. -/
theorem expressionBody_traced (framed : inner.Holds Rule.Framed)
    (forward : inner.Holds Rule.Forward) {above : Precedence} {value : Expr}
    (ran : expressionBody inner above state = .ok value last) (clean : last.Clean)
    (views : state.At tokens) : last.HasRead (room + 1) (.expression above value) tokens := by
  cases found : operand? inner state.current.kind with
  | none =>
    rw [expressionBody_placeholder above found, placeholder_run] at ran
    obtain ⟨-, rfl⟩ := EStateM.Result.ok.inj ran
    dsimp only at clean
    split at clean
    · exact absurd clean (State.not_clean_record (State.stepBack_framed _))
    · exact absurd clean (State.not_clean_record (.refl _))
  | some rule =>
    rw [expressionBody_operand above found] at ran
    obtain ⟨left, middle, first, looped⟩ := bind_eq_ok.mp ran
    have looped_framed : State.Framed middle last :=
      (framed_closed.repeatWhile_holds (operatorTurn_framed framed) left).of_ok looped
    obtain ⟨near, second, enough, stops, reads⟩ :=
      operand_traced traced found first (looped_framed.clean clean) views
    have loops := (loops_end forward stops.ended).operators above left
    rw [Rule.LoopEnds, show Rule.repeatWhile (bindsTighter above) (operatorTurn inner) left middle =
      .ok value last from looped] at loops
    obtain ⟨far, rest, enough_behind, last_stops, more⟩ :=
      operators_traced traced framed forward loops clean stops
    exact ⟨max near far + 1, rest, by omega, last_stops, .expression reads more⟩

/-! ## Statements -/

/-- A run over a binding is a reading. -/
theorem binding_traced {value : Stmt} (ran : binding inner state = .ok value last)
    (clean : last.Clean) (views : state.At tokens) (kind : state.current.kind = .letWord) :
    last.HasRead room (.statement value) tokens := by
  obtain ⟨behind, rfl⟩ := views.cons (by rw [State.token, kind]; decide)
  obtain ⟨named, assigned, found, middle, inside, closing, rfl, rfl⟩ := binding_eq_ok.mp ran
  obtain ⟨tokens, rfl⟩ := views.behind.cons (by rw [State.token, named]; decide)
  obtain ⟨tokens, rfl⟩ := views.behind.pass.cons (by rw [State.token, assigned]; decide)
  obtain ⟨levels, rest, enough, stops, reads⟩ :=
    traced.expression inside clean.of_advance views.behind.pass.pass.step
  obtain ⟨rest, rfl⟩ := stops.cons (by rw [State.token, closing]; decide)
  exact ⟨levels, rest, enough, stops.pass, .binding kind named assigned reads closing⟩

/-- A run over the end of a function is a reading. -/
theorem result_traced {value : Stmt} (ran : result inner state = .ok value last)
    (clean : last.Clean) (views : state.At tokens) (kind : state.current.kind = .returnWord) :
    last.HasRead room (.statement value) tokens := by
  obtain ⟨behind, rfl⟩ := views.cons (by rw [State.token, kind]; decide)
  rcases result_eq_ok.mp ran with ⟨closing, rfl, rfl⟩ |
    ⟨_, found, middle, inside, closing, rfl, rfl⟩
  · obtain ⟨rest, rfl⟩ := views.behind.cons (by rw [State.token, closing]; decide)
    exact ⟨0, rest, Nat.zero_le _, views.behind.pass, .bareResult kind closing⟩
  · obtain ⟨levels, rest, enough, stops, reads⟩ :=
      traced.expression inside clean.of_advance views.behind.step
    obtain ⟨rest, rfl⟩ := stops.cons (by rw [State.token, closing]; decide)
    exact ⟨levels, rest, enough, stops.pass, .result kind reads closing⟩

/-- A run over an expression on its own is a reading. -/
theorem expressionStatement_traced {value : Stmt}
    (ran : expressionStatement inner state = .ok value last) (clean : last.Clean)
    (views : state.At tokens) : last.HasRead room (.statement value) tokens := by
  obtain ⟨found, middle, inside, rfl, ending⟩ := expressionStatement_eq_ok.mp ran
  have middle_clean : middle.Clean := by
    rcases ending with ⟨_, rfl⟩ | ⟨_, rfl⟩
    · exact clean.of_advance
    · exact clean
  rcases leading_eq_ok.mp inside with ⟨begins, inside⟩ | ⟨_, -, rfl⟩
  · obtain ⟨behind, rfl⟩ := views.cons (by
      intro ended
      rw [State.token] at ended
      rw [ended] at begins
      exact absurd begins (by decide))
    obtain ⟨levels, rest, enough, stops, reads⟩ := traced.expression inside middle_clean views
    rcases ending with ⟨closing, rfl⟩ | ⟨following, rfl⟩
    · obtain ⟨rest, rfl⟩ := stops.cons (by rw [State.token, closing]; decide)
      exact ⟨levels, rest, enough, stops.pass, .terminated reads closing⟩
    · refine ⟨levels, rest, enough, stops, .unterminated reads ?_⟩
      rwa [← stops.peek_kind]
  · exact absurd middle_clean (State.not_clean_record (.refl _))

/-- A run over a condition is a reading. -/
theorem condition_traced (framed : ∀ {state last : State} {body : List Stmt},
      inner.block state = .ok body last → State.Framed state last)
    {value : Stmt} (ran : condition inner state = .ok value last)
    (clean : last.Clean) (views : state.At tokens) (kind : state.current.kind = .ifWord) :
    last.HasRead room (.statement value) tokens := by
  obtain ⟨behind, rfl⟩ := views.cons (by rw [State.token, kind]; decide)
  obtain ⟨paren, test, second, tested, closing, curly, consequence, third, first, ending⟩ :=
    condition_eq_ok.mp ran
  obtain ⟨tokens, rfl⟩ := views.behind.cons (by rw [State.token, paren]; decide)
  -- What follows the first branch is the same for both readings of it.
  have opened : third.Clean → ∃ near inside, near ≤ room ∧ second.Ahead inside ∧
      Reads (.expression .lowest test) near tokens inside := by
    intro third_clean
    exact traced.expression tested ((framed first).clean third_clean).of_advance.of_advance
      views.behind.pass.step
  rcases ending with ⟨otherwise, curled, alternative, other, rfl⟩ | ⟨following, rfl, rfl⟩
  · have third_clean := ((framed other).clean clean).of_advance.of_advance
    obtain ⟨near, inside, enough, stops, reads⟩ := opened third_clean
    obtain ⟨inside, rfl⟩ := stops.cons (by rw [State.token, closing]; decide)
    obtain ⟨inside, rfl⟩ := stops.pass.cons (by rw [State.token, curly]; decide)
    obtain ⟨far, rest, enough_first, stops, block⟩ :=
      traced.block first third_clean stops.pass.pass
    obtain ⟨rest, rfl⟩ := stops.cons (by rw [State.token, otherwise]; decide)
    obtain ⟨rest, rfl⟩ := stops.pass.cons (by rw [State.token, curled]; decide)
    obtain ⟨further, rest, enough_other, stops, more⟩ :=
      traced.block other clean stops.pass.pass
    exact ⟨max near (max far further), rest, by omega, stops,
      .alternative kind paren reads closing curly block otherwise curled more⟩
  · obtain ⟨near, inside, enough, stops, reads⟩ := opened clean
    obtain ⟨inside, rfl⟩ := stops.cons (by rw [State.token, closing]; decide)
    obtain ⟨inside, rfl⟩ := stops.pass.cons (by rw [State.token, curly]; decide)
    obtain ⟨far, rest, enough_first, stops, block⟩ := traced.block first clean stops.pass.pass
    refine ⟨max near far, rest, by omega, stops, .condition kind paren reads closing curly block ?_⟩
    rwa [← stops.peek_kind]

/-- A run over a statement is a reading. -/
theorem statementOfKind_traced (framed : ∀ {state last : State} {body : List Stmt},
      inner.block state = .ok body last → State.Framed state last)
    {value : Stmt} (ran : statementOfKind inner state.current.kind state = .ok value last)
    (clean : last.Clean) (views : state.At tokens) :
    last.HasRead room (.statement value) tokens := by
  by_cases binds : state.current.kind = .letWord
  · rw [binds] at ran
    exact binding_traced traced ran clean views binds
  by_cases results : state.current.kind = .returnWord
  · rw [results] at ran
    exact result_traced traced ran clean views results
  by_cases tests : state.current.kind = .ifWord
  · rw [tests] at ran
    exact condition_traced traced framed ran clean views tests
  · have other : statementOfKind inner state.current.kind = expressionStatement inner := by
      unfold statementOfKind
      split <;> first | contradiction | rfl
    rw [other] at ran
    exact expressionStatement_traced traced ran clean views

end

/-- Going on behind a fault keeps the fault as a diagnostic. -/
theorem recover_framed {fault : Diagnostic} {state last : State} {found : Option Stmt}
    (ran : recover fault state = .ok found last) : State.Framed (state.record fault) last := by
  rw [Rule.recover_run] at ran
  split at ran
  · exact nomatch ran
  · exact Rule.Framed.of_ok framed_closed.skipStatement_holds ran

/-- A statement ends with its value, or with the remedy for its fault. -/
theorem statement_cases {inner : Inner} {state last : State} {read : Option Stmt}
    (ran : statement inner state = .ok read last) :
    (∃ value, read = some value ∧
      statementOfKind inner state.current.kind (state.note (.statement state.current)) =
        .ok value last) ∨
    ∃ fault middle,
      statementOfKind inner state.current.kind (state.note (.statement state.current)) =
        .error fault middle ∧ recover fault middle = .ok read last := by
  cases attempt : statementOfKind inner state.current.kind
      (state.note (.statement state.current)) with
  | ok value middle =>
    rw [Rule.statement_of_ok attempt] at ran
    obtain ⟨rfl, rfl⟩ := EStateM.Result.ok.inj ran
    exact .inl ⟨value, rfl, rfl⟩
  | error fault middle =>
    rw [Rule.statement_of_error attempt] at ran
    exact .inr ⟨fault, middle, rfl, ran⟩

/-- A statement that leaves no diagnostic behind needs no remedy. -/
theorem statement_clean {inner : Inner} {state last : State} {read : Option Stmt}
    (ran : statement inner state = .ok read last) (clean : last.Clean) :
    ∃ value, read = some value ∧
      statementOfKind inner state.current.kind (state.note (.statement state.current)) =
        .ok value last := by
  rcases statement_cases ran with found | ⟨fault, middle, -, recovered⟩
  · exact found
  · exact absurd clean (State.not_clean_record (recover_framed recovered))

/-- A statement and the step behind it are a reading of the statement. -/
theorem nextStatement_traced {room : Nat} {before next : Array Stmt} {state last : State}
    {tokens : List Token} (traced : (Inner.ofRoom room).Traced room)
    (ran : nextStatement (Inner.ofRoom room) before state = .ok next last) (clean : last.Clean)
    (views : state.At tokens) :
    ∃ value levels rest, next = before.push value ∧ levels ≤ room ∧ last.At rest ∧
      Reads (.statement value) levels tokens rest := by
  obtain ⟨read, middle, attempt, rfl, rfl⟩ := nextStatement_eq_ok.mp ran
  obtain ⟨value, rfl, inside⟩ := statement_clean attempt clean.of_advance
  have noted : (state.note (.statement state.current)).At tokens :=
    views.congr (fun index => state.token_note _ index) rfl
  obtain ⟨levels, rest, enough, stops, reads⟩ :=
    statementOfKind_traced traced (derive_framed room .block).of_ok inside clean.of_advance noted
  exact ⟨value, levels, rest, by simp, enough, stops.step, reads⟩

/-- A run over the statements of a block is a reading. -/
theorem statements_traced {room : Nat} {before found : Array Stmt} {state last : State}
    {tokens : List Token} (traced : (Inner.ofRoom room).Traced room)
    (loops : Loops (currentIsNot .rightBrace) (nextInBlock (Inner.ofRoom room)) before state
      (.ok found last)) (clean : last.Clean) (views : state.At tokens) :
    ∃ values, found.toList = before.toList ++ values ∧
      last.HasRead room (.statements values) tokens := by
  generalize ended : EStateM.Result.ok found last = result at loops
  induction loops generalizing tokens with
  | failed => cases ended
  | done stopped =>
    cases ended
    have closing : last.current.kind = .rightBrace := by simpa [currentIsNot] using stopped
    obtain ⟨rest, rfl⟩ := views.cons (by rw [State.token, closing]; decide)
    exact ⟨[], by simp, 0, rest, Nat.zero_le _, views.behind, .lastStatement closing⟩
  | again _ ran further ih =>
    subst ended
    have middle_clean := (further.keeps
      (framed_closed.nextInBlock_holds (ofRoom_framed room))).clean clean
    obtain ⟨value, near, middle, rfl, enough, stops, reads⟩ :=
      nextStatement_traced traced (nextInBlock_ok ran).2 middle_clean views
    obtain ⟨values, same, far, rest, enough_behind, last_stops, more⟩ := ih stops rfl
    refine ⟨value :: values, ?_, max near far, rest, by omega, last_stops,
      .nextStatement reads more⟩
    rw [same]
    simp

/-- A run over the statements of a source is a reading. -/
theorem program_traced {room : Nat} {before found : Array Stmt} {state last : State}
    {tokens : List Token} (traced : (Inner.ofRoom room).Traced room)
    (loops : Loops (currentIsNot .endOfInput) (nextStatement (Inner.ofRoom room)) before state
      (.ok found last)) (clean : last.Clean) (views : state.At tokens) :
    ∃ values levels, found.toList = before.toList ++ values ∧ levels ≤ room ∧
      ReadsProgram levels tokens values := by
  generalize ended : EStateM.Result.ok found last = result at loops
  induction loops generalizing tokens with
  | failed => cases ended
  | done stopped =>
    cases ended
    have closing : last.current.kind = .endOfInput := by simpa [currentIsNot] using stopped
    rw [views.current_kind] at closing
    cases tokens with
    | nil => exact ⟨[], 0, by simp, Nat.zero_le _, .done⟩
    | cons token rest => exact absurd closing (views.solid token List.mem_cons_self)
  | again _ ran further ih =>
    subst ended
    have middle_clean := (further.keeps
      (framed_closed.nextStatement_holds (ofRoom_framed room))).clean clean
    obtain ⟨value, near, middle, rfl, enough, stops, reads⟩ :=
      nextStatement_traced traced ran middle_clean views
    obtain ⟨values, far, same, enough_behind, more⟩ := ih stops rfl
    refine ⟨value :: values, max near far, ?_, by omega, .next reads more⟩
    rw [same]
    simp

/-- Leaving a construct does not change what is in view. -/
theorem State.HasRead.leave {final : State} {room : Nat} {phrase : Phrase} {tokens : List Token}
    (read : final.HasRead room phrase tokens) (depth nesting : Int) :
    State.HasRead { final with depth, nesting } room phrase tokens := by
  obtain ⟨levels, rest, enough, stops, reads⟩ := read
  exact ⟨levels, rest, enough, stops.congr (fun index => State.token_counters _ _ _ index) rfl,
    reads⟩

/-- Whatever room there is, the expressions and blocks that leave no diagnostic behind have
readings. -/
theorem derive_traced : ∀ room : Nat, (Inner.ofRoom room).Traced room
  | 0 => ⟨fun ran => absurd ran derive_zero_fails, fun ran => absurd ran derive_zero_fails⟩
  | room + 1 => by
    have traced := derive_traced room
    constructor
    · intro above state last value tokens ran clean views
      rw [derive_expression] at ran
      obtain ⟨final, inside, rfl⟩ := inside_eq_ok ran
      have entered : State.At { state with depth := state.depth + 0, nesting := state.nesting + 1 }
          tokens := views.congr (fun index => State.token_counters _ _ _ index) rfl
      exact (expressionBody_traced traced (ofRoom_framed room) (ofRoom_forward room) inside clean
        entered).leave _ _
    · intro state last body tokens ran clean views
      rw [Inner.block, derive_block] at ran
      obtain ⟨final, inside, rfl⟩ := inside_eq_ok ran
      have entered : State.Ahead
          { state with depth := state.depth + 1, nesting := state.nesting + 1 } tokens :=
        views.congr (fun index => State.token_counters _ _ _ index) rfl
      obtain ⟨found, looped, rfl⟩ := blockBody_eq_ok.mp inside
      have loops := (loops_end (ofRoom_forward room) entered.step.ended).block #[]
      rw [Rule.LoopEnds, looped] at loops
      obtain ⟨values, same, levels, rest, enough, stops, reads⟩ :=
        statements_traced traced loops clean entered.step
      rw [same]
      have read : final.HasRead (room + 1) (.block values) tokens :=
        ⟨levels + 1, rest, by omega, stops, .block reads⟩
      exact read.leave _ _

end ExprLang.Parser
