import ExprLang.Proofs.Progress

/-!
# Loops

A loop of the grammar is bounded by the tokens ahead, and the bound is never what ends it: the
loop has a run without any bound (`Rule.Loops`), because each of its turns passes a token in
front of the end (`Rule.repeatWhile_ends`). Later proofs take a loop apart along that run.
-/

namespace ExprLang.Parser

/-- The tokens behind all that are ahead are the end. -/
theorem State.token_end (state : State) {index : Nat} (far : state.ahead.length ≤ index) :
    state.token index = state.stream.ending := by
  unfold State.ahead at far
  have shorter : state.stream.visible.length ≤ state.stream.upcoming.length :=
    List.length_filter_le _ _
  simp only [List.length_cons, List.length_append] at far
  match index with
  | 0 | 1 => omega
  | index + 2 =>
    simp only [State.token]
    rw [List.getD_eq_getElem?_getD, List.getElem?_eq_none (by rw [List.length_append]; omega)]
    rfl

namespace Rule

variable {α : Type} {continues : State → Bool} {turn : α → Rule α}

/-- The runs of a loop without a bound. They end where the condition fails, or with a fault of
a turn. -/
inductive Loops (continues : State → Bool) (turn : α → Rule α) :
    α → State → EStateM.Result Diagnostic State α → Prop where
  /-- The condition fails. -/
  | done {value : α} {state : State} (stopped : continues state = false) :
      Loops continues turn value state (.ok value state)
  /-- The last turn ends in a fault. -/
  | failed {value : α} {state last : State} {fault : Diagnostic}
      (going : continues state = true) (ran : turn value state = .error fault last) :
      Loops continues turn value state (.error fault last)
  /-- A turn is followed by others. -/
  | again {value next : α} {state middle : State} {result : EStateM.Result Diagnostic State α}
      (going : continues state = true) (ran : turn value state = .ok next middle)
      (rest : Loops continues turn next middle result) : Loops continues turn value state result

/-- A loop has the run of the loop without a bound: it ends by itself. -/
def LoopEnds (continues : State → Bool) (turn : α → Rule α) (value : α) (state : State) : Prop :=
  Loops continues turn value state (Rule.repeatWhile continues turn value state)

/-- The condition of a loop does not hold at its value. -/
theorem Loops.stopped {value found : α} {state last : State}
    (loops : Loops continues turn value state (.ok found last)) : continues last = false := by
  generalize ended : EStateM.Result.ok found last = result at loops
  induction loops with
  | done stopped =>
    cases ended
    exact stopped
  | failed => cases ended
  | again _ _ _ ih => exact ih ended

/-- What the turns of a loop keep holds at its value. -/
theorem repeatWhile_invariant (holds : α → State → Prop) {value found : α} {state last : State}
    (start : holds value state)
    (turns : ∀ value state next last, holds value state → continues state = true →
      turn value state = .ok next last → holds next last)
    (ran : Rule.repeatWhile continues turn value state = .ok found last) : holds found last := by
  have along : ∀ (tokens : List Token) (value : α) (state : State), holds value state →
      Rule.repeatAlong continues turn tokens value state = .ok found last → holds found last := by
    intro tokens
    induction tokens with
    | nil =>
      intro value state start ran
      obtain ⟨rfl, rfl⟩ := pure_eq_ok.mp ran
      exact start
    | cons token tokens ih =>
      intro value state start ran
      unfold Rule.repeatAlong at ran
      rw [bind_ok (show (get : Rule State) state = .ok state state from rfl)] at ran
      by_cases going : continues state = true
      · rw [if_pos going] at ran
        obtain ⟨next, middle, turned, ran⟩ := bind_eq_ok.mp ran
        exact ih next middle (turns _ _ _ _ start going turned) ran
      · rw [if_neg going] at ran
        obtain ⟨rfl, rfl⟩ := pure_eq_ok.mp ran
        exact start
  exact along _ value state start ran

/-- The turns of a loop keep the frame, however the loop ends. -/
theorem Loops.keeps {value : α} {state : State} {result : EStateM.Result Diagnostic State α}
    (loops : Loops continues turn value state result) (turns : ∀ value, (turn value).Framed) :
    State.Framed state (Rule.left result) := by
  induction loops with
  | done => exact .refl _
  | @failed value state last fault _ ran =>
    have kept := turns value state
    rwa [after_error ran] at kept
  | @again value next state middle _ _ ran _ ih => exact ((turns value).of_ok ran).trans ih

/-- A loop ends by itself when every turn passes a token that is not the end. The turns are
counted by the tokens between the start of the loop and the turn at hand. -/
theorem repeatWhile_ends {start : State} (ended : start.stream.ending.kind = .endOfInput)
    (advances : ∀ value, (turn value).Advances)
    (live : ∀ value state next last, continues state = true → turn value state = .ok next last →
      state.current.kind ≠ .endOfInput ∨ state.peek.kind ≠ .endOfInput) (value : α) :
    LoopEnds continues turn value start := by
  have along : ∀ (tokens : List Token) (passed : Nat) (value : α) (state : State),
      State.Passes passed start state → tokens ≠ [] →
      start.ahead.length < passed + tokens.length →
      Loops continues turn value state (Rule.repeatAlong continues turn tokens value state) := by
    intro tokens
    induction tokens with
    | nil => exact fun _ _ _ _ none_left => absurd rfl none_left
    | cons token tokens ih =>
      intro passed value state reached _ enough
      unfold Rule.repeatAlong
      rw [bind_ok (show (get : Rule State) state = .ok state state from rfl)]
      cases going : continues state with
      | false => exact .done going
      | true =>
        simp only [if_true]
        cases ran : turn value state with
        | error fault last =>
          rw [bind_error ran]
          exact .failed going ran
        | ok next middle =>
          rw [bind_ok ran]
          obtain ⟨count, positive, further⟩ := advances _ _ _ _ ran
          -- The turn started in front of the end, so the bound is not used up.
          have inside : passed < start.ahead.length := by
            refine Nat.lt_of_not_le fun far => ?_
            have current := reached 0
            have peek := reached 1
            rw [start.token_end (by omega)] at current peek
            rcases live _ _ _ _ going ran with alive | alive
            · exact alive ((congrArg (·.kind) current).trans ended)
            · exact alive ((congrArg (·.kind) peek).trans ended)
          rw [List.length_cons] at enough
          refine .again going ran (ih _ _ _ (reached.trans further) ?_ (by omega))
          rintro rfl
          rw [List.length_nil] at enough
          omega
  have run : Rule.repeatWhile continues turn value start =
      Rule.repeatAlong continues turn (start.current :: start.ahead) value start :=
    bind_ok (show (get : Rule State) start = .ok start start from rfl)
  unfold LoopEnds
  rw [run]
  exact along _ 0 value start (.refl start) (List.cons_ne_nil _ _) (by simp)

/-- A loop whose turns end with values ends with a value. -/
theorem Loops.succeeds (holds : State → Prop) {value : α} {state : State}
    {result : EStateM.Result Diagnostic State α} (loops : Loops continues turn value state result)
    (start : holds state)
    (turns : ∀ value state, holds state → continues state = true →
      ∃ next middle, turn value state = .ok next middle ∧ holds middle) :
    ∃ found last, result = .ok found last ∧ holds last := by
  induction loops with
  | done stopped => exact ⟨_, _, rfl, start⟩
  | failed going ran =>
    obtain ⟨next, middle, succeeded, -⟩ := turns _ _ start going
    rw [ran] at succeeded
    cases succeeded
  | again going ran rest ih =>
    obtain ⟨next, middle, succeeded, kept⟩ := turns _ _ start going
    rw [ran] at succeeded
    cases succeeded
    exact ih kept

end Rule

section LoopsOfTheGrammar

variable (inner : Inner)

/-- A turn of the operators behind an operand. -/
def operatorTurn (left : Expr) : Rule Expr := do
  _ ← Rule.advance
  extend inner left

/-- A turn of the arguments behind the first. -/
def argumentTurn (values : Array Expr) : Rule (Array Expr) := do
  _ ← Rule.advance
  _ ← Rule.advance
  return values.push (← inner.expression)

/-- A turn of the parameters behind the first. -/
def parameterTurn (names : Array Ident) : Rule (Array Ident) := do
  _ ← Rule.advance
  return names.push (← parameter)

/-- A turn of skipping tokens behind a fault. -/
def skippingTurn (_ : Unit) : Rule Unit := do _ ← Rule.advance

/-- Every loop of the grammar ends by itself in a state. -/
structure LoopsEnd (state : State) : Prop where
  /-- The operators behind an operand. -/
  operators : ∀ above left, Rule.LoopEnds (bindsTighter above) (operatorTurn inner) left state
  /-- The arguments behind the first. -/
  arguments : ∀ values, Rule.LoopEnds commaFollows (argumentTurn inner) values state
  /-- The parameters behind the first. -/
  parameters : ∀ names, Rule.LoopEnds commaFollows parameterTurn names state
  /-- The tokens skipped behind a fault. -/
  skipping : Rule.LoopEnds recovering skippingTurn () state
  /-- The statements of a block. -/
  block : ∀ statements,
    Rule.LoopEnds (currentIsNot .rightBrace) (nextInBlock inner) statements state
  /-- The statements of a source. -/
  program : ∀ statements,
    Rule.LoopEnds (currentIsNot .endOfInput) (nextStatement inner) statements state

variable {inner}

/-- A statement and the step behind it pass a token. -/
theorem nextStatement_advances (inside : inner.Holds Rule.Forward) (statements : Array Stmt) :
    (nextStatement inner statements).Advances :=
  Rule.Advances.behind (Rule.forward_closed.statement_holds inside) fun _ =>
    Rule.Advances.step fun _ => Rule.forward_closed.value _

/-- A statement of a block begins in front of the end. -/
theorem nextInBlock_ok {statements read : Array Stmt} {state last : State}
    (ran : nextInBlock inner statements state = .ok read last) :
    state.current.kind ≠ .endOfInput ∧ nextStatement inner statements state = .ok read last := by
  unfold nextInBlock at ran
  rw [Rule.bind_ok (Rule.current_run state)] at ran
  by_cases ended : state.current.kind = .endOfInput
  · rw [if_pos ended] at ran
    cases ran
  · rw [if_neg ended] at ran
    exact ⟨ended, ran⟩

/-- Every loop ends by itself, whatever the state, as long as its stream ends. -/
theorem loops_end (inside : inner.Holds Rule.Forward) {state : State}
    (ended : state.stream.ending.kind = .endOfInput) : LoopsEnd inner state where
  operators above left := by
    refine Rule.repeatWhile_ends ended (fun left => ?_) (fun _ state _ _ going _ => ?_) left
    · exact Rule.Advances.step fun _ => Rule.forward_closed.extend_holds inside left
    · right
      intro last
      simp only [bindsTighter, last, decide_eq_true_eq] at going
      cases above <;> exact absurd going (by decide)
  arguments values := by
    refine Rule.repeatWhile_ends ended (fun values => ?_) (fun _ state _ _ going _ => ?_) values
    · exact Rule.Advances.step fun _ => Rule.forward_closed.operandThen_holds inside _ fun _ =>
        Rule.forward_closed.value _
    · right
      simp only [commaFollows, decide_eq_true_eq] at going
      simp [going]
  parameters names := by
    refine Rule.repeatWhile_ends ended (fun names => ?_) (fun _ state _ _ going _ => ?_) names
    · exact Rule.Advances.step fun _ => Rule.forward_closed.sequence
        Rule.forward_closed.parameter_holds fun _ => Rule.forward_closed.value _
    · right
      simp only [commaFollows, decide_eq_true_eq] at going
      simp [going]
  skipping := by
    refine Rule.repeatWhile_ends ended (fun _ => ?_) (fun _ state _ _ going _ => ?_) ()
    · exact Rule.Advances.step fun _ => Rule.forward_closed.value _
    · left
      intro last
      simp [recovering, last] at going
  block statements := by
    refine Rule.repeatWhile_ends ended (fun statements => ?_) (fun _ state _ _ _ ran => ?_)
      statements
    · intro state read last ran
      exact nextStatement_advances inside statements _ _ _ (nextInBlock_ok ran).2
    · exact .inl (nextInBlock_ok ran).1
  program statements := by
    refine Rule.repeatWhile_ends ended (nextStatement_advances inside)
      (fun _ state _ _ going _ => ?_) statements
    simpa [currentIsNot] using Or.inl going

end LoopsOfTheGrammar

end ExprLang.Parser
