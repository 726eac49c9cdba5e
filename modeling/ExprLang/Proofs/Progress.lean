import ExprLang.Proofs.Window

/-!
# Progress

Measured in tokens passed, no construct ends before its start (`Rule.Forward`), although the
parser goes back by one token where an operand is missing: there it has just stepped forward.
Only the rule of an expression itself can end a token before its start (`State.WentBack`), so
the walk through the grammar takes each expression together with the step before it.
-/

namespace ExprLang.Parser

/-! ## Tokens passed -/

/-- One state lies a number of tokens behind another in the same endless sequence. -/
def State.Passes (count : Nat) (before after : State) : Prop :=
  ∀ index, after.token index = before.token (index + count)

namespace State.Passes

/-- No token lies between a state and itself. -/
theorem refl (state : State) : Passes 0 state state := fun _ => rfl

/-- Tokens passed one after the other add up. -/
theorem trans {near far : Nat} {first second third : State} (left : Passes near first second)
    (right : Passes far second third) : Passes (near + far) first third := by
  intro index
  rw [right, left]
  congr 1
  omega

/-- Advancing passes one token. -/
theorem advance (state : State) : Passes 1 state state.advance := state.advance_token

end State.Passes

/-- One state lies at another or behind it in the same endless sequence. -/
def State.Reaches (before after : State) : Prop := ∃ count, State.Passes count before after

namespace Rule

variable {α β : Type}

/-- A rule ends at its first token or behind it, whether with a value or with a fault. -/
def Forward (rule : Rule α) : Prop := ∀ state, State.Reaches state (rule.after state)

/-- A rule that ends with a value has passed a token. -/
def Advances (rule : Rule α) : Prop :=
  ∀ state value last, rule state = .ok value last →
    ∃ count, 0 < count ∧ State.Passes count state last

/-- The steps of the grammar lead forward. -/
theorem forward_closed : Closed Forward :=
  Closed.of_relation (fun state => ⟨0, .refl state⟩)
    (fun ⟨_, left⟩ ⟨_, right⟩ => ⟨_, left.trans right⟩)
    (fun state => ⟨1, .advance state⟩)
    (fun state diagnostic => ⟨0, fun index => by simp⟩)
    (fun state event => ⟨0, fun index => by simp⟩)

/-- A rule that leads forward does so up to its value. -/
theorem Forward.of_ok {rule : Rule α} (forward : rule.Forward) {state last : State} {value : α}
    (ran : rule state = .ok value last) : State.Reaches state last := by
  have passed := forward state
  rwa [after_ok ran] at passed

/-- A step and a rule that leads forward pass a token. -/
theorem Advances.step {rest : Token → Rule β} (forward : ∀ token, (rest token).Forward) :
    (do let token ← Rule.advance; rest token).Advances := by
  intro state value last ran
  obtain ⟨token, middle, stepped, ended⟩ := bind_eq_ok.mp ran
  obtain ⟨rfl, rfl⟩ := EStateM.Result.ok.inj stepped
  obtain ⟨count, passed⟩ := (forward _).of_ok ended
  exact ⟨1 + count, by omega, (State.Passes.advance state).trans passed⟩

/-- A rule that leads forward and one that passes a token pass a token. -/
theorem Advances.behind {first : Rule α} {rest : α → Rule β} (forward : first.Forward)
    (advances : ∀ value, (rest value).Advances) : (first >>= rest).Advances := by
  intro state value last ran
  obtain ⟨found, middle, head, ended⟩ := bind_eq_ok.mp ran
  obtain ⟨count, passed⟩ := forward.of_ok head
  obtain ⟨more, positive, further⟩ := advances found _ _ _ ended
  exact ⟨count + more, by omega, passed.trans further⟩

/-- Entering and leaving a construct does not change the window. -/
theorem inside_reaches {blocks : Int} {rule : Rule α} {state : State}
    (reached : State.Reaches state (rule.after
      { state with depth := state.depth + blocks, nesting := state.nesting + 1 })) :
    State.Reaches state ((Rule.inside blocks rule).after state) := by
  obtain ⟨count, passed⟩ := reached
  refine ⟨count, fun index => ?_⟩
  rw [after_inside]
  calc
    _ = (rule.after _).token index := State.token_counters _ _ _ index
    _ = _ := passed index
    _ = _ := state.token_counters _ _ _

/-- A construct leads as far as the rule inside. -/
theorem Forward.inside {blocks : Int} {rule : Rule α} (forward : rule.Forward) :
    (Rule.inside blocks rule).Forward := by
  intro state
  obtain ⟨count, passed⟩ :=
    forward { state with depth := state.depth + blocks, nesting := state.nesting + 1 }
  exact inside_reaches ⟨count, passed⟩

end Rule

/-! ## Missing operands -/

/-- The run of the rule for a missing operand. -/
theorem missingOperand_run (state : State) :
    missingOperand state = .ok (.missing state.current.position)
      (state.record ⟨.missingOperand state.current.toLexeme, state.current.position⟩) := rfl

/-- The run of the rule for a placeholder. -/
theorem placeholder_run (state : State) :
    placeholder state = .ok (.missing state.current.position)
      (let recorded :=
        state.record ⟨.missingOperand state.current.toLexeme, state.current.position⟩
      if state.current.kind.endsExpression then recorded.stepBack else recorded) := by
  unfold placeholder
  rw [Rule.bind_ok (missingOperand_run state), Rule.bind_ok (Rule.current_run _)]
  change (if state.current.kind.endsExpression = true then _ else _ : Rule Expr) _ = _
  split <;> rfl

/-- One state lies a token before another, which the parser has just stepped to. -/
structure State.WentBack (before after : State) : Prop where
  /-- The token before the start is the current one again. -/
  undone : before.previous = some after.current
  /-- The tokens behind it are those of the start. -/
  behind : ∀ index, after.token (index + 1) = before.token index

/-- A step that is undone leads nowhere. -/
theorem State.WentBack.reaches {state after : State} (back : WentBack state.advance after) :
    State.Reaches state after := by
  refine ⟨0, fun index => ?_⟩
  match index with
  | 0 =>
    have same := back.undone
    rw [advance_previous] at same
    exact (Option.some.inj same).symm
  | index + 1 => rw [back.behind, advance_token]

/-- A placeholder leaves its token in place, or leaves it to the construct it closes. -/
theorem placeholder_after (state : State) :
    State.Reaches state (placeholder.after state) ∨
      State.WentBack state (placeholder.after state) := by
  rw [Rule.after_ok (placeholder_run state)]
  dsimp only
  split
  · cases known : state.previous with
    | none =>
      left
      rw [State.stepBack_none (by exact known)]
      exact ⟨0, fun index => by simp⟩
    | some before =>
      right
      have back := State.stepBack_token
        (state.record ⟨.missingOperand state.current.toLexeme, state.current.position⟩) known
      exact ⟨by rw [known]; exact congrArg some back.1.symm, fun index => by rw [back.2]; simp⟩
  · exact .inl ⟨0, fun index => by simp⟩

/-- A placeholder records its token. -/
theorem placeholder_diagnostics (state : State) :
    (placeholder.after state).diagnostics = state.diagnostics.push
      ⟨.missingOperand state.current.toLexeme, state.current.position⟩ := by
  rw [Rule.after_ok (placeholder_run state)]
  dsimp only
  split
  · exact State.stepBack_diagnostics _
  · rfl

/-- Behind a step a placeholder leaves the window where it is, or undoes the step. -/
theorem placeholder_window {state moved : State}
    (window : ∀ index, moved.token index = state.token (index + 1))
    (known : moved.previous = some state.current) :
    (∀ index, (placeholder.after moved).token index = moved.token index) ∨
      ∀ index, (placeholder.after moved).token index = state.token index := by
  rw [Rule.after_ok (placeholder_run moved)]
  dsimp only
  split
  · have back := State.stepBack_token (moved.record
      ⟨.missingOperand moved.current.toLexeme, moved.current.position⟩) known
    right
    intro index
    match index with
    | 0 => exact back.1
    | index + 1 => rw [back.2, State.token_record, window]
  · exact .inl fun index => moved.token_record _ index

/-! ## Expressions and blocks -/

variable {inner : Inner}

/-- What an expression does behind its operand. -/
def operators (inner : Inner) (above : Precedence) (left : Expr) : Rule Expr :=
  Rule.repeatWhile (bindsTighter above) (fun left => do
    _ ← Rule.advance
    extend inner left) left

/-- An expression at an operand is the operand with the operators behind it. -/
theorem expressionBody_operand (above : Precedence) {state : State} {operand : Rule Expr}
    (found : operand? inner state.current.kind = some operand) :
    expressionBody inner above state = (operand >>= operators inner above) state := by
  unfold expressionBody
  rw [Rule.bind_ok (Rule.current_run state), found]
  rfl

/-- An expression at no operand is a placeholder. -/
theorem expressionBody_placeholder (above : Precedence) {state : State}
    (absent : operand? inner state.current.kind = none) :
    expressionBody inner above state = placeholder state := by
  unfold expressionBody
  rw [Rule.bind_ok (Rule.current_run state), absent]

/-- Operators lead forward. -/
theorem operators_forward (inside : inner.Holds Rule.Forward) (above : Precedence) (left : Expr) :
    (operators inner above left).Forward :=
  Rule.forward_closed.repeatWhile_holds
    (fun _ => Rule.forward_closed.sequence Rule.forward_closed.advance fun _ =>
      Rule.forward_closed.extend_holds inside _) left

/-- At an operand an expression leads forward. -/
theorem expressionBody_reaches (inside : inner.Holds Rule.Forward) (above : Precedence)
    {state : State} (found : (operand? inner state.current.kind).isSome) :
    State.Reaches state ((expressionBody inner above).after state) := by
  obtain ⟨operand, found⟩ := Option.isSome_iff_exists.mp found
  have forward := Rule.forward_closed.sequence
    (Rule.forward_closed.operand_holds inside found) (operators_forward inside above)
  rw [Rule.after_congr (expressionBody_operand above found)]
  exact forward state

/-- An expression leads forward, or goes back by one token where its operand is missing. -/
theorem expressionBody_after (inside : inner.Holds Rule.Forward) (above : Precedence)
    (state : State) :
    State.Reaches state ((expressionBody inner above).after state) ∨
      State.WentBack state ((expressionBody inner above).after state) := by
  cases found : operand? inner state.current.kind with
  | some operand => exact .inl (expressionBody_reaches inside above (by simp [found]))
  | none =>
    rw [Rule.after_congr (expressionBody_placeholder above found)]
    exact placeholder_after state

/-- A nonterminal without room stays where it is. -/
theorem derive_zero_forward {α : Type} (target : Nonterminal α) :
    ((Inner.ofRoom 0).derive target).Forward := by
  intro state
  rw [derive_zero]
  exact Rule.inside_reaches ⟨0, fun index => state.token_counters _ _ index⟩

/-- The constructs inside lead forward where blocks do and expressions go back by one token at
the most, which they do at no operand. -/
theorem inner_forward
    (expression : ∀ above state,
      State.Reaches state ((inner.derive (.expression above)).after state) ∨
        State.WentBack state ((inner.derive (.expression above)).after state))
    (operand : ∀ above state, (operand? inner state.current.kind).isSome →
      State.Reaches state ((inner.derive (.expression above)).after state))
    (block : inner.block.Forward) : inner.Holds Rule.Forward where
  operand above state := by
    rw [Rule.after_bind, Rule.advance_run]
    rcases expression above state.advance with ⟨count, passed⟩ | back
    · exact ⟨1 + count, (State.Passes.advance state).trans passed⟩
    · exact back.reaches
  leading state := by
    rw [Rule.after_bind, Rule.current_run]
    unfold leading
    dsimp only
    split
    · rename_i found
      exact operand _ state found
    · exact Rule.forward_closed.missingOperand_holds state
  block := block

/-- Whether a token begins an operand does not depend on the rules inside. -/
theorem operand?_isSome (left right : Inner) (kind : Kind) :
    (operand? left kind).isSome = (operand? right kind).isSome := by
  cases kind <;> rfl

/-- The parts of a construct lead forward, however many constructs may still be opened. -/
theorem ofRoom_forward : ∀ room : Nat, (Inner.ofRoom room).Holds Rule.Forward
  | 0 => inner_forward (fun above state => .inl (derive_zero_forward _ state))
      (fun above state _ => derive_zero_forward _ state) (derive_zero_forward _)
  | room + 1 => by
    have inside := ofRoom_forward room
    refine inner_forward (fun above state => ?_) (fun above state found => ?_) ?_
    · rw [derive_expression]
      rcases expressionBody_after inside above
        { state with depth := state.depth + 0, nesting := state.nesting + 1 } with reached | back
      · exact .inl (Rule.inside_reaches reached)
      · right
        refine ⟨?_, fun index => ?_⟩
        · rw [Rule.after_inside]
          exact back.undone
        · rw [Rule.after_inside]
          simp only [State.token_counters]
          exact (back.behind index).trans (state.token_counters _ _ index)
    · rw [derive_expression]
      exact Rule.inside_reaches (expressionBody_reaches inside above
        (by rwa [operand?_isSome _ (Inner.ofRoom (room + 1))]))
    · unfold Inner.block
      rw [derive_block]
      exact (Rule.forward_closed.blockBody_holds inside).inside

end ExprLang.Parser
