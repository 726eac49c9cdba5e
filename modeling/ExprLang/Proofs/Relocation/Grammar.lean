import ExprLang.Proofs.Relocation.Rule

/-!
# The grammar over moved tokens

The walk through the grammar shows that all statements of a source are read alike over moved tokens
(`program_agree`). One rule is left open: the way to the next statement behind a fault compares
lines, so that each relocation has to answer for it.
-/

namespace ExprLang.Parser

open Movable (moved)

variable {relocation : Relocation} {α β ι : Type} [Movable α] [Movable β] [Movable ι]

open Rule (Natural)

/-! ## Behind a fault -/

/-- The way behind a fault does the same over moved tokens where skipping tokens does, with the
fault recorded. -/
theorem recover_natural_of (skips : ∀ state image, State.Mirrors relocation.move state image →
      state.diagnostics ≠ #[] → relocation.Agree (Rule.skipStatement state)
        (Rule.skipStatement image)) : Rule.Natural relocation recover where
  framed := framed_closed.recover_holds
  agree fault state image mirrors := by
    rw [Rule.recover_run, Rule.recover_run, mirrors.nesting]
    change relocation.Agree _ (if fault.cause.isDepth = true ∧ 0 < state.nesting then _ else _)
    split
    · exact .fault fault mirrors
    · exact skips _ _ (mirrors.record fault) (by simp [State.record])

/-! ## Expressions -/

section

/-- The placeholder of a missing operand. -/
theorem missingOperand_natural : Natural relocation fun _ : ι => missingOperand :=
  .sequence .current (.sequence (Natural.record.reindex _ fun _ => rfl) (.value fun _ => rfl))

/-- A parameter. -/
theorem parameter_natural : Natural relocation fun _ : ι => parameter :=
  .sequence (.expect _ _) (.value fun _ => rfl)

/-- The test for a comma. -/
theorem commaFollows_same (state image : State)
    (mirrors : State.Mirrors relocation.move state image) :
    commaFollows image = commaFollows state := by
  unfold commaFollows
  rw [mirrors.peek_kind]

/-- Appending to moved values gives the moved values. -/
theorem moved_push (move : Position → Position) (values : Array α) (value : α) :
    (moved move values).push (moved move value) = moved move (values.push value) :=
  (Array.map_push).symm

/-- No value is moved. -/
theorem moved_empty (move : Position → Position) : moved move (#[] : Array α) = #[] :=
  Array.map_empty

/-- Moving a single value. -/
theorem moved_single (move : Position → Position) (value : α) :
    #[moved move value] = moved move #[value] :=
  (List.map_toArray (f := moved move) (l := [value])).symm

/-- Moved values as a list. -/
theorem moved_toList (move : Position → Position) (values : Array α) :
    (moved move values).toList = moved move values.toList :=
  Array.toList_map

/-- Parameters between parentheses. -/
theorem parameters_natural : Natural relocation fun _ : ι => parameters := by
  have turns : Natural relocation parameterTurn :=
    .sequence .advance (.sequence parameter_natural (.value fun _ => moved_push _ _ _))
  have loop : Natural relocation fun names => Rule.repeatWhile commaFollows parameterTurn names :=
    .loop turns commaFollows_same fun names _ ended =>
      (loops_end (ofRoom_forward 0) ended).parameters names
  refine .sequence (.accept _) (.branch (fun _ => Iff.rfl) (.value fun _ => rfl) ?_)
  refine .sequence parameter_natural (.sequence ?_ ?_)
  · exact loop.reindex (fun pair : (ι × Bool) × Ident => #[pair.2]) fun _ => moved_single _ _
  · exact .sequence (.expect _ _) (.value fun _ => moved_toList _ _)

/-- The constructs inside do the same over moved tokens: a block, and an expression where the
grammar has one. -/
structure Inner.Natural (relocation : Relocation) (inner : Inner) : Prop where
  /-- An expression behind a step. -/
  operand : Rule.Natural relocation fun above => do
    _ ← Rule.advance
    inner.derive (.expression above)
  /-- The expression that a statement begins with. -/
  leading : Rule.Natural relocation fun _ : Unit => do
    let first ← Rule.current
    leading inner first.kind
  /-- A block. -/
  block : Rule.Natural relocation fun _ : Unit => inner.block

variable {inner : Inner} (inside : inner.Natural relocation)

include inside

/-- An expression behind a step, and what follows it. -/
theorem operandThen_natural {above : ι → Precedence} {next : ι → Expr → Rule β}
    (same : ∀ index, above (moved relocation.move index) = above index)
    (rest : Natural relocation fun pair : ι × Expr => next pair.1 pair.2) :
    Natural relocation fun index => (do
      _ ← Rule.advance
      let value ← inner.derive (.expression (above index))
      next index value : Rule β) := by
  have whole : Natural relocation fun index => (do
      _ ← Rule.advance
      inner.derive (.expression (above index))) >>= next index :=
    .sequence (inside.operand.reindex above same) rest
  simpa only [bind_assoc] using whole

/-- An operator before its operand. -/
theorem unary_natural : Natural relocation fun _ : ι => unary inner :=
  .sequence .current (operandThen_natural inside (fun _ => rfl) (.value fun _ => rfl))

/-- An operator behind its left operand. -/
theorem binary_natural : Natural relocation fun left => binary inner left :=
  .sequence .current (operandThen_natural inside (fun _ => rfl) (.value fun _ => rfl))

/-- An expression in parentheses. -/
theorem grouped_natural : Natural relocation fun _ : ι => grouped inner :=
  operandThen_natural inside (fun _ => rfl) (.sequence (.expect _ _) (.value fun _ => rfl))

/-- Arguments between parentheses. -/
theorem arguments_natural (forward : inner.Holds Rule.Forward) :
    Natural relocation fun _ : ι => arguments inner := by
  have turns : Natural relocation (argumentTurn inner) :=
    .sequence .advance
      (operandThen_natural inside (fun _ => rfl) (.value fun _ => moved_push _ _ _))
  have loop : Natural relocation fun values =>
      Rule.repeatWhile commaFollows (argumentTurn inner) values :=
    .loop turns commaFollows_same fun values _ ended => (loops_end forward ended).arguments values
  refine .sequence (.accept _) (.branch (fun _ => Iff.rfl) (.value fun _ => rfl) ?_)
  refine operandThen_natural inside (fun _ => rfl) (.sequence ?_ ?_)
  · exact loop.reindex (fun pair : (ι × Bool) × Expr => #[pair.2]) fun _ => moved_single _ _
  · exact .sequence (.expect _ _) (.value fun _ => moved_toList _ _)

/-- A call. -/
theorem call_natural (forward : inner.Holds Rule.Forward) :
    Natural relocation fun callee => call inner callee :=
  .sequence .current (.sequence (arguments_natural inside forward) (.value fun pair => by
    change Expr.call _ (pair.2.map _) _ = Expr.call _ (Expr.movedAll _ pair.2) _
    rw [Expr.movedAll_eq]
    rfl))

/-- An operator or a call behind an expression. -/
theorem extend_natural (forward : inner.Holds Rule.Forward) :
    Natural relocation fun left => extend inner left := by
  refine .sequence .current (.branch (fun _ => Iff.rfl) ?_ ?_)
  · exact (call_natural inside forward).reindex (fun pair : Expr × Token => pair.1) fun _ => rfl
  · exact (binary_natural inside).reindex (fun pair : Expr × Token => pair.1) fun _ => rfl

/-- A function literal. -/
theorem function_natural : Natural relocation fun _ : ι => function inner :=
  .sequence .current (.sequence (.expect _ _) (.sequence parameters_natural
    (.sequence (.expect _ _) (.sequence inside.block.constant (.value fun pair => by
      change Expr.function (pair.1.1.2.map _) (pair.2.map _) _ =
        Expr.function _ (Stmt.movedAll _ _) _
      rw [Stmt.movedAll_eq]
      rfl)))))

/-- An operand, whatever token it begins with. -/
theorem operand_natural {kind : Kind} {rule : Rule Expr} (found : operand? inner kind = some rule) :
    Natural relocation fun _ : Unit => rule := by
  unfold operand? at found
  split at found <;> cases found
  · exact .sequence .current (.value fun _ => rfl)
  · refine .sequence .current ⟨fun pair => ?_, fun pair state image mirrors => ?_⟩
    · split
      · exact framed_closed.value _
      · exact framed_closed.fault _
    · dsimp only [moved]
      cases readInteger? pair.2.text with
      | none => exact .fault _ mirrors
      | some value => exact .value _ mirrors
  · exact .sequence .current (.value fun _ => rfl)
  · exact .sequence .current (.value fun _ => rfl)
  · exact unary_natural inside
  · exact unary_natural inside
  · exact grouped_natural inside
  · exact function_natural inside

/-- The operators behind an operand. -/
theorem operators_natural (forward : inner.Holds Rule.Forward) (above : Precedence) :
    Natural relocation fun left => operators inner above left := by
  have turns : Natural relocation (operatorTurn inner) :=
    .sequence .advance ((extend_natural inside forward).reindex
      (fun pair : Expr × Token => pair.1) fun _ => rfl)
  refine .loop turns (fun state image mirrors => ?_) fun left _ ended =>
    (loops_end forward ended).operators above left
  unfold bindsTighter
  rw [mirrors.peek_kind]

/-- An expression does the same over moved tokens where it begins with an operand, or where the
parser can go back from its first token. -/
theorem expressionBody_agree (forward : inner.Holds Rule.Forward) (above : Precedence)
    {state image : State} (mirrors : State.Mirrors relocation.move state image)
    (ready : (operand? inner state.current.kind).isSome ∨ ∃ before,
      state.previous = some before ∧ image.previous = some (moved relocation.move before)) :
    relocation.Agree (expressionBody inner above state) (expressionBody inner above image) := by
  have same := mirrors.current_kind
  cases found : operand? inner state.current.kind with
  | some operand =>
    rw [expressionBody_operand above found, expressionBody_operand above (same ▸ found)]
    have whole : Natural relocation fun _ : Unit => operand >>= operators inner above :=
      .sequence (operand_natural inside found) ((operators_natural inside forward above).reindex
        (fun pair : Unit × Expr => pair.2) fun _ => rfl)
    exact whole.agree () state image mirrors
  | none =>
    rw [found] at ready
    obtain impossible | ⟨before, known, image_known⟩ := ready
    · cases impossible
    · rw [expressionBody_placeholder above found, expressionBody_placeholder above (same ▸ found),
        placeholder_run, placeholder_run, mirrors.current]
      have recorded := mirrors.record ⟨.missingOperand state.current.toLexeme,
        state.current.position⟩
      refine .value (Expr.missing state.current.position) ?_
      change State.Mirrors _ _ (if state.current.kind.endsExpression = true then _ else _)
      dsimp only
      split
      · exact recorded.stepBack known image_known
      · exact recorded

/-! ## Statements -/

/-- A binding. -/
theorem binding_natural : Natural relocation fun _ : ι => binding inner :=
  .sequence .current (.sequence (.expect _ _) (.sequence (.expect _ _)
    (operandThen_natural inside (fun _ => rfl) (.sequence (.expect _ _) (.value fun _ => rfl)))))

/-- The end of a function. -/
theorem result_natural : Natural relocation fun _ : ι => result inner := by
  refine .sequence .current (.sequence (.accept _) (.branch (fun _ => Iff.rfl) ?_ ?_))
  · exact .value fun _ => rfl
  · exact operandThen_natural inside (fun _ => rfl)
      (.sequence (.expect _ _) (.value fun _ => rfl))

/-- An expression on its own. -/
theorem expressionStatement_natural :
    Natural relocation fun _ : ι => expressionStatement inner := by
  rw [expressionStatement_eq]
  exact .sequence .current (.sequence inside.leading.constant
    (.sequence (.accept _) (.value fun _ => rfl)))

/-- A condition. -/
theorem condition_natural : Natural relocation fun _ : ι => condition inner := by
  refine .sequence .current (.sequence (.expect _ _) (operandThen_natural inside (fun _ => rfl)
    (.sequence (.expect _ _) (.sequence (.expect _ _) (.sequence inside.block.constant
      (.sequence (.accept _) (.branch (fun _ => Iff.rfl) ?_ ?_)))))))
  · refine .sequence (.expect _ _) (.sequence inside.block.constant (.value fun pair => ?_))
    change Stmt.condition _ (List.map _ _) (some (List.map _ _)) _ =
      Stmt.condition _ (Stmt.movedAll _ _) (some (Stmt.movedAll _ _)) _
    rw [Stmt.movedAll_eq, Stmt.movedAll_eq]
    rfl
  · refine .value fun pair => ?_
    change Stmt.condition _ (List.map _ _) none _ = Stmt.condition _ (Stmt.movedAll _ _) none _
    rw [Stmt.movedAll_eq]
    rfl

/-- A statement, whatever token it begins with. -/
theorem statementOfKind_natural : Natural relocation fun kind => statementOfKind inner kind := by
  refine .fixed (fun _ => rfl) fun kind => ?_
  unfold statementOfKind
  split
  · exact binding_natural inside
  · exact result_natural inside
  · exact condition_natural inside
  · exact expressionStatement_natural inside

variable (recovers : Natural relocation recover)

include recovers

/-- A statement with the remedy for its faults. -/
theorem statement_natural : Natural relocation fun _ : ι => statement inner := by
  refine .sequence .current (.sequence (.note _) (.attempt ?_ ?_))
  · simp only [map_eq_pure_bind]
    exact .sequence ((statementOfKind_natural inside).reindex
      (fun pair : (ι × Token) × Unit => pair.1.2.kind) fun _ => rfl) (.value fun _ => rfl)
  · exact recovers.reindex (fun pair : ((ι × Token) × Unit) × Diagnostic => pair.2) fun _ => rfl

/-- A statement behind others. -/
theorem nextStatement_natural : Natural relocation fun statements =>
    nextStatement inner statements := by
  refine .sequence (statement_natural inside recovers) (.sequence .advance (.value fun index => ?_))
  obtain ⟨⟨statements, read⟩, token⟩ := index
  cases read with
  | none => simp [Movable.moved]
  | some value => simp [Movable.moved]

/-- A statement behind others of a block. -/
theorem nextInBlock_natural : Natural relocation fun statements =>
    nextInBlock inner statements := by
  refine .sequence .current (.branch (fun _ => Iff.rfl) (.fault fun _ => rfl) ?_)
  exact (nextStatement_natural inside recovers).reindex
    (fun pair : Array Stmt × Token => pair.1) fun _ => rfl

/-- The statements of a block. -/
theorem blockBody_natural (forward : inner.Holds Rule.Forward) :
    Natural relocation fun _ : ι => blockBody inner := by
  have loop : Natural relocation fun statements =>
      Rule.repeatWhile (currentIsNot .rightBrace) (nextInBlock inner) statements := by
    refine .loop (nextInBlock_natural inside recovers) (fun state image mirrors => ?_)
      fun statements _ ended => (loops_end forward ended).block statements
    unfold currentIsNot
    rw [mirrors.current_kind]
  refine .sequence .advance (.sequence ?_ (.value fun _ => moved_toList _ _))
  exact loop.reindex (fun _ : ι × Token => #[]) fun _ => (moved_empty _).symm

end

section

variable (recovers : Rule.Natural relocation recover)

/-- A nonterminal without room is a fault. -/
theorem derive_zero_natural {γ : Type} [Movable γ] (target : Nonterminal γ) :
    Rule.Natural relocation fun _ : ι => (Inner.ofRoom 0).derive target := by
  rw [derive_zero]
  refine .inside (.sequence .current ?_) _
  exact .fault fun _ => rfl

include recovers

/-- Whatever room there is, the parts of a construct do the same over moved tokens. -/
theorem ofRoom_natural : ∀ room : Nat, (Inner.ofRoom room).Natural relocation
  | 0 => {
      operand := .fixed (fun _ => rfl) fun _ => .sequence .advance (derive_zero_natural _)
      leading := .sequence .current (.branch (fun _ => Iff.rfl) (derive_zero_natural _)
        missingOperand_natural)
      block := derive_zero_natural _ }
  | room + 1 => {
      operand := by
        refine .fixed (fun _ => rfl) fun above => ⟨fun _ => (ofRoom_framed _).operand above, ?_⟩
        intro _ state image mirrors
        have further := mirrors.advance
        rw [Rule.advance_bind, Rule.advance_bind, derive_expression]
        refine Rule.inside_agree further fun entered image_entered same image_same
          inner_mirrors => ?_
        refine expressionBody_agree (ofRoom_natural room) (ofRoom_forward room) above inner_mirrors
          (.inr ⟨state.current, ?_, ?_⟩)
        · rw [same]
          exact state.advance_previous
        · rw [image_same, ← mirrors.current]
          exact image.advance_previous
      leading := by
        refine ⟨fun _ => (ofRoom_framed _).leading, fun _ state image mirrors => ?_⟩
        rw [Rule.current_bind, Rule.current_bind, mirrors.current_kind]
        unfold leading
        split
        · rename_i begins
          rw [Inner.expression, derive_expression]
          refine Rule.inside_agree mirrors fun entered _ same _ inner_mirrors => ?_
          refine expressionBody_agree (ofRoom_natural room) (ofRoom_forward room) _ inner_mirrors
            (.inl ?_)
          rw [same, operand?_isSome _ (Inner.ofRoom (room + 1))]
          exact begins
        · exact missingOperand_natural.agree () state image mirrors
      block := by
        unfold Inner.block
        rw [derive_block]
        exact (blockBody_natural (ofRoom_natural room) recovers (ofRoom_forward room)).inside 1 }

/-- The loop over the statements of a source does the same over moved tokens. -/
theorem program_agree (room : Nat) {state image : State}
    (mirrors : State.Mirrors relocation.move state image) :
    relocation.Agree
      (Rule.repeatWhile (currentIsNot .endOfInput) (nextStatement (Inner.ofRoom room)) #[] state)
      (Rule.repeatWhile (currentIsNot .endOfInput) (nextStatement (Inner.ofRoom room)) #[]
        image) := by
  have loop : Rule.Natural relocation fun statements => Rule.repeatWhile
      (currentIsNot .endOfInput) (nextStatement (Inner.ofRoom room)) statements := by
    refine .loop (nextStatement_natural (ofRoom_natural recovers room) recovers)
      (fun state image mirrors => ?_) fun statements _ ended =>
        (loops_end (ofRoom_forward room) ended).program statements
    unfold currentIsNot
    rw [mirrors.current_kind]
  have agreed := loop.agree #[] state image mirrors
  rwa [moved_empty] at agreed

end

end ExprLang.Parser
