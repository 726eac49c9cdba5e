import ExprLang.Proofs.Reading.View

/-!
# What lies behind a value

A rule that ends with a value has found the tokens it asks for and the constructs it consists of.
This module states for each rule which these are and in which states they begin and end
(`parameter_eq_ok` to `inside_eq_ok`), so that a property of runs with a value is proved from their
parts and does not open the rules again. The loops stay whole: what holds behind each of their
turns is for the property to say.
-/

namespace ExprLang.Parser

open Rule (bind_eq_ok bind_pure_eq_ok current_bind advance_bind expect_bind_eq_ok
  accept_bind_eq_ok pure_eq_ok)

variable {inner : Inner} {state last : State}

/-! ## Parameters -/

/-- The run of a parameter. -/
theorem parameter_eq_ok {name : Ident} :
    parameter state = .ok name last ↔ state.peek.kind = .identifier ∧
      (⟨state.peek.text, state.peek.position⟩ : Ident) = name ∧ state.advance = last := by
  unfold parameter
  rw [expect_bind_eq_ok, pure_eq_ok]

/-- The run of a turn over the parameters. -/
theorem parameterTurn_eq_ok {names next : Array Ident} :
    parameterTurn names state = .ok next last ↔
      ∃ name, parameter state.advance = .ok name last ∧ names.push name = next := by
  unfold parameterTurn
  rw [advance_bind, bind_pure_eq_ok]

/-- The run over parameters: there is none, or the others follow the first. -/
theorem parameters_eq_ok {names : List Ident} :
    parameters state = .ok names last ↔
      (state.peek.kind = .rightParen ∧ [] = names ∧ state.advance = last) ∨
      (state.peek.kind ≠ .rightParen ∧ ∃ first second, parameter state = .ok first second ∧
        ∃ found third, Rule.repeatWhile commaFollows parameterTurn #[first] second =
          .ok found third ∧ third.peek.kind = .rightParen ∧ found.toList = names ∧
          third.advance = last) := by
  unfold parameters
  rw [accept_bind_eq_ok, if_pos rfl, if_neg Bool.false_ne_true, pure_eq_ok, bind_eq_ok]
  refine or_congr_right (and_congr_right fun _ => exists_congr fun first =>
    exists_congr fun second => and_congr_right fun _ => ?_)
  rw [bind_eq_ok]
  simp only [expect_bind_eq_ok, pure_eq_ok]
  rfl

/-! ## Operands -/

/-- The run of a name. -/
theorem name_eq_ok {value : Expr} :
    name state = .ok value last ↔
      Expr.name ⟨state.current.text, state.current.position⟩ = value ∧ state = last := by
  unfold name
  rw [current_bind, pure_eq_ok]

/-- The run of an integer, which has to be readable. -/
theorem integer_eq_ok {value : Expr} :
    integer state = .ok value last ↔ ∃ number, readInteger? state.current.text = some number ∧
      Expr.integer number state.current.position = value ∧ state = last := by
  unfold integer
  rw [current_bind]
  cases readInteger? state.current.text with
  | none => exact ⟨fun ran => (nomatch ran), fun ⟨_, absent, _⟩ => (nomatch absent)⟩
  | some number =>
    dsimp only
    rw [pure_eq_ok]
    exact ⟨fun ended => ⟨number, rfl, ended⟩, fun ⟨_, same, ended⟩ => Option.some.inj same ▸ ended⟩

/-- The run of a truth value. -/
theorem boolean_eq_ok {value : Expr} :
    boolean state = .ok value last ↔
      Expr.boolean (state.current.kind = .trueWord) state.current.position = value ∧
        state = last := by
  unfold boolean
  rw [current_bind, pure_eq_ok]

/-- The run of an operator before its operand. -/
theorem unary_eq_ok {value : Expr} :
    unary inner state = .ok value last ↔
      ∃ operand, inner.derive (.expression .unary) state.advance = .ok operand last ∧
        Expr.unary state.current.text operand state.current.position = value := by
  unfold unary
  rw [current_bind, advance_bind, bind_pure_eq_ok]

/-- The run of an expression in parentheses. -/
theorem grouped_eq_ok {value : Expr} :
    grouped inner state = .ok value last ↔
      ∃ middle, inner.expression state.advance = .ok value middle ∧
        middle.peek.kind = .rightParen ∧ middle.advance = last := by
  unfold grouped
  rw [advance_bind, bind_eq_ok]
  simp only [expect_bind_eq_ok, pure_eq_ok]
  constructor
  · rintro ⟨found, middle, ran, closing, rfl, ended⟩
    exact ⟨middle, ran, closing, ended⟩
  · rintro ⟨middle, ran, closing, ended⟩
    exact ⟨value, middle, ran, closing, rfl, ended⟩

/-- The run of a function literal. -/
theorem function_eq_ok {value : Expr} :
    function inner state = .ok value last ↔ state.peek.kind = .leftParen ∧
      ∃ names middle, parameters state.advance = .ok names middle ∧
        middle.peek.kind = .leftBrace ∧ ∃ body, inner.block middle.advance = .ok body last ∧
          Expr.function names body state.current.position = value := by
  unfold function
  rw [current_bind, expect_bind_eq_ok, bind_eq_ok]
  simp only [expect_bind_eq_ok, bind_pure_eq_ok]

/-! ## Operators and calls -/

/-- The run of a turn over the arguments. -/
theorem argumentTurn_eq_ok {values next : Array Expr} :
    argumentTurn inner values state = .ok next last ↔
      ∃ value, inner.expression state.advance.advance = .ok value last ∧
        values.push value = next := by
  unfold argumentTurn
  rw [advance_bind, advance_bind, bind_pure_eq_ok]

/-- The run over arguments: there is none, or the others follow the first. -/
theorem arguments_eq_ok {values : List Expr} :
    arguments inner state = .ok values last ↔
      (state.peek.kind = .rightParen ∧ [] = values ∧ state.advance = last) ∨
      (state.peek.kind ≠ .rightParen ∧ ∃ first second,
        inner.expression state.advance = .ok first second ∧
        ∃ found third, Rule.repeatWhile commaFollows (argumentTurn inner) #[first] second =
          .ok found third ∧ third.peek.kind = .rightParen ∧ found.toList = values ∧
          third.advance = last) := by
  unfold arguments
  rw [accept_bind_eq_ok, if_pos rfl, if_neg Bool.false_ne_true, pure_eq_ok, advance_bind,
    bind_eq_ok]
  refine or_congr_right (and_congr_right fun _ => exists_congr fun first =>
    exists_congr fun second => and_congr_right fun _ => ?_)
  rw [bind_eq_ok]
  simp only [expect_bind_eq_ok, pure_eq_ok]
  rfl

/-- The run of an operator or a call behind an expression. -/
theorem extend_eq_ok {left value : Expr} :
    extend inner left state = .ok value last ↔
      (state.current.kind = .leftParen ∧ ∃ values, arguments inner state = .ok values last ∧
        Expr.call left values state.current.position = value) ∨
      (state.current.kind ≠ .leftParen ∧ ∃ right,
        inner.derive (.expression (.ofKind state.current.kind)) state.advance = .ok right last ∧
        Expr.binary state.current.text left right state.current.position = value) := by
  unfold extend
  rw [current_bind]
  by_cases paren : state.current.kind = .leftParen
  · rw [if_pos paren]
    unfold call
    rw [current_bind, bind_pure_eq_ok]
    simp [paren]
  · rw [if_neg paren]
    unfold binary
    rw [current_bind, advance_bind, bind_pure_eq_ok]
    simp [paren]

/-- The run of a turn over the operators. -/
theorem operatorTurn_run (left : Expr) :
    operatorTurn inner left state = extend inner left state.advance := rfl

/-! ## Statements -/

/-- The run of a binding. -/
theorem binding_eq_ok {value : Stmt} :
    binding inner state = .ok value last ↔ state.peek.kind = .identifier ∧
      state.advance.peek.kind = .assign ∧
      ∃ found middle, inner.expression state.advance.advance.advance = .ok found middle ∧
        middle.peek.kind = .semicolon ∧
        Stmt.binding ⟨state.peek.text, state.peek.position⟩ found state.current.position = value ∧
        middle.advance = last := by
  unfold binding
  rw [current_bind, expect_bind_eq_ok, expect_bind_eq_ok, advance_bind, bind_eq_ok]
  simp only [expect_bind_eq_ok, pure_eq_ok]

/-- The run of the end of a function, with or without a value. -/
theorem result_eq_ok {value : Stmt} :
    result inner state = .ok value last ↔
      (state.peek.kind = .semicolon ∧ Stmt.result none state.current.position = value ∧
        state.advance = last) ∨
      (state.peek.kind ≠ .semicolon ∧
        ∃ found middle, inner.expression state.advance = .ok found middle ∧
          middle.peek.kind = .semicolon ∧
          Stmt.result (some found) state.current.position = value ∧ middle.advance = last) := by
  unfold result
  rw [current_bind, accept_bind_eq_ok, if_pos rfl, if_neg Bool.false_ne_true, pure_eq_ok,
    advance_bind, bind_eq_ok]
  simp only [expect_bind_eq_ok, pure_eq_ok]

/-- The run of the expression of a statement: an expression, or the remark that there is none. -/
theorem leading_eq_ok {kind : Kind} {value : Expr} :
    leading inner kind state = .ok value last ↔
      (kind.startsOperand = true ∧ inner.expression state = .ok value last) ∨
      (kind.startsOperand ≠ true ∧ .missing state.current.position = value ∧
        state.record ⟨.missingOperand state.current.toLexeme, state.current.position⟩ = last) := by
  unfold leading
  rw [operand?_isSome_eq]
  by_cases begins : kind.startsOperand = true
  · simp [begins]
  · rw [if_neg begins, missingOperand_run]
    simp [begins]

/-- The run of an expression on its own, with or without a semicolon. -/
theorem expressionStatement_eq_ok {value : Stmt} :
    expressionStatement inner state = .ok value last ↔
      ∃ found middle, leading inner state.current.kind state = .ok found middle ∧
        Stmt.expression found state.current.position = value ∧
        ((middle.peek.kind = .semicolon ∧ middle.advance = last) ∨
          (middle.peek.kind ≠ .semicolon ∧ middle = last)) := by
  unfold expressionStatement
  rw [current_bind, bind_eq_ok]
  refine exists_congr fun found => exists_congr fun middle => and_congr_right fun _ => ?_
  rw [accept_bind_eq_ok, pure_eq_ok, pure_eq_ok, and_or_left, and_left_comm,
    and_left_comm (a := middle.peek.kind ≠ .semicolon)]

/-- The run of a condition with one or two branches. -/
theorem condition_eq_ok {value : Stmt} :
    condition inner state = .ok value last ↔ state.peek.kind = .leftParen ∧
      ∃ test second, inner.expression state.advance.advance = .ok test second ∧
        second.peek.kind = .rightParen ∧ second.advance.peek.kind = .leftBrace ∧
        ∃ consequence third, inner.block second.advance.advance = .ok consequence third ∧
          ((third.peek.kind = .elseWord ∧ third.advance.peek.kind = .leftBrace ∧
            ∃ alternative, inner.block third.advance.advance = .ok alternative last ∧
              Stmt.condition test consequence (some alternative) state.current.position = value) ∨
          (third.peek.kind ≠ .elseWord ∧
            Stmt.condition test consequence none state.current.position = value ∧
            third = last)) := by
  unfold condition
  rw [current_bind, expect_bind_eq_ok, advance_bind, bind_eq_ok]
  refine and_congr_right fun _ => exists_congr fun test => exists_congr fun second =>
    and_congr_right fun _ => ?_
  rw [expect_bind_eq_ok, expect_bind_eq_ok, bind_eq_ok]
  refine and_congr_right fun _ => and_congr_right fun _ => exists_congr fun consequence =>
    exists_congr fun third => and_congr_right fun _ => ?_
  rw [accept_bind_eq_ok, if_pos rfl, if_neg Bool.false_ne_true, expect_bind_eq_ok,
    bind_pure_eq_ok, pure_eq_ok]

/-- The run of a statement and the step behind it. -/
theorem nextStatement_eq_ok {statements next : Array Stmt} :
    nextStatement inner statements state = .ok next last ↔
      ∃ read middle, statement inner state = .ok read middle ∧
        statements ++ read.toArray = next ∧ middle.advance = last := by
  unfold nextStatement
  rw [bind_eq_ok]
  simp only [advance_bind, pure_eq_ok]

/-- The run over the statements between braces. -/
theorem blockBody_eq_ok {body : List Stmt} :
    blockBody inner state = .ok body last ↔
      ∃ found, Rule.repeatWhile (currentIsNot .rightBrace) (nextInBlock inner) #[] state.advance =
        .ok found last ∧ found.toList = body := by
  unfold blockBody
  rw [advance_bind, bind_pure_eq_ok]

/-! ## Constructs -/

/-- A run inside a construct, with the counters of the construct. -/
theorem inside_eq_ok {α : Type} {blocks : Int} {rule : Rule α} {state last : State} {value : α}
    (ran : Rule.inside blocks rule state = .ok value last) :
    ∃ final, rule { state with depth := state.depth + blocks, nesting := state.nesting + 1 } =
        .ok value final ∧
      last = { final with depth := final.depth - blocks, nesting := final.nesting - 1 } := by
  unfold Rule.inside at ran
  dsimp only at ran
  split at ran
  · rename_i found final inside
    obtain ⟨rfl, rfl⟩ := EStateM.Result.ok.inj ran
    exact ⟨final, inside, rfl⟩
  · exact nomatch ran

/-- A fault of a construct is one of the rule inside of it. -/
theorem inside_eq_error {α : Type} {blocks : Int} {rule : Rule α} {state last : State}
    {fault : Diagnostic} (ran : Rule.inside blocks rule state = .error fault last) :
    ∃ final, rule { state with depth := state.depth + blocks, nesting := state.nesting + 1 } =
      .error fault final := by
  unfold Rule.inside at ran
  dsimp only at ran
  split at ran
  · exact nomatch ran
  · rename_i found final inside
    obtain ⟨rfl, -⟩ := EStateM.Result.error.inj ran
    exact ⟨final, inside⟩

/-- Without room nothing ends with a value. -/
theorem derive_zero_fails {α : Type} {target : Nonterminal α} {state last : State} {value : α} :
    (Inner.ofRoom 0).derive target state ≠ .ok value last := by
  intro ran
  rw [derive_zero] at ran
  obtain ⟨_, inside, -⟩ := inside_eq_ok ran
  cases inside

end ExprLang.Parser
