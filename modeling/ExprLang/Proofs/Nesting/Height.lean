import ExprLang.Proofs.Building.Basic

/-!
# The height of a tree

The height of a tree is how many expressions and blocks lie inside each other in it. A parenthesis
leaves no trace in a tree, and a left operand lies no deeper than its operator: so the height can be
less than the room that was needed to read the tree, and it is never more (`Builds.height`).
-/

namespace ExprLang

mutual

/-- How many expressions and blocks lie inside each other in an expression, counted along its
operands on the right, its arguments and its body. -/
def Expr.height : Expr → Nat
  | .missing _ => 0
  | .name _ | .integer .. | .boolean .. => 1
  | .unary _ operand _ => 1 + operand.height
  | .binary _ left right _ => max left.height (1 + right.height)
  | .call callee arguments _ => max callee.height (1 + Expr.heightAll arguments)
  | .function _ body _ => 1 + (1 + Stmt.heightAll body)

/-- The greatest height of expressions. -/
def Expr.heightAll : List Expr → Nat
  | [] => 0
  | value :: rest => max value.height (Expr.heightAll rest)

/-- How many expressions and blocks lie inside each other in a statement. A block is one more than
the statements in it. -/
def Stmt.height : Stmt → Nat
  | .binding _ value _ | .result (some value) _ | .expression value _ => value.height
  | .result none _ => 0
  | .condition test consequence none _ => max test.height (1 + Stmt.heightAll consequence)
  | .condition test consequence (some alternative) _ =>
    max test.height (max (1 + Stmt.heightAll consequence) (1 + Stmt.heightAll alternative))

/-- The greatest height of statements. -/
def Stmt.heightAll : List Stmt → Nat
  | [] => 0
  | statement :: rest => max statement.height (Stmt.heightAll rest)

end

/-- The height of expressions and others behind them. -/
theorem Expr.heightAll_append (left right : List Expr) :
    Expr.heightAll (left ++ right) = max (Expr.heightAll left) (Expr.heightAll right) := by
  induction left with
  | nil => simp [Expr.heightAll]
  | cons value left ih => simp [Expr.heightAll, ih, Nat.max_assoc]

/-- The height of statements and others behind them. -/
theorem Stmt.heightAll_append (left right : List Stmt) :
    Stmt.heightAll (left ++ right) = max (Stmt.heightAll left) (Stmt.heightAll right) := by
  induction left with
  | nil => simp [Stmt.heightAll]
  | cons statement left ih => simp [Stmt.heightAll, ih, Nat.max_assoc]

/-- No statement is higher than all statements. -/
theorem Stmt.height_le_heightAll {statement : Stmt} {statements : List Stmt}
    (found : statement ∈ statements) : statement.height ≤ Stmt.heightAll statements := by
  induction statements with
  | nil => exact absurd found List.not_mem_nil
  | cons first rest ih =>
    simp only [Stmt.heightAll]
    rcases List.mem_cons.mp found with rfl | behind
    · exact Nat.le_max_left _ _
    · exact Nat.le_trans (ih behind) (Nat.le_max_right _ _)

namespace Parser

/-- The height of a part of a tree. -/
def Part.height : Part → Nat
  | .expression value => value.height
  | .arguments values => Expr.heightAll values
  | .block body => 1 + Stmt.heightAll body
  | .statement value => value.height
  | .statements values => Stmt.heightAll values

/-- What a run builds is not higher than the room that it has. -/
theorem Builds.height {room : Nat} {before after : State} {part : Part}
    (builds : Builds room before part after) : part.height ≤ room := by
  induction builds with
  | wider _ _ _ inside => exact inside
  | grouped _ inside => exact Nat.le_succ_of_le inside
  | binding _ _ _ inside | result _ _ inside | expression _ _ inside => exact inside
  | argument _ _ first second =>
    simp only [Part.height] at first second
    simp only [Part.height, Expr.heightAll_append, Expr.heightAll]
    omega
  | next _ _ first second =>
    simp only [Part.height] at first second
    simp only [Part.height, Stmt.heightAll_append, Stmt.heightAll]
    omega
  | _ =>
    simp only [Part.height, Expr.height, Expr.heightAll, Stmt.height, Stmt.heightAll] at *
    omega

/-- No statement of a program is higher than the limit of nesting. -/
theorem parse_height {source : String} (nonempty : source ≠ "") {parsed : Parsed}
    (ran : parse source = .ok parsed) {statement : Stmt}
    (found : statement ∈ parsed.program.statements) : statement.height ≤ maxNesting := by
  obtain ⟨last, builds, -⟩ := parse_builds nonempty ran
  exact Nat.le_trans (Stmt.height_le_heightAll found) builds.height

end Parser

end ExprLang
