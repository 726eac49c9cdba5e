import ExprLang.Tree.Basic

/-!
# Canonical source text

The rendering of a tree is source text again. Every operation stands in parentheses, so
that the text shows the structure; a missing expression leaves an empty place. Trees of every depth
have a rendering here, and integers of every length; `ExprLang.Host` tells which a machine has room
to write.
-/

namespace ExprLang

/-- The statements of a block between braces. -/
def renderBraced : List String → String
  | [] => "\x7b \x7d"
  | statements => "\x7b " ++ " ".intercalate statements ++ " \x7d"

mutual

/-- The canonical text of an expression. -/
def Expr.render : Expr → String
  | .name ident => ident.name
  | .integer value _ => toString value
  | .boolean value _ => if value then "true" else "false"
  | .unary operator operand _ => "(" ++ operator ++ operand.render ++ ")"
  | .binary operator left right _ =>
    "(" ++ left.render ++ " " ++ operator ++ " " ++ right.render ++ ")"
  | .call callee arguments _ =>
    callee.render ++ "(" ++ ", ".intercalate (Expr.renderAll arguments) ++ ")"
  | .function parameters body _ =>
    "fn(" ++ ", ".intercalate (parameters.map (·.name)) ++ ") " ++
      renderBraced (Stmt.renderAll body)
  | .missing _ => ""

/-- The canonical texts of a list of expressions. -/
def Expr.renderAll : List Expr → List String
  | [] => []
  | value :: rest => value.render :: Expr.renderAll rest

/-- The canonical text of a statement. -/
def Stmt.render : Stmt → String
  | .binding target value _ => "let " ++ target.name ++ " = " ++ value.render ++ ";"
  | .result none _ => "return;"
  | .result (some value) _ => "return " ++ value.render ++ ";"
  | .expression value _ => value.render
  | .condition test consequence none _ =>
    "if (" ++ test.render ++ ") " ++ renderBraced (Stmt.renderAll consequence)
  | .condition test consequence (some alternative) _ =>
    "if (" ++ test.render ++ ") " ++ renderBraced (Stmt.renderAll consequence) ++
      " else " ++ renderBraced (Stmt.renderAll alternative)

/-- The canonical texts of a list of statements. -/
def Stmt.renderAll : List Stmt → List String
  | [] => []
  | statement :: rest => statement.render :: Stmt.renderAll rest

end

/-- The canonical text of a program, one statement a line. -/
def Program.render (program : Program) : String :=
  "\n".intercalate (Stmt.renderAll program.statements)

/-- The canonical text of a part of a tree. -/
def Node.render : Node → String
  | .expression value => value.render
  | .statement value => value.render
  | .program value => value.render

end ExprLang
