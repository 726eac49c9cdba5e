import ExprLang.Json
import ExprLang.Tree.Basic

/-!
# Trees as JSON

Every node becomes an object with its kind first, then its parts, then its position. The
form loses nothing: an absent part is null, which an empty list is not. As with renderings, the
depth of a tree is not bounded here.
-/

namespace ExprLang

/-- An object for a node of a kind, with its parts between the kind and the position. -/
def Json.ofNode (kind : String) (parts : List (String × Json)) (position : Position) : Json :=
  .object (("kind", .text kind) :: parts ++
    [("line", .number position.line), ("col", .number position.column)])

/-- A name as JSON. -/
def Ident.toJson (ident : Ident) : Json :=
  .ofNode "identifier" [("name", .text ident.name)] ident.position

mutual

/-- An expression as JSON. -/
def Expr.toJson : Expr → Json
  | .name ident => ident.toJson
  | .integer value position => .ofNode "integer" [("value", .number value)] position
  | .boolean value position => .ofNode "boolean" [("value", .bool value)] position
  | .unary operator operand position =>
    .ofNode "prefix" [("operator", .text operator), ("operand", operand.toJson)] position
  | .binary operator left right position =>
    .ofNode "infix" [("operator", .text operator), ("left", left.toJson), ("right", right.toJson)]
      position
  | .call callee arguments position =>
    .ofNode "call" [("callee", callee.toJson), ("arguments", .list (Expr.toJsonAll arguments))]
      position
  | .function parameters body position =>
    .ofNode "function" [("parameters", .list (parameters.map Ident.toJson)),
      ("body", .list (Stmt.toJsonAll body))] position
  | .missing position => .ofNode "empty" [] position

/-- A list of expressions as JSON values. -/
def Expr.toJsonAll : List Expr → List Json
  | [] => []
  | value :: rest => value.toJson :: Expr.toJsonAll rest

/-- A statement as JSON. -/
def Stmt.toJson : Stmt → Json
  | .binding target value position =>
    .ofNode "let" [("identifier", target.toJson), ("expression", value.toJson)] position
  | .result none position => .ofNode "return" [("expression", .null)] position
  | .result (some value) position => .ofNode "return" [("expression", value.toJson)] position
  | .expression value position => .ofNode "expression" [("expression", value.toJson)] position
  | .condition test consequence none position =>
    .ofNode "if" [("condition", test.toJson), ("consequence", .list (Stmt.toJsonAll consequence)),
      ("alternative", .null)] position
  | .condition test consequence (some alternative) position =>
    .ofNode "if" [("condition", test.toJson), ("consequence", .list (Stmt.toJsonAll consequence)),
      ("alternative", .list (Stmt.toJsonAll alternative))] position

/-- A list of statements as JSON values. -/
def Stmt.toJsonAll : List Stmt → List Json
  | [] => []
  | statement :: rest => statement.toJson :: Stmt.toJsonAll rest

end

/-- A program as JSON. It has no position of its own. -/
def Program.toJson (program : Program) : Json :=
  .object [("kind", .text "program"), ("statements", .list (Stmt.toJsonAll program.statements))]

/-- The JSON text of a program. -/
def Program.jsonText (indent : Option Int) (program : Program) : String :=
  program.toJson.write indent

/-- A part of a tree as JSON. -/
def Node.toJson : Node → Json
  | .expression value => value.toJson
  | .statement value => value.toJson
  | .program value => value.toJson

end ExprLang
