import ExprLang.Token

/-!
# Syntax trees

A program is a list of statements. Statements and expressions hold each other: a function
literal is an expression with a block of statements. Every node has the position of the
token that makes it what it is; a binary operation and a call stand at their operator.

An operator is kept as the text it was written with, so that a tree made by hand can have
any operator.
-/

namespace ExprLang

/-- A name at its place. -/
structure Ident where
  /-- The characters of the name. -/
  name : String
  /-- Where the name stands. -/
  position : Position
deriving DecidableEq, Repr, Inhabited

mutual

/-- Expressions. -/
inductive Expr where
  /-- The value bound to a name. -/
  | name (ident : Ident)
  /-- An integer literal. -/
  | integer (value : Int) (position : Position)
  /-- A truth value. -/
  | boolean (value : Bool) (position : Position)
  /-- An operator before its operand. -/
  | unary (operator : String) (operand : Expr) (position : Position)
  /-- An operator between its operands. -/
  | binary (operator : String) (left right : Expr) (position : Position)
  /-- A function applied to arguments. -/
  | call (callee : Expr) (arguments : List Expr) (position : Position)
  /-- A function literal. -/
  | function (parameters : List Ident) (body : List Stmt) (position : Position)
  /-- The place of an expression that the source lacks. -/
  | missing (position : Position)

/-- Statements. -/
inductive Stmt where
  /-- A binding of a name to a value. -/
  | binding (target : Ident) (value : Expr) (position : Position)
  /-- The end of a function, with or without a value. -/
  | result (value : Option Expr) (position : Position)
  /-- An expression on its own. -/
  | expression (value : Expr) (position : Position)
  /-- A condition with one or two branches. -/
  | condition (test : Expr) (consequence : List Stmt) (alternative : Option (List Stmt))
      (position : Position)

end

instance : Inhabited Expr := ⟨.missing default⟩

instance : Inhabited Stmt := ⟨.result none default⟩

/-- The name of a statement's class in listings. -/
def Stmt.className : Stmt → String
  | .binding .. => "LetStatement"
  | .result .. => "ReturnStatement"
  | .expression .. => "ExpressionStatement"
  | .condition .. => "IfStatement"

/-- The statements of one source text, in order. -/
structure Program where
  /-- The statements outside of every block. -/
  statements : List Stmt

/-- Any part of a tree that can be shown on its own. -/
inductive Node where
  /-- An expression. -/
  | expression (value : Expr)
  /-- A statement. -/
  | statement (value : Stmt)
  /-- A whole program. -/
  | program (value : Program)

end ExprLang
