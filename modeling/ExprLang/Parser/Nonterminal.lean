import ExprLang.Parser.State
import ExprLang.Tree.Basic

/-!
# Nonterminals

Two nonterminals lead to all constructs that contain each other: expressions, read by
precedence, and blocks. A rule for a construct that contains one of them is written over the
rules `Inner` for what it contains, so that each rule is a plain definition without
recursion.
-/

namespace ExprLang.Parser

/-- The nonterminals that may contain each other, with what they stand for. -/
inductive Nonterminal : Type → Type where
  /-- An expression whose operators bind tighter than a level. -/
  | expression (above : Precedence) : Nonterminal Expr
  /-- Statements between braces. -/
  | block : Nonterminal (List Stmt)

/-- What is wrong when a nonterminal lies too deep. -/
def Nonterminal.overflow {α : Type} : Nonterminal α → Cause
  | .expression _ => .deepExpression
  | .block => .deepBlock

/-- How many blocks a nonterminal opens. -/
def Nonterminal.blocks {α : Type} : Nonterminal α → Int
  | .expression _ => 0
  | .block => 1

/-- The rules for what lies one level deeper. -/
structure Inner where
  /-- The rule of a nonterminal. -/
  derive : {α : Type} → Nonterminal α → Rule α

namespace Inner

/-- A whole expression. -/
def expression (inner : Inner) : Rule Expr := inner.derive (.expression .lowest)

/-- A block. -/
def block (inner : Inner) : Rule (List Stmt) := inner.derive .block

end Inner

end ExprLang.Parser
