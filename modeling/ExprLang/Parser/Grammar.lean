import ExprLang.Parser.Statement

/-!
# The grammar as a whole

`Nonterminal.derive` ties the rules together. Its argument is the number of expressions and
blocks that may still be opened, so the limit of nesting is also what ends the recursion: a
nonterminal with no room left is a fault.
-/

namespace ExprLang.Parser

/-- The rule of a nonterminal, over the rules for what lies in it. -/
def Nonterminal.body (inner : Inner) : {α : Type} → Nonterminal α → Rule α
  | _, .expression above => expressionBody inner above
  | _, .block => blockBody inner

/-- The rule of a nonterminal where so many expressions and blocks may still be opened. -/
def Nonterminal.derive : (room : Nat) → {α : Type} → Nonterminal α → Rule α
  | 0, _, target => Rule.inside target.blocks do throw ⟨target.overflow, (← Rule.current).position⟩
  | room + 1, _, target => Rule.inside target.blocks (target.body ⟨Nonterminal.derive room⟩)

/-- A rule over what lies in it, with as much room as the state has. -/
def withRoom {α : Type} (rule : Inner → Rule α) : Rule α := do
  rule ⟨Nonterminal.derive (← get).room⟩

end ExprLang.Parser
