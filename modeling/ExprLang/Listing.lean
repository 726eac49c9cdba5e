import ExprLang.Parser.Source

/-!
# Listings

A listing is what the user sees of a source text, one token or statement a line. What breaks down
on the way to it is left to those who list it.
-/

namespace ExprLang

/-- Lines of text, each with its line break. -/
def unlines (lines : List String) : String := String.join (lines.map (· ++ "\n"))

/-- A text for the user, and the events on the way to it. -/
structure Listing where
  /-- The text, with a line break at its end unless it is empty. -/
  text : String
  /-- The events, in order. -/
  events : List Event

namespace Listing

/-- The event of a token, if it is one. -/
def illegal? (token : Token) : Option Event :=
  if token.kind = .illegal then some (.illegalCharacter token) else none

/-- One token a line, line breaks and the end of input included. -/
def ofTokens (source : String) : Listing :=
  let tokens := (Scanner.ofText source true).drain.1.toList
  ⟨unlines (tokens.map (·.shown)), tokens.filterMap illegal?⟩

end Listing

/-- The line of a statement with its text: its class stands before it. -/
def Stmt.listed (statement : Stmt) (text : String) : String :=
  "[" ++ statement.className ++ "] >>> " ++ text

end ExprLang
