import ExprLang.Parser.Grammar
import ExprLang.Tree.Json
import ExprLang.Tree.Render

/-!
# Parsing a source text

The result of parsing: a program, what is wrong with the source, and the events on the way.
-/

namespace ExprLang

/-- What parsing a source text gives. -/
structure Parsed where
  /-- The statements that were read. -/
  program : Program
  /-- What is wrong, in the order in which it was found. -/
  diagnostics : List Diagnostic
  /-- The events, in order. -/
  events : List Event

/-- Parse all that is left in a state. No fault leaves the outermost statement, where the
nesting is zero; in a state with a greater nesting, one that does is the last diagnostic. -/
def Parser.State.finish (state : Parser.State) : Parsed :=
  match Parser.withRoom Parser.program state with
  | .ok program state => ⟨program, state.diagnostics.toList, state.events.toList⟩
  | .error fault state =>
    let state := state.record fault
    ⟨⟨[]⟩, state.diagnostics.toList, state.events.toList⟩

/-- Parse a source text of any length. -/
def parseText (source : String) : Parsed := (Parser.State.ofText source).finish

/-- Parse a source text, which is not to be empty. -/
def parse (source : String) : Except Failure Parsed :=
  return (← Parser.State.ofSource source).finish

/-- A program parsed twice: from its source, and from the text that the first program is
rendered as. -/
structure Reparsed where
  /-- What the source gives. -/
  first : Parsed
  /-- What the rendering of the first program gives. -/
  second : Parsed

/-- Parse a source text, and parse the rendering of the result. -/
def reparse (source : String) : Except Failure Reparsed := do
  let first ← parse source
  return ⟨first, ← parse first.program.render⟩

end ExprLang
