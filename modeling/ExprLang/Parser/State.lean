import ExprLang.Event
import ExprLang.Precedence
import ExprLang.Scanner

/-!
# Parser state

A parser looks at the current token and the one after it. It can go back by one token, and
only once before it goes on. The state also counts how deep the current token lies inside
other constructs, and collects diagnostics and events in the order in which they arise.

A `Rule` is a step of parsing. It ends with a value or with a fault, and the state it leaves
holds in both cases: a fault does not undo what was read.
-/

namespace ExprLang.Parser

/-- How deep expressions and blocks may lie inside each other. -/
def maxNesting : Nat := 100

/-- The state of a parser. -/
structure State where
  /-- The tokens not taken yet, line breaks included. -/
  stream : TokenStream
  /-- The token under examination. -/
  current : Token
  /-- The token after the current one. -/
  peek : Token
  /-- The token before the current one, if the parser can go back to it. -/
  previous : Option Token
  /-- Tokens put back before the stream, the next one first. -/
  putBack : List Token
  /-- The number of blocks around the current token. -/
  depth : Int
  /-- The number of expressions and blocks around the current token. -/
  nesting : Int
  /-- The diagnostics, in order. -/
  diagnostics : Array Diagnostic
  /-- The events, in order. -/
  events : Array Event
deriving Repr

/-- A step of parsing. -/
abbrev Rule := EStateM Diagnostic State

namespace State

/-- Note an event. -/
def note (state : State) (event : Event) : State :=
  { state with events := state.events.push event }

/-- Take the next token, from those put back first. An illegal token is an event. -/
def pull (state : State) : Token × State :=
  match state.putBack with
  | token :: rest => (token, { state with putBack := rest })
  | [] =>
    let (token, stream) := state.stream.take
    let state := { state with stream }
    (token, if token.kind = .illegal then state.note (.illegalCharacter token) else state)

/-- Make the next token the current one. -/
def advance (state : State) : State :=
  let (token, behind) := state.pull
  { behind with previous := some behind.current, current := behind.peek, peek := token }

/-- Undo the last `advance`, unless it has been undone already. -/
def stepBack (state : State) : State :=
  match state.previous with
  | none => state
  | some token =>
    { state with
      putBack := state.peek :: state.putBack
      peek := state.current
      current := token
      previous := none }

/-- The state before any token of a stream is taken. -/
def blank (stream : TokenStream) : State :=
  { stream, current := stream.ending, peek := stream.ending, previous := none, putBack := []
    depth := 0, nesting := 0, diagnostics := #[], events := #[] }

/-- The state at the start of a stream, with its first two tokens in view. -/
def ofStream (stream : TokenStream) : State :=
  let (current, state) := (blank stream).pull
  let (peek, state) := state.pull
  { state with current, peek }

/-- The state at the start of a source text. -/
def ofText (source : String) : State := ofStream (Scanner.ofText source true).drain.1

/-- The state at the start of a source text, which is not to be empty. -/
def ofSource (source : String) : Except Failure State :=
  return ofStream (← Scanner.start source true).drain.1

/-- Record a diagnostic, which is an event too. -/
def record (state : State) (diagnostic : Diagnostic) : State :=
  { state with
    diagnostics := state.diagnostics.push diagnostic
    events := state.events.push (.diagnostic diagnostic) }

/-- How many expressions and blocks may still be opened around the current token. -/
def room (state : State) : Nat := (maxNesting - state.nesting).toNat

/-- The tokens from the current one to the end of the source, line breaks not yet passed
included. -/
def ahead (state : State) : List Token :=
  state.current :: state.peek :: (state.putBack ++ state.stream.upcoming)

end State

namespace Rule

/-- The current token. -/
def current : Rule Token := return (← get).current

/-- Make the next token the current one, and return it. -/
def advance : Rule Token := do
  modify State.advance
  current

/-- Undo the last `advance`. -/
def stepBack : Rule Unit := modify State.stepBack

/-- Record a diagnostic. -/
def record (diagnostic : Diagnostic) : Rule Unit := modify (·.record diagnostic)

/-- Note an event. -/
def note (event : Event) : Rule Unit := modify (·.note event)

/-- Advance if the next token is of a kind, and say whether it is. -/
def accept (kind : Kind) : Rule Bool := do
  if (← get).peek.kind = kind then
    _ ← advance
    return true
  else return false

/-- Advance to a token of a kind. Any other token is a fault, and stays where it is. -/
def expect (kind : Kind) (wanted : String) : Rule Token := do
  let found := (← get).peek
  if found.kind = kind then advance else throw ⟨.expected wanted found.toLexeme, found.position⟩

/-- A rule inside one more block or expression. The counters go back at the end, whether the
rule ends with a value or with a fault. -/
def inside (blocks : Int) {α : Type} (rule : Rule α) : Rule α := fun state =>
  let leave (state : State) : State :=
    { state with depth := state.depth - blocks, nesting := state.nesting - 1 }
  match rule { state with depth := state.depth + blocks, nesting := state.nesting + 1 } with
  | .ok value state => .ok value (leave state)
  | .error fault state => .error fault (leave state)

/-- Repeat a rule while the state calls for it, at most once for each token of a list. -/
def repeatAlong {α : Type} (continues : State → Bool) (turn : α → Rule α) :
    List Token → α → Rule α
  | [], value => return value
  | _ :: tokens, value => do
    if continues (← get) then repeatAlong continues turn tokens (← turn value) else return value

/-- Repeat a rule while the state calls for it. Every turn is to pass a token or to end in a
fault, so that one turn for each token ahead, and one more at the end, are enough. -/
def repeatWhile {α : Type} (continues : State → Bool) (turn : α → Rule α) (value : α) : Rule α := do
  let state ← get
  repeatAlong continues turn (state.current :: state.ahead) value

end Rule

end ExprLang.Parser
