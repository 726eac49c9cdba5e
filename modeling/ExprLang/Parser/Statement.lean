import ExprLang.Parser.Expression

/-!
# Rules for statements

A statement begins with a keyword or is an expression. A rule starts with the current token on
its first token and ends with it on its last. A fault inside a statement costs the statement,
not the parsing: the parser records it and goes on where the next statement can start.
-/

namespace ExprLang.Parser

section

variable (inner : Inner)

/-- A binding. -/
def binding : Rule Stmt := do
  let keyword ← Rule.current
  let target ← Rule.expect .identifier "identifier"
  _ ← Rule.expect .assign "`=` operator"
  _ ← Rule.advance
  let value ← inner.expression
  _ ← Rule.expect .semicolon "`;`"
  return .binding ⟨target.text, target.position⟩ value keyword.position

/-- The end of a function, with or without a value. -/
def result : Rule Stmt := do
  let keyword ← Rule.current
  if ← Rule.accept .semicolon then return .result none keyword.position
  else
    _ ← Rule.advance
    let value ← inner.expression
    _ ← Rule.expect .semicolon "`;`"
    return .result (some value) keyword.position

/-- The expression of a statement that begins with a token of a kind. A token that begins no
operand is taken here, for nothing comes before it in the statement. -/
def leading (kind : Kind) : Rule Expr :=
  if (operand? inner kind).isSome then inner.expression else missingOperand

/-- An expression on its own, with or without a semicolon. -/
def expressionStatement : Rule Stmt := do
  let first ← Rule.current
  let value ← leading inner first.kind
  _ ← Rule.accept .semicolon
  return .expression value first.position

/-- A condition with one or two branches. -/
def condition : Rule Stmt := do
  let keyword ← Rule.current
  _ ← Rule.expect .leftParen "`(`"
  _ ← Rule.advance
  let test ← inner.expression
  _ ← Rule.expect .rightParen "`)`"
  _ ← Rule.expect .leftBrace "`\x7b`"
  let consequence ← inner.block
  if ← Rule.accept .elseWord then
    _ ← Rule.expect .leftBrace "`\x7b`"
    let alternative ← inner.block
    return .condition test consequence (some alternative) keyword.position
  else
    return .condition test consequence none keyword.position

/-- Whether tokens are still to be skipped after a fault. Skipping ends on a semicolon and
at the end of the source, and before a token that can begin a statement: a keyword, a token
on a later line, and inside a block the closing brace. -/
def recovering (state : State) : Bool :=
  !(state.current.kind = .semicolon || state.current.kind = .endOfInput ||
    state.peek.kind.startsStatement || state.peek.kind = .endOfInput ||
    (0 < state.depth && state.peek.kind = .rightBrace) ||
    state.current.position.line < state.peek.position.line)

/-- Skip tokens until the next statement can start behind the current one. -/
def synchronize : Rule Unit :=
  Rule.repeatWhile recovering (fun _ => do _ ← Rule.advance) ()

/-- The rule for a statement that begins with a token of a kind. -/
def statementOfKind : Kind → Rule Stmt
  | .letWord => binding inner
  | .returnWord => result inner
  | .ifWord => condition inner
  | _ => expressionStatement inner

/-- Go on after a fault in a statement: record it and skip to where the next statement can
start. Only a limit of nesting is left to the outermost statement. -/
def recover (fault : Diagnostic) : Rule (Option Stmt) := do
  if fault.cause.isDepth ∧ 0 < (← get).nesting then throw fault
  else
    Rule.record fault
    synchronize
    return none

/-- A statement, or nothing if there is a fault in it. -/
def statement : Rule (Option Stmt) := do
  let first ← Rule.current
  Rule.note (.statement first)
  tryCatch (some <$> statementOfKind inner first.kind) recover

/-- The statement at the current token, behind those read before it, and the token after it. -/
def nextStatement (statements : Array Stmt) : Rule (Array Stmt) := do
  let read ← statement inner
  _ ← Rule.advance
  return statements ++ read.toArray

/-- One more statement of a block, which the source is not to leave open. -/
def nextInBlock (statements : Array Stmt) : Rule (Array Stmt) := do
  let token ← Rule.current
  if token.kind = .endOfInput then throw ⟨.expected "`\x7d`" token.toLexeme, token.position⟩
  else nextStatement inner statements

/-- Whether the current token is of another kind. -/
def currentIsNot (kind : Kind) (state : State) : Bool := state.current.kind ≠ kind

/-- The statements between the current brace and the brace that closes it. -/
def blockBody : Rule (List Stmt) := do
  _ ← Rule.advance
  let statements ← Rule.repeatWhile (currentIsNot .rightBrace) (nextInBlock inner) #[]
  return statements.toList

/-- All statements from the current token to the end of the source. -/
def program : Rule Program := do
  let statements ← Rule.repeatWhile (currentIsNot .endOfInput) (nextStatement inner) #[]
  return ⟨statements.toList⟩

end

end ExprLang.Parser
