import ExprLang.Parser.Nonterminal
import ExprLang.Text.DecimalDigit

/-!
# Rules for expressions

An expression is an operand followed by operators with their right sides. A rule starts with
the current token on its first token and ends with it on its last.
-/

namespace ExprLang.Parser

/-! ## Operands of one token -/

/-- Record that an expression is missing at the current token, and stand in for it. -/
def missingOperand : Rule Expr := do
  let token ← Rule.current
  Rule.record ⟨.missingOperand token.toLexeme, token.position⟩
  return .missing token.position

/-- The current token as a name. -/
def name : Rule Expr := do
  let token ← Rule.current
  return .name ⟨token.text, token.position⟩

/-- The most digits that an integer may have. -/
def maxDigits : Nat := 4300

/-- The integer that a text writes, if it is not too long. -/
def readInteger? (text : String) : Option Int :=
  if text.length ≤ maxDigits then (Text.readDecimal? text.toList).map Int.ofNat else none

/-- The current token as an integer. -/
def integer : Rule Expr := do
  let token ← Rule.current
  match readInteger? token.text with
  | some value => return .integer value token.position
  | none => throw ⟨.unreadableInteger token.text, token.position⟩

/-- The current token as a truth value. -/
def boolean : Rule Expr := do
  let token ← Rule.current
  return .boolean (token.kind = .trueWord) token.position

/-! ## Operands with parts, and operators -/

section

variable (inner : Inner)

/-- The current token as an operator before an operand. -/
def unary : Rule Expr := do
  let operator ← Rule.current
  _ ← Rule.advance
  let operand ← inner.derive (.expression .unary)
  return .unary operator.text operand operator.position

/-- The current token as an operator behind its left operand. -/
def binary (left : Expr) : Rule Expr := do
  let operator ← Rule.current
  _ ← Rule.advance
  let right ← inner.derive (.expression (.ofKind operator.kind))
  return .binary operator.text left right operator.position

/-- An expression in parentheses. -/
def grouped : Rule Expr := do
  _ ← Rule.advance
  let value ← inner.expression
  _ ← Rule.expect .rightParen "`)`"
  return value

/-- Whether a comma follows the current token. -/
def commaFollows (state : State) : Bool := state.peek.kind = .comma

/-- Arguments between parentheses. -/
def arguments : Rule (List Expr) := do
  if ← Rule.accept .rightParen then return []
  else
    _ ← Rule.advance
    let first ← inner.expression
    let values ← Rule.repeatWhile commaFollows (fun values => do
      _ ← Rule.advance
      _ ← Rule.advance
      return values.push (← inner.expression)) #[first]
    _ ← Rule.expect .rightParen "`)`"
    return values.toList

/-- A call of the expression before the current parenthesis. -/
def call (callee : Expr) : Rule Expr := do
  let parenthesis ← Rule.current
  let values ← arguments inner
  return .call callee values parenthesis.position

/-- The next token as a parameter. -/
def parameter : Rule Ident := do
  let token ← Rule.expect .identifier "identifier"
  return ⟨token.text, token.position⟩

/-- Parameters between parentheses. -/
def parameters : Rule (List Ident) := do
  if ← Rule.accept .rightParen then return []
  else
    let first ← parameter
    let names ← Rule.repeatWhile commaFollows (fun names => do
      _ ← Rule.advance
      return names.push (← parameter)) #[first]
    _ ← Rule.expect .rightParen "`)`"
    return names.toList

/-- A function literal. -/
def function : Rule Expr := do
  let keyword ← Rule.current
  _ ← Rule.expect .leftParen "`(`"
  let names ← parameters
  _ ← Rule.expect .leftBrace "`\x7b`"
  let body ← inner.block
  return .function names body keyword.position

/-- The rule for an operand that begins with a token of a kind. -/
def operand? : Kind → Option (Rule Expr)
  | .identifier => some name
  | .integer => some integer
  | .trueWord | .falseWord => some boolean
  | .bang | .minus => some (unary inner)
  | .leftParen => some (grouped inner)
  | .functionWord => some (function inner)
  | _ => none

/-- The current operator, applied to the expression before it. -/
def extend (left : Expr) : Rule Expr := do
  if (← Rule.current).kind = .leftParen then call inner left else binary inner left

/-- A missing operand inside a statement. A token that closes a construct is left to this
construct. -/
def placeholder : Rule Expr := do
  let missing ← missingOperand
  if (← Rule.current).kind.endsExpression then
    Rule.stepBack
    return missing
  else return missing

/-- Whether the next token is an operator that binds tighter than a level. -/
def bindsTighter (above : Precedence) (state : State) : Bool := above < .ofKind state.peek.kind

/-- An expression: an operand, and every operator behind it that binds tighter than a level. -/
def expressionBody (above : Precedence) : Rule Expr := do
  match operand? inner (← Rule.current).kind with
  | none => placeholder
  | some operand =>
    let first ← operand
    Rule.repeatWhile (bindsTighter above) (fun left => do
      _ ← Rule.advance
      extend inner left) first

end

end ExprLang.Parser
