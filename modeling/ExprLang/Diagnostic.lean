import ExprLang.Token

/-!
# Diagnostics

A diagnostic says what is wrong at a position of the source. Parsing goes on after it, so
that one source can have many.
-/

namespace ExprLang

/-- What is wrong with a source. -/
inductive Cause where
  /-- An expression was expected where the lexeme stands. -/
  | missingOperand (found : Lexeme)
  /-- The grammar asks for something else than the lexeme found. -/
  | expected (wanted : String) (found : Lexeme)
  /-- A lexeme that is to be an integer cannot be read as one. -/
  | unreadableInteger (text : String)
  /-- An expression lies too deep inside others. -/
  | deepExpression
  /-- A block lies too deep inside others. -/
  | deepBlock
  /-- A remark in words of its own. -/
  | remark (text : String)
deriving DecidableEq, Repr, Inhabited

namespace Cause

/-- The wording of a cause. -/
def message : Cause → String
  | missingOperand found => "no prefix parse function for " ++ found.described
  | expected wanted found => "expected " ++ wanted ++ ", found " ++ found.described
  | unreadableInteger text => "could not parse `" ++ text ++ "` as integer"
  | deepExpression => "expression nested too deeply"
  | deepBlock => "block nested too deeply"
  | remark text => text

/-- Whether the cause is a limit of nesting, which the outermost statement answers for. -/
def isDepth : Cause → Bool
  | deepExpression | deepBlock => true
  | _ => false

end Cause

/-- A cause at a place of the source. -/
structure Diagnostic where
  /-- What is wrong. -/
  cause : Cause
  /-- Where it is wrong. -/
  position : Position
deriving DecidableEq, Repr, Inhabited

namespace Diagnostic

/-- The wording without the place. -/
def message (diagnostic : Diagnostic) : String := diagnostic.cause.message

/-- The wording after the place. -/
def shown (diagnostic : Diagnostic) : String :=
  "line " ++ toString diagnostic.position.line ++ ", col " ++ toString diagnostic.position.column ++
    ": " ++ diagnostic.message

/-- The line of a listing of diagnostics. -/
def listed (diagnostic : Diagnostic) : String := "[error] >>> " ++ diagnostic.shown

end Diagnostic

end ExprLang
