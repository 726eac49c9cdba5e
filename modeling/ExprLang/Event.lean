import ExprLang.Diagnostic

/-!
# Events

What happens while a source is read, in order. Events are shown to the user as log lines
of the lowest severity, when the log is open for it.
-/

namespace ExprLang

/-- A step worth a log line. -/
inductive Event where
  /-- A character that begins no lexeme was read. -/
  | illegalCharacter (token : Token)
  /-- A statement begins with this token. -/
  | statement (first : Token)
  /-- A diagnostic was recorded. -/
  | diagnostic (recorded : Diagnostic)
  /-- A file is about to be read. -/
  | reading (path : String)
  /-- A source has been parsed. -/
  | parsed (statements diagnostics : Nat)
deriving DecidableEq, Repr

namespace Event

/-- The part of the program that an event belongs to. -/
def origin : Event → String
  | illegalCharacter .. => "vvlang.vv_lexer"
  | statement .. | diagnostic .. => "vvlang.vv_parser"
  | reading .. | parsed .. => "vvlang.vv_cli"

/-- The wording of an event. -/
def message : Event → String
  | illegalCharacter token =>
    "illegal character " ++ Text.quoted token.text ++ " at line " ++ toString token.position.line ++
      ", col " ++ toString token.position.column
  | statement first => "statement at line " ++ toString first.position.line ++ ": " ++ first.shown
  | diagnostic recorded => "diagnostic: " ++ recorded.shown
  | reading path => "reading " ++ path
  | parsed statements diagnostics =>
    "parsed " ++ toString statements ++ " statements, " ++ toString diagnostics ++ " diagnostics"

/-- The log line of an event. -/
def shown (event : Event) : String := "DEBUG " ++ event.origin ++ ": " ++ event.message

end Event

end ExprLang
