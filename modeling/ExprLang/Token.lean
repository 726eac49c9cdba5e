import ExprLang.Text.Quoted

/-!
# Tokens

A token is a lexeme, that is a kind with the text it was read from, at a position of the
source. Two tokens count as the same when their lexemes are equal: the position is
information for messages only.
-/

namespace ExprLang

/-- A place in a source text. Lines and columns of a text count from one; a position made
by hand may hold any number. -/
structure Position where
  /-- The number of the line. -/
  line : Int
  /-- The number of the character in its line. -/
  column : Int
deriving DecidableEq, Repr, Inhabited

/-- The classes of lexemes. -/
inductive Kind where
  /-- A character that begins no lexeme. -/
  | illegal
  /-- The end of the source, repeated for ever. -/
  | endOfInput
  /-- A line break, where line breaks are kept. -/
  | lineBreak
  /-- A word that is no keyword. -/
  | identifier
  /-- A run of digits. -/
  | integer
  /-- The sign of a binding. -/
  | assign
  /-- The comparison for equality. -/
  | equal
  /-- The comparison for difference. -/
  | notEqual
  /-- Addition. -/
  | plus
  /-- Subtraction or negation. -/
  | minus
  /-- Logical negation. -/
  | bang
  /-- Multiplication. -/
  | asterisk
  /-- Division. -/
  | slash
  /-- The comparison "less than". -/
  | less
  /-- The comparison "greater than". -/
  | greater
  /-- The separator of arguments and parameters. -/
  | comma
  /-- The end of a statement. -/
  | semicolon
  /-- An opening parenthesis. -/
  | leftParen
  /-- A closing parenthesis. -/
  | rightParen
  /-- An opening brace. -/
  | leftBrace
  /-- A closing brace. -/
  | rightBrace
  /-- The keyword of a function literal. -/
  | functionWord
  /-- The keyword of a binding. -/
  | letWord
  /-- The literal for truth. -/
  | trueWord
  /-- The literal for falsehood. -/
  | falseWord
  /-- The keyword of a condition. -/
  | ifWord
  /-- The keyword of the other branch of a condition. -/
  | elseWord
  /-- The keyword of a result. -/
  | returnWord
  /-- A label outside the vocabulary. No source text has a lexeme of such a kind. -/
  | foreign (label : String)
deriving DecidableEq, Repr, Inhabited

namespace Kind

/-- The label of a kind in listings. -/
def name : Kind → String
  | illegal => "ILLEGAL"
  | endOfInput => "EOF"
  | lineBreak => "NEWLINE"
  | identifier => "IDENT"
  | integer => "INT"
  | assign => "ASSIGN"
  | equal => "EQ"
  | notEqual => "NOT_EQ"
  | plus => "PLUS"
  | minus => "MINUS"
  | bang => "BANG"
  | asterisk => "ASTERISK"
  | slash => "SLASH"
  | less => "LT"
  | greater => "GT"
  | comma => "COMMA"
  | semicolon => "SEMICOLON"
  | leftParen => "LPAREN"
  | rightParen => "RPAREN"
  | leftBrace => "LBRACE"
  | rightBrace => "RBRACE"
  | functionWord => "FUNCTION"
  | letWord => "LET"
  | trueWord => "TRUE"
  | falseWord => "FALSE"
  | ifWord => "IF"
  | elseWord => "ELSE"
  | returnWord => "RETURN"
  | foreign label => label

/-- The closed vocabulary: every kind that a source text can have. -/
def all : List Kind := [
  illegal, endOfInput, lineBreak, identifier, integer, assign, equal, notEqual, plus, minus, bang,
  asterisk, slash, less, greater, comma, semicolon, leftParen, rightParen, leftBrace, rightBrace,
  functionWord, letWord, trueWord, falseWord, ifWord, elseWord, returnWord]

/-- The kind with a label, foreign if the vocabulary has none. -/
def ofName (label : String) : Kind := (all.find? (·.name = label)).getD (foreign label)

/-- A kind made from a label shows this label. -/
theorem name_ofName (label : String) : (ofName label).name = label := by
  unfold ofName
  cases found : all.find? (·.name = label) with
  | none => rfl
  | some kind => simpa using List.find?_some found

/-- The kinds of the vocabulary have labels of their own. -/
theorem ofName_name {kind : Kind} (known : kind ∈ all) : ofName kind.name = kind := by
  revert kind
  decide

/-- Whether a kind begins a statement that no other kind begins. -/
def startsStatement : Kind → Bool
  | letWord | returnWord | ifWord => true
  | _ => false

/-- Whether a kind closes a construct around an expression. A missing operand never takes
such a token away from the construct it closes. -/
def endsExpression : Kind → Bool
  | semicolon | comma | rightParen | rightBrace | endOfInput => true
  | _ => false

end Kind

/-- A kind together with the source text it was read from. -/
structure Lexeme where
  /-- The class of the lexeme. -/
  kind : Kind
  /-- The characters of the lexeme, empty only at the end of the source. -/
  text : String
deriving DecidableEq, Repr, Inhabited

namespace Lexeme

/-- The lexeme in a listing: its label and its text in quotation marks. -/
def shown (lexeme : Lexeme) : String :=
  "Token(" ++ lexeme.kind.name ++ ", " ++ Text.quoted lexeme.text ++ ")"

/-- The lexeme in a message to the author of the source. -/
def described (lexeme : Lexeme) : String :=
  if lexeme.kind = .endOfInput then "end of input" else "`" ++ lexeme.text ++ "`"

end Lexeme

/-- A lexeme at its place in the source. -/
structure Token extends Lexeme where
  /-- Where the lexeme starts. -/
  position : Position
deriving DecidableEq, Repr, Inhabited

/-- Whether two tokens have the same lexeme, wherever they stand. -/
def Token.same (left right : Token) : Bool := left.toLexeme = right.toLexeme

end ExprLang
