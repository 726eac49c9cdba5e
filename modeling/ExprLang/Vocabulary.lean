import ExprLang.Token

/-!
# Vocabulary

The words and signs of the language, and the lexeme that a text starts with. Words and
numbers are runs of their characters, a sign of two characters wins over its first
character, and a character that begins no lexeme is a lexeme of its own.
-/

namespace ExprLang

/-- Words are made of ASCII letters and the underscore. -/
def isLetter (c : Char) : Bool :=
  c = '_' || ('a' ≤ c && c ≤ 'z') || ('A' ≤ c && c ≤ 'Z')

/-- Numbers are made of ASCII digits. -/
def isDigit (c : Char) : Bool := '0' ≤ c && c ≤ '9'

/-- The reserved words. -/
def keywords : List (String × Kind) := [
  ("fn", .functionWord), ("let", .letWord), ("true", .trueWord), ("false", .falseWord),
  ("if", .ifWord), ("else", .elseWord), ("return", .returnWord)]

/-- The signs of one character. -/
def singleSigns : List (Char × Kind) := [
  ('=', .assign), ('+', .plus), ('-', .minus), ('!', .bang), ('*', .asterisk), ('/', .slash),
  ('<', .less), ('>', .greater), (',', .comma), (';', .semicolon), ('(', .leftParen),
  (')', .rightParen), ('{', .leftBrace), ('}', .rightBrace)]

/-- The signs of two characters. -/
def doubleSigns : List ((Char × Char) × Kind) := [
  (('=', '='), .equal), (('!', '='), .notEqual)]

namespace Lexeme

/-- The lexeme of a word: a keyword or an identifier. -/
def ofWord (word : String) : Lexeme := ⟨(keywords.lookup word).getD .identifier, word⟩

/-- The sign of two characters that a text starts with. -/
def doubleSign? : List Char → Option Lexeme
  | first :: second :: _ =>
    (doubleSigns.lookup (first, second)).map (⟨·, String.ofList [first, second]⟩)
  | _ => none

/-- The lexeme of a single character: a sign, or an illegal character. -/
def ofSingle (c : Char) : Lexeme := ⟨(singleSigns.lookup c).getD .illegal, String.ofList [c]⟩

/-- The lexeme that a text starts with. The text is not to start with a blank, which would
count as an illegal character. -/
def front : List Char → Lexeme
  | [] => ⟨.endOfInput, ""⟩
  | '\n' :: _ => ⟨.lineBreak, "\n"⟩
  | '\r' :: '\n' :: _ => ⟨.lineBreak, "\r\n"⟩
  | c :: rest =>
    if isLetter c then ofWord (String.ofList ((c :: rest).takeWhile isLetter))
    else if isDigit c then ⟨.integer, String.ofList ((c :: rest).takeWhile isDigit)⟩
    else (doubleSign? (c :: rest)).getD (ofSingle c)

end Lexeme

end ExprLang
