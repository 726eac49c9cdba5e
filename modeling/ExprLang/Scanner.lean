import ExprLang.Failure
import ExprLang.TokenStream
import ExprLang.Vocabulary

/-!
# Scanner

A scanner stands at a place in a source text and reads token after token. Spaces and tabs
separate tokens; line breaks separate them too, or are tokens of their own when they are
kept. At the end of the text the scanner reads the end-of-input token again and again.
-/

namespace ExprLang

/-- A place in a source text, with what is left to read. -/
structure Scanner where
  /-- The characters from here to the end of the source. -/
  rest : List Char
  /-- How many characters were passed, steps beyond the end included. -/
  offset : Nat
  /-- The number of the current line. -/
  line : Nat
  /-- The offset at which the current line starts. -/
  lineStart : Nat
  /-- Whether line breaks are tokens. -/
  keepBreaks : Bool
deriving DecidableEq, Repr

namespace Scanner

/-- The start of a source text. -/
def ofText (source : String) (keepBreaks : Bool) : Scanner :=
  { rest := source.toList, offset := 0, line := 1, lineStart := 0, keepBreaks }

/-- The start of a source text, which is not to be empty. -/
def start (source : String) (keepBreaks : Bool) : Except Failure Scanner :=
  if source = "" then .error .emptySource else .ok (ofText source keepBreaks)

/-- The character here, a null character at the end. -/
def char (scanner : Scanner) : Char := scanner.rest.headD '\x00'

/-- The character after this one, a null character at the end. -/
def nextChar (scanner : Scanner) : Char := scanner.rest.tail.headD '\x00'

/-- The number of the character here in its line. It is not positive when a line was begun
ahead of the characters before it. -/
def column (scanner : Scanner) : Int := (scanner.offset : Int) - scanner.lineStart + 1

/-- The position of a token that starts here. -/
def position (scanner : Scanner) : Position := ⟨scanner.line, scanner.column⟩

/-- Pass a number of characters. -/
def pass (scanner : Scanner) (count : Nat) : Scanner :=
  { scanner with rest := scanner.rest.drop count, offset := scanner.offset + count }

/-- Count a line that begins after the character here. -/
def beginLine (scanner : Scanner) : Scanner :=
  { scanner with line := scanner.line + 1, lineStart := scanner.offset + 1 }

/-- Pass the longest run of characters of a class, and return the run. -/
def run (scanner : Scanner) (accepts : Char → Bool) : String × Scanner :=
  let found := scanner.rest.takeWhile accepts
  (String.ofList found, scanner.pass found.length)

/-- The scanner behind the blanks that `rest` starts with. Line breaks are passed, and
counted, unless they are kept. -/
def skipFrom (keepBreaks : Bool) : (rest : List Char) → (offset line lineStart : Nat) → Scanner
  | ' ' :: rest, offset, line, lineStart => skipFrom keepBreaks rest (offset + 1) line lineStart
  | '\t' :: rest, offset, line, lineStart => skipFrom keepBreaks rest (offset + 1) line lineStart
  | '\n' :: rest, offset, line, lineStart =>
    if keepBreaks then ⟨'\n' :: rest, offset, line, lineStart, keepBreaks⟩
    else skipFrom keepBreaks rest (offset + 1) (line + 1) (offset + 1)
  | '\r' :: '\n' :: rest, offset, line, lineStart =>
    if keepBreaks then ⟨'\r' :: '\n' :: rest, offset, line, lineStart, keepBreaks⟩
    else skipFrom keepBreaks rest (offset + 2) (line + 1) (offset + 2)
  | rest, offset, line, lineStart => ⟨rest, offset, line, lineStart, keepBreaks⟩

/-- Pass everything that separates tokens. -/
def skipGap (scanner : Scanner) : Scanner :=
  skipFrom scanner.keepBreaks scanner.rest scanner.offset scanner.line scanner.lineStart

/-- Pass a lexeme that starts here. A line begins behind a line break. -/
def passLexeme (scanner : Scanner) (lexeme : Lexeme) : Scanner :=
  let behind := scanner.pass lexeme.text.length
  if lexeme.kind = .lineBreak then
    { behind with line := behind.line + 1, lineStart := behind.offset }
  else behind

/-- Read the next token. -/
def next (scanner : Scanner) : Token × Scanner :=
  let scanner := scanner.skipGap
  let lexeme := Lexeme.front scanner.rest
  (⟨lexeme, scanner.position⟩, scanner.passLexeme lexeme)

/-- Read to the end of the source. Every token but the last takes a character, so that the
characters of the text are enough steps: the first argument counts them off. -/
def drainWithin : List Char → Scanner → TokenStream × Scanner
  | [], scanner =>
    let (token, behind) := scanner.next
    (⟨[], token⟩, behind)
  | _ :: steps, scanner =>
    let (token, behind) := scanner.next
    if token.kind = .endOfInput then (⟨[], token⟩, behind)
    else
      let (stream, last) := drainWithin steps behind
      (⟨token :: stream.upcoming, stream.ending⟩, last)

/-- Read to the end of the source, and return the scanner that stands there too. -/
def drain (scanner : Scanner) : TokenStream × Scanner := drainWithin scanner.rest scanner

end Scanner

/-- All tokens of a source text, up to and with the end of input. -/
def tokenize (source : String) (keepBreaks : Bool) : Except Failure (List Token) :=
  return (← Scanner.start source keepBreaks).drain.1.toList

end ExprLang
