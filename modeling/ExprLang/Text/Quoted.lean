import ExprLang.Text.Hex
import ExprLang.Text.Printable

/-!
# Quoted text

Token listings and messages show a text between quotation marks, on one line and in
printable characters only. The marks are apostrophes unless the text has an apostrophe
and no double quotation mark.
-/

namespace ExprLang.Text

/-- The mark that opens and closes a quoted text. -/
def quotationMark (text : List Char) : Char :=
  if text.contains '\'' && !text.contains '"' then '"' else '\''

/-- How one character stands between the given marks. -/
def escaped (mark c : Char) : List Char :=
  if c = mark || c = '\\' then ['\\', c]
  else if c = '\n' then ['\\', 'n']
  else if c = '\r' then ['\\', 'r']
  else if c = '\t' then ['\\', 't']
  else if isPrintable c then [c]
  else if c.toNat < 0x100 then '\\' :: 'x' :: hex 2 c.toNat
  else if c.toNat < 0x10000 then '\\' :: 'u' :: hex 4 c.toNat
  else '\\' :: 'U' :: hex 8 c.toNat

/-- The text between quotation marks, with every character escaped that needs it. -/
def quoted (text : String) : String :=
  let mark := quotationMark text.toList
  String.ofList (mark :: text.toList.flatMap (escaped mark) ++ [mark])

end ExprLang.Text
