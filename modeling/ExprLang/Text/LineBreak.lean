/-!
# Line breaks of files

A file may end its lines by a line feed, a carriage return, or both in this order. Read
as text, each of the three counts as one line feed.
-/

namespace ExprLang.Text

/-- The text with every line break written as one line feed. -/
def unifyBreaks : List Char → List Char
  | '\r' :: '\n' :: rest => '\n' :: unifyBreaks rest
  | '\r' :: rest => '\n' :: unifyBreaks rest
  | c :: rest => c :: unifyBreaks rest
  | [] => []

end ExprLang.Text
