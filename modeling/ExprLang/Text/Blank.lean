import ExprLang.Text.CodeRange

/-!
# Blank characters and trimming

Blank characters are the white space of the character database together with the four
ASCII separators `U+001C` to `U+001F`. The zero-width space is not blank. What a
session reads is trimmed of blanks before it is compared with a command.
-/

namespace ExprLang.Text

/-- The blank code points, as rising, disjoint ranges. -/
def blankRanges : List CodeRange := [
  ⟨0x09, 0x0d⟩, ⟨0x1c, 0x20⟩, ⟨0x85, 0x85⟩, ⟨0xa0, 0xa0⟩, ⟨0x1680, 0x1680⟩, ⟨0x2000, 0x200a⟩,
  ⟨0x2028, 0x2029⟩, ⟨0x202f, 0x202f⟩, ⟨0x205f, 0x205f⟩, ⟨0x3000, 0x3000⟩]

/-- Whether trimming removes the character at either end of a text. -/
def isBlank (c : Char) : Bool := blankRanges.any (·.contains c)

/-- The text without the blanks it starts and ends with. -/
def trimmed (text : String) : String :=
  String.ofList ((text.toList.dropWhile isBlank).reverse.dropWhile isBlank).reverse

end ExprLang.Text
