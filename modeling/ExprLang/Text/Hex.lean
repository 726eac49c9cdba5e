/-!
# Hexadecimal escapes

Escaped characters are written by code point in lower-case hexadecimal digits of a
fixed least width.
-/

namespace ExprLang.Text

/-- A number in lower-case hexadecimal, filled up with zeros to `width` digits. -/
def hex (width number : Nat) : List Char :=
  let digits := Nat.toDigits 16 number
  List.replicate (width - digits.length) '0' ++ digits

end ExprLang.Text
