/-!
# Ranges of code points

Character classes that no arithmetic test describes are given as lists of ranges.
-/

namespace ExprLang.Text

/-- The code points from `first` to `last`, both included. -/
structure CodeRange where
  /-- The lowest code point of the range. -/
  first : Nat
  /-- The highest code point of the range. -/
  last : Nat
deriving DecidableEq, Repr

/-- Whether a character lies in the range. -/
def CodeRange.contains (range : CodeRange) (c : Char) : Bool :=
  range.first ≤ c.toNat && c.toNat ≤ range.last

end ExprLang.Text
