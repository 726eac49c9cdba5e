import ExprLang.Token

/-!
# Precedence

How tightly operators bind. The levels are linearly ordered by rank; a token that is no
operator binds at the lowest level, which no operator has.
-/

namespace ExprLang

/-- The levels of binding, loosest first. -/
inductive Precedence where
  /-- No operator. -/
  | lowest
  /-- Comparison for equality and difference. -/
  | equals
  /-- Comparison by size. -/
  | lessGreater
  /-- Addition and subtraction. -/
  | sum
  /-- Multiplication and division. -/
  | product
  /-- An operator before its operand. -/
  | unary
  /-- The application of a function. -/
  | call
deriving DecidableEq, Repr, Inhabited

namespace Precedence

/-- The place of a level in the order. -/
def rank : Precedence → Nat
  | lowest => 1
  | equals => 2
  | lessGreater => 3
  | sum => 4
  | product => 5
  | unary => 6
  | call => 7

instance : LT Precedence := ⟨fun looser tighter => looser.rank < tighter.rank⟩

instance (looser tighter : Precedence) : Decidable (looser < tighter) :=
  inferInstanceAs (Decidable (looser.rank < tighter.rank))

/-- The label of a level in listings. -/
def name : Precedence → String
  | lowest => "LOWEST"
  | equals => "EQUALS"
  | lessGreater => "LESSGREATER"
  | sum => "SUM"
  | product => "PRODUCT"
  | unary => "PREFIX"
  | call => "CALL"

/-- The levels, loosest first. -/
def all : List Precedence := [lowest, equals, lessGreater, sum, product, unary, call]

/-- The level with a label. -/
def ofName? (label : String) : Option Precedence := all.find? (·.name = label)

/-- How tightly a token of a kind binds the expression before it. -/
def ofKind : Kind → Precedence
  | .equal | .notEqual => equals
  | .less | .greater => lessGreater
  | .plus | .minus => sum
  | .asterisk | .slash => product
  | .leftParen => call
  | _ => lowest

end Precedence

end ExprLang
