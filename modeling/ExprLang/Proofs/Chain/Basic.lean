import ExprLang.Proofs.RoundTrip.Basic
import ExprLang.Tree.Same

/-!
# Chains of operators

A chain is a row of operands with operators between them, all as they are written. A tree arranges
it (`Chain.Arranges`) when reading the tree from left to right gives the chain again, and its
operations nest by precedence, equal ones to the left. Every chain is arranged by some tree, which
grows at its right edge (`Chain.arranges_tree`).
-/

namespace ExprLang

/-- How tightly an operator between operands binds. -/
def Precedence.ofOperator : String → Precedence
  | "==" | "!=" => equals
  | "<" | ">" => lessGreater
  | "+" | "-" => sum
  | "*" | "/" => product
  | _ => lowest

/-- An operand of one token, as it is written. -/
inductive Atom where
  /-- A name. -/
  | name (word : String)
  /-- An integer. -/
  | integer (digits : String)
  /-- A truth value. -/
  | boolean (value : Bool)
deriving DecidableEq

/-- An operand with operators before it and arguments behind it. -/
structure Operand where
  /-- The operators before the operand. -/
  signs : List String
  /-- What the operators and the arguments apply to. -/
  atom : Atom
  /-- The arguments of the first call, those of the call of its result, and so on. -/
  suffixes : List (List Atom)

/-- An operand, and further ones behind operators. -/
structure Chain where
  /-- The first operand. -/
  first : Operand
  /-- The operators, each with the operand behind it. -/
  others : List (String × Operand)

/-! ## What is written -/

/-- The text of an atom. -/
def Atom.text : Atom → String
  | .name word => word
  | .integer digits => digits
  | .boolean value => if value then "true" else "false"

/-- The text of arguments in parentheses. -/
def Atom.textAll (arguments : List Atom) : String :=
  "(" ++ ", ".intercalate (arguments.map Atom.text) ++ ")"

/-- The text of an operand. -/
def Operand.text (operand : Operand) : String :=
  String.join operand.signs ++ operand.atom.text ++ String.join (operand.suffixes.map Atom.textAll)

/-- The text of a chain, with blanks around the operators between operands. -/
def Chain.text (chain : Chain) : String :=
  " ".intercalate
    (chain.first.text :: chain.others.flatMap fun entry => [entry.1, entry.2.text])

/-- The atom can stand in a source. -/
def Atom.Proper : Atom → Prop
  | .name word => Ident.Proper ⟨word, .origin⟩
  | .integer digits =>
    digits.toList ≠ [] ∧ (∀ c ∈ digits.toList, isDigit c = true) ∧ digits.length ≤ 4300
  | .boolean _ => True

instance : DecidablePred Atom.Proper
  | .name word => inferInstanceAs (Decidable (Ident.Proper ⟨word, .origin⟩))
  | .integer digits => decidable_of_iff (digits.toList ≠ [] ∧ digits.toList.all isDigit = true ∧
      digits.length ≤ 4300) (by rw [List.all_eq_true]; rfl)
  | .boolean _ => inferInstanceAs (Decidable True)

/-- The operand can stand in a source, without too many operators before it. -/
def Operand.Proper (operand : Operand) : Prop :=
  (∀ sign ∈ operand.signs, sign ∈ ["-", "!"]) ∧ operand.signs.length ≤ 90 ∧
    operand.atom.Proper ∧ ∀ arguments ∈ operand.suffixes, ∀ atom ∈ arguments, atom.Proper

instance : DecidablePred Operand.Proper := fun operand =>
  inferInstanceAs (Decidable ((∀ sign ∈ operand.signs, sign ∈ ["-", "!"]) ∧
    operand.signs.length ≤ 90 ∧ operand.atom.Proper ∧
    ∀ arguments ∈ operand.suffixes, ∀ atom ∈ arguments, atom.Proper))

/-- The chain can stand in a source. -/
def Chain.Proper (chain : Chain) : Prop :=
  chain.first.Proper ∧ ∀ entry ∈ chain.others,
    entry.1 ∈ ["+", "-", "*", "/", "<", ">", "==", "!="] ∧ entry.2.Proper

instance : DecidablePred Chain.Proper := fun chain =>
  inferInstanceAs (Decidable (chain.first.Proper ∧ ∀ entry ∈ chain.others,
    entry.1 ∈ ["+", "-", "*", "/", "<", ">", "==", "!="] ∧ entry.2.Proper))

/-! ## What is meant -/

/-- The tree of an atom at the fixed place. -/
def Atom.tree : Atom → Expr
  | .name word => .name ⟨word, .origin⟩
  | .integer digits => .integer (Int.ofNat (Nat.ofDigitChars 10 digits.toList 0)) .origin
  | .boolean value => .boolean value .origin

/-- A piece of an expression, where atoms are written or meant. -/
inductive Piece (α : Type) where
  /-- An operator before its operand. -/
  | sign (operator : String)
  /-- A name, an integer or a truth value. -/
  | atom (value : α)
  /-- The arguments of a call. -/
  | suffix (arguments : List α)
  /-- An operator between its operands. -/
  | between (operator : String)

/-- The piece with other atoms. -/
def Piece.map {α β : Type} (change : α → β) : Piece α → Piece β
  | .sign operator => .sign operator
  | .atom value => .atom (change value)
  | .suffix arguments => .suffix (arguments.map change)
  | .between operator => .between operator

/-- The pieces of an operand. -/
def Operand.pieces (operand : Operand) : List (Piece Atom) :=
  operand.signs.map .sign ++ .atom operand.atom :: operand.suffixes.map .suffix

/-- The pieces of a chain. -/
def Chain.pieces (chain : Chain) : List (Piece Atom) :=
  chain.first.pieces ++ chain.others.flatMap fun entry => .between entry.1 :: entry.2.pieces

namespace Expr

/-- The pieces of an expression from left to right, at the fixed place. -/
def pieces : Expr → List (Piece Expr)
  | .unary operator operand _ => .sign operator :: operand.pieces
  | .binary operator left right _ => left.pieces ++ .between operator :: right.pieces
  | .call callee arguments _ => callee.pieces ++ [.suffix (unplacedAll arguments)]
  | value => [.atom value.unplaced]

/-- The operator of an expression that is an operation between operands. -/
def operation? : Expr → Option String
  | .binary operator _ _ _ => some operator
  | _ => none

/-- The operator of an expression that begins with one. -/
def sign? : Expr → Option String
  | .unary operator _ _ => some operator
  | _ => none

/-- The operations nest as their precedences tell. An operation on the right binds tighter than the
one around it, and an operation on the left at least as tight; an operator before an operand
applies to it with all its arguments, and to no operation; arguments apply to an atom with the
arguments before them. -/
def Arranged : Expr → Prop
  | .unary _ operand _ => operand.operation? = none ∧ operand.Arranged
  | .binary operator left right _ =>
    (∀ inner ∈ left.operation?, ¬ Precedence.ofOperator inner < .ofOperator operator) ∧
      (∀ inner ∈ right.operation?, Precedence.ofOperator operator < .ofOperator inner) ∧
      left.Arranged ∧ right.Arranged
  | .call callee _ _ => callee.operation? = none ∧ callee.sign? = none ∧ callee.Arranged
  | _ => True

end Expr

/-- The tree says what the chain says, with its operations nested by precedence. -/
def Chain.Arranges (chain : Chain) (tree : Expr) : Prop :=
  tree.pieces = chain.pieces.map (Piece.map Atom.tree) ∧ tree.Arranged

/-! ## Positions -/

namespace Expr

/-- The root of an expression without positions. -/
theorem unplaced_root (value : Expr) :
    value.unplaced.operation? = value.operation? ∧ value.unplaced.sign? = value.sign? := by
  cases value <;> exact ⟨rfl, rfl⟩

/-- The pieces of an expression without positions. -/
theorem pieces_unplaced (value : Expr) : value.unplaced.pieces = value.pieces := by
  cases value with
  | unary operator operand position =>
    simp [unplaced, pieces, pieces_unplaced operand]
  | binary operator left right position =>
    simp [unplaced, pieces, pieces_unplaced left, pieces_unplaced right]
  | call callee arguments position =>
    simp [unplaced, pieces, pieces_unplaced callee, unplacedAll_unplacedAll arguments]
  | function parameters body position =>
    have same := unplaced_unplaced (.function parameters body position)
    simp only [unplaced] at same
    simp only [unplaced, pieces, same]
  | _ => rfl

/-- An expression is arranged with any positions. -/
theorem arranged_unplaced (value : Expr) : value.unplaced.Arranged ↔ value.Arranged := by
  cases value with
  | unary operator operand position =>
    simp [unplaced, Arranged, (unplaced_root operand).1, arranged_unplaced operand]
  | binary operator left right position =>
    simp [unplaced, Arranged, (unplaced_root left).1, (unplaced_root right).1,
      arranged_unplaced left, arranged_unplaced right]
  | call callee arguments position =>
    simp [unplaced, Arranged, unplaced_root callee, arranged_unplaced callee]
  | function parameters body position => simp [unplaced, Arranged]
  | _ => exact Iff.rfl

end Expr

/-- A tree that differs in positions from one that arranges a chain arranges it, too. -/
theorem Chain.Arranges.of_unplaced {chain : Chain} {tree other : Expr}
    (arranges : chain.Arranges tree) (same : other.unplaced = tree.unplaced) :
    chain.Arranges other := by
  obtain ⟨pieces, arranged⟩ := arranges
  constructor
  · rw [← other.pieces_unplaced, same, tree.pieces_unplaced]
    exact pieces
  · rw [← other.arranged_unplaced, same, tree.arranged_unplaced]
    exact arranged

/-! ## The tree of a chain -/

/-- An operand applied to the arguments behind it. -/
def Expr.called (callee : Expr) (suffixes : List (List Atom)) : Expr :=
  suffixes.foldl (fun callee arguments => .call callee (arguments.map Atom.tree) .origin) callee

/-- The tree of an operand. -/
def Operand.tree (operand : Operand) : Expr :=
  operand.signs.foldr (.unary · · .origin) (operand.atom.tree.called operand.suffixes)

/-- The tree with an operation at its right edge, as deep as the operator binds. -/
def Expr.extended : Expr → String → Expr → Expr
  | .binary outer left right position, operator, operand =>
    if Precedence.ofOperator outer < .ofOperator operator then
      .binary outer left (right.extended operator operand) position
    else .binary operator (.binary outer left right position) operand .origin
  | value, operator, operand => .binary operator value operand .origin

/-- The tree of a chain. -/
def Chain.tree (chain : Chain) : Expr :=
  chain.others.foldl (fun tree entry => tree.extended entry.1 entry.2.tree) chain.first.tree

namespace Expr

/-- An extended expression says what it said and what is behind it. -/
theorem pieces_extended (value : Expr) (operator : String) (operand : Expr) :
    (value.extended operator operand).pieces =
      value.pieces ++ .between operator :: operand.pieces := by
  fun_induction extended value operator operand with
  | case1 outer left right position operator operand binds ih => simp [pieces, ih]
  | case2 => rfl
  | case3 => rfl

/-- The root of an extended expression is its root, or the operator behind it. -/
theorem operation?_extended (value : Expr) (operator : String) (operand : Expr) :
    ∀ root ∈ (value.extended operator operand).operation?,
      root ∈ value.operation? ∨ root = operator := by
  fun_induction extended value operator operand with
  | case1 => exact fun root found => .inl found
  | case2 =>
    rintro _ ⟨⟩
    exact .inr rfl
  | case3 =>
    rintro _ ⟨⟩
    exact .inr rfl

/-- An expression stays arranged when it is extended with an operand. -/
theorem arranged_extended {value operand : Expr} {operator : String} (here : value.Arranged)
    (arranged : operand.Arranged) (single : operand.operation? = none) :
    (value.extended operator operand).Arranged := by
  fun_induction extended value operator operand with
  | case1 outer left right position operator operand binds ih =>
    obtain ⟨looser, tighter, arranged_left, arranged_right⟩ := here
    refine ⟨looser, fun inner found => ?_, arranged_left, ih arranged_right arranged single⟩
    rcases operation?_extended right operator operand inner found with root | rfl
    · exact tighter inner root
    · exact binds
  | case2 outer left right position operator operand loose =>
    refine ⟨?_, single ▸ nofun, here, arranged⟩
    rintro _ ⟨⟩
    exact loose
  | case3 value operator operand other =>
    refine ⟨fun inner found => ?_, single ▸ nofun, here, arranged⟩
    cases value with
    | binary outer left right position => exact absurd rfl (other outer left right position)
    | _ => exact absurd found nofun

/-- How many operators stand before an operand at most. -/
def signs : Expr → Nat
  | .unary _ operand _ => operand.signs + 1
  | .binary _ left right _ => max left.signs right.signs
  | _ => 0

/-- An extended expression has no more operators before an operand than its parts have. -/
theorem signs_extended (value : Expr) (operator : String) (operand : Expr) :
    (value.extended operator operand).signs = max value.signs operand.signs := by
  fun_induction extended value operator operand with
  | case1 outer left right position operator operand binds ih =>
    rw [signs, signs, ih, Nat.max_assoc]
  | case2 => rfl
  | case3 => rfl

/-- Atoms without positions are atoms without positions. -/
theorem unplacedAll_trees (atoms : List Atom) :
    unplacedAll (atoms.map Atom.tree) = atoms.map Atom.tree := by
  induction atoms with
  | nil => rfl
  | cons atom atoms ih =>
    rw [List.map_cons, unplacedAll, ih]
    cases atom <;> rfl

/-- Calls of an atom are arranged, and say the atom and the arguments. -/
theorem called_spec (callee : Expr) (suffixes : List (List Atom))
    (plain : callee.operation? = none ∧ callee.sign? = none ∧ callee.signs = 0)
    (arranged : callee.Arranged) :
    ((callee.called suffixes).operation? = none ∧ (callee.called suffixes).sign? = none ∧
      (callee.called suffixes).signs = 0) ∧ (callee.called suffixes).Arranged ∧
      (callee.called suffixes).pieces =
        callee.pieces ++ suffixes.map (fun arguments => .suffix (arguments.map Atom.tree)) := by
  induction suffixes generalizing callee with
  | nil => exact ⟨plain, arranged, (List.append_nil _).symm⟩
  | cons arguments suffixes ih =>
    obtain ⟨plain_all, arranged_all, pieces_all⟩ :=
      ih (.call callee (arguments.map Atom.tree) .origin) ⟨rfl, rfl, rfl⟩
        ⟨plain.1, plain.2.1, arranged⟩
    refine ⟨plain_all, arranged_all, pieces_all.trans ?_⟩
    rw [pieces, unplacedAll_trees, List.append_assoc]
    rfl

end Expr

/-- The tree of an operand is arranged, is no operation, and says what the operand says. -/
theorem Operand.tree_spec (operand : Operand) :
    operand.tree.operation? = none ∧ operand.tree.signs = operand.signs.length ∧
      operand.tree.Arranged ∧
      operand.tree.pieces = operand.pieces.map (Piece.map Atom.tree) := by
  obtain ⟨signs, atom, suffixes⟩ := operand
  unfold Operand.tree Operand.pieces
  induction signs with
  | nil =>
    have plain : atom.tree.operation? = none ∧ atom.tree.sign? = none ∧ atom.tree.signs = 0 := by
      cases atom <;> exact ⟨rfl, rfl, rfl⟩
    have arranged : atom.tree.Arranged := by
      cases atom <;> trivial
    have pieces : atom.tree.pieces = [.atom atom.tree] := by
      cases atom <;> rfl
    obtain ⟨plain_all, arranged_all, pieces_all⟩ :=
      Expr.called_spec atom.tree suffixes plain arranged
    refine ⟨plain_all.1, plain_all.2.2, arranged_all, pieces_all.trans ?_⟩
    simp [pieces, Piece.map]
  | cons sign signs ih =>
    obtain ⟨single, count, arranged, pieces⟩ := ih
    refine ⟨rfl, congrArg Nat.succ count, ⟨single, arranged⟩, ?_⟩
    exact congrArg (Piece.sign sign :: ·) pieces

/-- Every chain is arranged by its tree. -/
theorem Chain.arranges_tree (chain : Chain) : chain.Arranges chain.tree := by
  obtain ⟨first, others⟩ := chain
  have grows : ∀ (others : List (String × Operand)) (tree : Expr) (pieces : List (Piece Atom)),
      tree.Arranged → tree.pieces = pieces.map (Piece.map Atom.tree) →
      let grown := others.foldl (fun tree entry => tree.extended entry.1 entry.2.tree) tree
      grown.Arranged ∧ grown.pieces = (pieces ++ others.flatMap fun entry =>
        .between entry.1 :: entry.2.pieces).map (Piece.map Atom.tree) := by
    intro others
    induction others with
    | nil =>
      intro tree pieces arranged same
      exact ⟨arranged, by simpa using same⟩
    | cons entry others ih =>
      intro tree pieces arranged same
      obtain ⟨operator, operand⟩ := entry
      obtain ⟨single, -, arranged_operand, said⟩ := operand.tree_spec
      have extended : (tree.extended operator operand.tree).pieces =
          (pieces ++ .between operator :: operand.pieces).map (Piece.map Atom.tree) := by
        rw [Expr.pieces_extended, same, said]
        simp [Piece.map]
      have onward := ih _ _ (Expr.arranged_extended arranged arranged_operand single) extended
      simpa using onward
  obtain ⟨-, -, arranged, said⟩ := first.tree_spec
  obtain ⟨arranged_all, said_all⟩ := grows others first.tree first.pieces arranged said
  exact ⟨said_all, arranged_all⟩

/-- The tree of a chain has no more operators before an operand than the chain has. -/
theorem Chain.signs_tree {chain : Chain} (proper : chain.Proper) : chain.tree.signs ≤ 90 := by
  obtain ⟨first, others⟩ := chain
  obtain ⟨proper_first, proper_others⟩ := proper
  have grows : ∀ (others : List (String × Operand)) (tree : Expr),
      (∀ entry ∈ others, entry.2.signs.length ≤ 90) → tree.signs ≤ 90 →
      (others.foldl (fun tree entry => tree.extended entry.1 entry.2.tree) tree).signs ≤ 90 := by
    intro others
    induction others with
    | nil => exact fun tree _ here => here
    | cons entry others ih =>
      intro tree few here
      obtain ⟨few_first, few_others⟩ := List.forall_mem_cons.mp few
      refine ih _ few_others ?_
      rw [Expr.signs_extended, entry.2.tree_spec.2.1]
      exact Nat.max_le.mpr ⟨here, few_first⟩
  refine grows others first.tree (fun entry found => (proper_others entry found).2.2.1) ?_
  rw [first.tree_spec.2.1]
  exact proper_first.2.1

end ExprLang
