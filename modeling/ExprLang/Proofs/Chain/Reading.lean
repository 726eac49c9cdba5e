import ExprLang.Proofs.Chain.Spelling
import ExprLang.Proofs.RoundTrip.Reading

/-!
# Parsing a chain

The lexemes of a chain have a reading with every tree that arranges the chain, so parsing gives
the only such tree (`parse_chain`). What an operation has on its left is not read by itself: the
reading of an expression is given in front of all operators behind it, and an operator behind it
that binds tighter than its root cannot follow.
-/

namespace ExprLang

open ExprLang.Parser

/-- The written piece can stand in a source. -/
def Piece.Proper : Piece Atom → Prop
  | .sign operator => operator ∈ ["-", "!"]
  | .atom value => value.Proper
  | .suffix arguments => ∀ atom ∈ arguments, atom.Proper
  | .between operator => operator ∈ ["+", "-", "*", "/", "<", ">", "==", "!="]

/-- The tokens of written pieces at the fixed place. -/
def Piece.tokens (pieces : List (Piece Atom)) : List Token :=
  (pieces.flatMap Piece.lexemes).map Lexeme.placed

/-- Pieces one behind the other. -/
theorem Piece.tokens_append (pieces more : List (Piece Atom)) :
    Piece.tokens (pieces ++ more) = Piece.tokens pieces ++ Piece.tokens more := by
  unfold Piece.tokens
  rw [List.flatMap_append, List.map_append]

/-- The pieces of an operand can stand in a source. -/
theorem Operand.Proper.pieces {operand : Operand} (proper : operand.Proper) :
    ∀ piece ∈ operand.pieces, piece.Proper := by
  intro piece found
  obtain ⟨listed, -, atom, suffixes⟩ := proper
  rcases List.mem_append.mp found with sign | behind
  · obtain ⟨operator, here, rfl⟩ := List.mem_map.mp sign
    exact listed operator here
  · rcases List.mem_cons.mp behind with rfl | suffix
    · exact atom
    · obtain ⟨arguments, here, rfl⟩ := List.mem_map.mp suffix
      exact suffixes arguments here

/-- The pieces of a chain can stand in a source. -/
theorem Chain.Proper.pieces {chain : Chain} (proper : chain.Proper) :
    ∀ piece ∈ chain.pieces, piece.Proper := by
  intro piece found
  obtain ⟨proper_first, proper_others⟩ := proper
  rcases List.mem_append.mp found with first | behind
  · exact proper_first.pieces piece first
  · obtain ⟨⟨operator, operand⟩, listed, inside⟩ := List.mem_flatMap.mp behind
    obtain ⟨known, proper_operand⟩ := proper_others _ listed
    rcases List.mem_cons.mp inside with rfl | inside
    · exact known
    · exact proper_operand.pieces piece inside

/-- The token of an operator between operands binds as the operator does. -/
theorem Precedence.ofKind_operator {operator : String}
    (listed : operator ∈ ["+", "-", "*", "/", "<", ">", "==", "!="]) :
    ofKind (Lexeme.front operator.toList).kind = ofOperator operator ∧
      ofOperator operator < unary ∧ lowest < ofOperator operator := by
  revert operator
  decide

/-! ## Atoms and calls -/

/-- An atom is read as its tree. -/
theorem Atom.reads {atom : Atom} (proper : atom.Proper) (rest : List Token) :
    Reads (.operand atom.tree) 0 (atom.lexeme.placed :: rest) rest := by
  cases atom with
  | name word =>
    rw [Atom.lexeme, Ident.Proper.lexeme proper]
    exact @Reads.name (Lexeme.placed ⟨.identifier, word⟩) rest rfl
  | integer digits =>
    exact @Reads.integer (Lexeme.placed ⟨.integer, digits⟩) rest _ rfl
      (readInteger?_of_digits proper.2.2 proper.1 proper.2.1)
  | boolean value =>
    cases value with
    | true => exact @Reads.boolean (Lexeme.placed (.ofWord "true")) rest (.inl rfl)
    | false => exact @Reads.boolean (Lexeme.placed (.ofWord "false")) rest (.inr rfl)

/-- An atom before a comma or a closing parenthesis is read as an argument. -/
theorem Atom.reads_argument {atom : Atom} (proper : atom.Proper) {rest : List Token}
    (looser : ¬ .lowest < Precedence.ofKind (headKind rest)) :
    Reads (.expression .lowest atom.tree) 1 (atom.lexeme.placed :: rest) rest :=
  .expression (Atom.reads proper rest) (.noOperator looser)

/-- The arguments behind the first are read. -/
theorem Atom.reads_more {atoms : List Atom} (proper : ∀ atom ∈ atoms, atom.Proper)
    (rest : List Token) :
    ∃ levels, levels ≤ 1 ∧ Reads (.moreArguments (atoms.map Atom.tree)) levels
      (((atoms.map fun atom => [atom.lexeme]).flatMap (.ofSingle ',' :: ·)).map Lexeme.placed ++
        Lexeme.placed (.ofSingle ')') :: rest) rest := by
  induction atoms with
  | nil => exact ⟨0, Nat.zero_le 1, .lastArgument rfl⟩
  | cons atom atoms ih =>
    obtain ⟨first, others⟩ := List.forall_mem_cons.mp proper
    obtain ⟨levels, few, more⟩ := ih others
    refine ⟨max 1 levels, Nat.max_le.mpr ⟨Nat.le_refl 1, few⟩, ?_⟩
    exact @Reads.nextArgument (Lexeme.placed (.ofSingle ',')) _ _ _ _ _ _ _ rfl
      (Atom.reads_argument first (Lexeme.arguments_stop _ _ rest)) more

/-- Arguments are read behind their opening parenthesis. -/
theorem Atom.reads_all {atoms : List Atom} (proper : ∀ atom ∈ atoms, atom.Proper)
    (rest : List Token) :
    ∃ levels, levels ≤ 1 ∧ Reads (.arguments (atoms.map Atom.tree)) levels
      ((Atom.lexemesAll atoms).map Lexeme.placed ++ Lexeme.placed (.ofSingle ')') :: rest)
      rest := by
  cases atoms with
  | nil => exact ⟨0, Nat.zero_le 1, .noArgument rfl⟩
  | cons atom atoms =>
    obtain ⟨first, others⟩ := List.forall_mem_cons.mp proper
    obtain ⟨levels, few, more⟩ := Atom.reads_more others rest
    exact ⟨max 1 levels, Nat.max_le.mpr ⟨Nat.le_refl 1, few⟩,
      .arguments (Atom.reads_argument first (Lexeme.arguments_stop _ _ rest)) more⟩

/-- A single written piece that means an atom. -/
theorem Piece.atom_of_map {pieces : List (Piece Atom)} {value : Expr}
    (said : [Piece.atom value] = pieces.map (Piece.map Atom.tree)) :
    ∃ atom : Atom, pieces = [.atom atom] ∧ atom.tree = value := by
  obtain ⟨piece, rfl, same⟩ := List.map_eq_singleton_iff.mp said.symm
  cases piece with
  | atom atom => exact ⟨atom, rfl, Piece.atom.inj same⟩
  | sign => cases same
  | suffix => cases same
  | between => cases same

namespace Expr

/-- An atom with calls is read in front of all operators that follow. -/
theorem reads_called {value : Expr} (arranged : value.Arranged)
    (single : value.operation? = none) (plain : value.sign? = none)
    {written : List (Piece Atom)} (proper : ∀ piece ∈ written, piece.Proper)
    (said : value.pieces = written.map (Piece.map Atom.tree)) {above : Precedence} {far : Nat}
    {rest last : List Token} {final : Expr} (below : above < .call)
    (behind : Reads (.operators above value.unplaced final) far rest last) :
    ∃ levels, levels ≤ max 2 (far + 1) ∧
      Reads (.expression above final) levels (Piece.tokens written ++ rest) last := by
  fun_induction pieces value generalizing written far rest with
  | case1 => cases plain
  | case2 => cases single
  | case3 callee arguments position ih =>
    obtain ⟨single_callee, plain_callee, arranged_callee⟩ := arranged
    obtain ⟨front, back, rfl, said_front, said_back⟩ := List.append_eq_map_iff.mp said
    obtain ⟨piece, rfl, same⟩ := List.map_eq_singleton_iff.mp said_back
    have proper_front : ∀ piece ∈ front, piece.Proper := fun piece found =>
      proper piece (List.mem_append_left _ found)
    have proper_piece := proper piece (List.mem_append_right _ List.mem_cons_self)
    cases piece with
    | suffix atoms =>
      have meant := Piece.suffix.inj same
      obtain ⟨near, few, read⟩ := Atom.reads_all proper_piece rest
      rw [unplaced, ← meant] at behind
      have called := @Reads.call above (Lexeme.placed (.ofSingle '(')) _ _ _ _ _ _ _ _ below rfl
        read behind
      obtain ⟨levels, enough, whole⟩ := ih arranged_callee single_callee plain_callee proper_front
        said_front.symm called
      refine ⟨levels, by omega, ?_⟩
      have tokens : Piece.tokens (front ++ [.suffix atoms]) ++ rest = Piece.tokens front ++
          Lexeme.placed (.ofSingle '(') :: ((Atom.lexemesAll atoms).map Lexeme.placed ++
            Lexeme.placed (.ofSingle ')') :: rest) := by
        rw [Piece.tokens_append]
        simp [Piece.tokens, Piece.lexemes]
      rw [tokens]
      exact whole
    | sign => cases same
    | atom => cases same
    | between => cases same
  | case4 value =>
    obtain ⟨atom, rfl, same⟩ := Piece.atom_of_map said
    rw [← same] at behind
    exact ⟨_, by omega, .expression (Atom.reads (proper _ List.mem_cons_self) rest) behind⟩

/-- An operand is read in front of operators that bind looser than those before it. -/
theorem reads_signed {value : Expr} (arranged : value.Arranged) (single : value.operation? = none)
    {written : List (Piece Atom)} (proper : ∀ piece ∈ written, piece.Proper)
    (said : value.pieces = written.map (Piece.map Atom.tree)) {above : Precedence} {far : Nat}
    {rest last : List Token} {final : Expr} (below : above < .call)
    (looser : ¬ .unary < Precedence.ofKind (headKind rest))
    (behind : Reads (.operators above value.unplaced final) far rest last) :
    ∃ levels, levels ≤ max (value.signs + 2) (far + 1) ∧
      Reads (.expression above final) levels (Piece.tokens written ++ rest) last := by
  fun_induction pieces value generalizing written above far final last with
  | case1 operator operand position ih =>
    obtain ⟨single_operand, arranged_operand⟩ := arranged
    obtain ⟨piece, back, rfl, same, said_back⟩ := List.map_eq_cons_iff.mp said.symm
    obtain ⟨proper_piece, proper_back⟩ := List.forall_mem_cons.mp proper
    cases piece with
    | sign written =>
      obtain rfl : written = operator := Piece.sign.inj same
      obtain ⟨kind, text⟩ := unary_sign proper_piece
      obtain ⟨near, few, inner⟩ := ih arranged_operand single_operand proper_back said_back.symm
        (by decide) (.noOperator looser)
      refine ⟨_, ?_, .expression (.unary_placed kind text inner) behind⟩
      rw [signs]
      omega
    | atom => cases same
    | suffix => cases same
    | between => cases same
  | case2 => cases single
  | case3 callee arguments position =>
    obtain ⟨levels, enough, whole⟩ := reads_called arranged rfl rfl proper said below behind
    exact ⟨levels, by omega, whole⟩
  | case4 value =>
    obtain ⟨atom, rfl, same⟩ := Piece.atom_of_map said
    rw [← same] at behind
    exact ⟨_, by omega, .expression (Atom.reads (proper _ List.mem_cons_self) rest) behind⟩

/-- An arranged tree is read in front of operators that do not bind tighter than its root. -/
theorem reads_arranged {value : Expr} (arranged : value.Arranged)
    {written : List (Piece Atom)} (proper : ∀ piece ∈ written, piece.Proper)
    (said : value.pieces = written.map (Piece.map Atom.tree)) {above : Precedence} {far : Nat}
    {rest last : List Token} {final : Expr} (below : above < .unary)
    (looser : ¬ .unary < Precedence.ofKind (headKind rest))
    (root : ∀ operator ∈ value.operation?, above < .ofOperator operator ∧
      ¬ Precedence.ofOperator operator < .ofKind (headKind rest))
    (behind : Reads (.operators above value.unplaced final) far rest last) :
    ∃ levels, levels ≤ max (value.signs + 7 - above.rank) (far + 1) ∧
      Reads (.expression above final) levels (Piece.tokens written ++ rest) last := by
  have low : above.rank < 6 := below
  have below_call : above < .call := Nat.lt_succ_of_lt low
  fun_induction pieces value generalizing written above far rest final last with
  | case2 operator left right position ih_left ih_right =>
    obtain ⟨looser_left, tighter_right, arranged_left, arranged_right⟩ := arranged
    obtain ⟨binds, follows⟩ := root operator rfl
    obtain ⟨front, _, rfl, said_front, said_behind⟩ := List.append_eq_map_iff.mp said
    obtain ⟨piece, back, rfl, same, said_back⟩ := List.map_eq_cons_iff.mp said_behind
    obtain ⟨proper_front, proper_behind⟩ := List.forall_mem_append.mp proper
    obtain ⟨proper_piece, proper_back⟩ := List.forall_mem_cons.mp proper_behind
    cases piece with
    | between sign =>
      obtain rfl : sign = operator := Piece.between.inj same
      obtain ⟨precedence, loose, -⟩ := Precedence.ofKind_operator proper_piece
      obtain ⟨-, -, kind, text⟩ := binary_sign proper_piece
      have rank : (Precedence.ofOperator sign).rank < 6 := loose
      -- the right operand, in front of the operators that are left to the whole
      have root_right : ∀ inner ∈ right.operation?,
          Precedence.ofOperator sign < .ofOperator inner ∧
            ¬ Precedence.ofOperator inner < .ofKind (headKind rest) := fun inner found =>
        ⟨tighter_right inner found,
          fun late => follows (Nat.lt_trans (tighter_right inner found) late)⟩
      obtain ⟨near, few, operand⟩ := ih_right arranged_right proper_back said_back.symm loose
        looser root_right (.noOperator follows) rank (Nat.lt_succ_of_lt rank)
      -- the left operand, in front of the operator
      have next : Precedence.ofKind (headKind (Lexeme.placed (.front sign.toList) ::
          (Piece.tokens back ++ rest))) = .ofOperator sign := precedence
      have root_left : ∀ inner ∈ left.operation?, above < .ofOperator inner ∧
          ¬ Precedence.ofOperator inner < .ofKind (headKind (Lexeme.placed (.front sign.toList) ::
            (Piece.tokens back ++ rest))) := by
        intro inner found
        rw [next]
        exact ⟨Nat.lt_of_lt_of_le binds (Nat.le_of_not_lt (looser_left inner found)),
          looser_left inner found⟩
      have looser_next : ¬ .unary < Precedence.ofKind (headKind
          (Lexeme.placed (.front sign.toList) :: (Piece.tokens back ++ rest))) := by
        rw [next]
        exact Nat.lt_asymm loose
      rw [← precedence] at operand
      have operation := Reads.binary_placed (precedence ▸ binds) kind text operand behind
      obtain ⟨levels, enough, whole⟩ := ih_left arranged_left proper_front said_front.symm below
        looser_next root_left operation low below_call
      refine ⟨levels, ?_, ?_⟩
      · rw [signs]
        have higher : above.rank < (Precedence.ofOperator sign).rank := binds
        omega
      · have tokens : Piece.tokens (front ++ .between sign :: back) ++ rest =
            Piece.tokens front ++ Lexeme.placed (.front sign.toList) ::
              (Piece.tokens back ++ rest) := by
          rw [Piece.tokens_append]
          simp [Piece.tokens, Piece.lexemes]
        rw [tokens]
        exact whole
    | sign => cases same
    | atom => cases same
    | suffix => cases same
  | case1 operator operand position =>
    obtain ⟨levels, enough, whole⟩ :=
      reads_signed arranged rfl proper said below_call looser behind
    exact ⟨levels, by omega, whole⟩
  | case3 callee arguments position =>
    obtain ⟨levels, enough, whole⟩ :=
      reads_called arranged rfl rfl proper said below_call behind
    exact ⟨levels, by omega, whole⟩
  | case4 value =>
    obtain ⟨atom, rfl, same⟩ := Piece.atom_of_map said
    rw [← same] at behind
    exact ⟨_, by omega, .expression (Atom.reads (proper _ List.mem_cons_self) rest) behind⟩

end Expr

/-! ## Parsing -/

/-- A chain has a token. -/
theorem Chain.lexemes_ne_nil (chain : Chain) : chain.lexemes ≠ [] := by
  unfold Chain.lexemes Chain.pieces Operand.pieces
  simp [Piece.lexemes]

/-- The lexemes of a chain have a reading with every tree that arranges the chain. -/
theorem Chain.Arranges.reads {chain : Chain} {tree : Expr} (arranges : chain.Arranges tree)
    (proper : chain.Proper) :
    ∃ levels, levels ≤ tree.signs + 6 ∧ ReadsProgram levels (chain.lexemes.map Lexeme.placed)
      [.expression tree.unplaced .origin] := by
  obtain ⟨said, arranged⟩ := arranges
  have looser : ∀ above, ¬ above < Precedence.ofKind (headKind []) := Precedence.not_lt_lowest
  have all_operators : ∀ operator ∈ tree.operation?, Precedence.lowest < .ofOperator operator ∧
      ¬ Precedence.ofOperator operator < .ofKind (headKind []) := by
    intro operator found
    refine ⟨?_, looser _⟩
    cases tree with
    | binary root left right position =>
      obtain rfl := Option.some.inj found
      have listed : Piece.between root ∈ chain.pieces.map (Piece.map Atom.tree) := by
        rw [← said]
        exact List.mem_append_right _ List.mem_cons_self
      obtain ⟨piece, here, same⟩ := List.mem_map.mp listed
      have known := proper.pieces piece here
      cases piece with
      | between sign =>
        obtain rfl : sign = root := Piece.between.inj same
        exact (Precedence.ofKind_operator known).2.2
      | sign => cases same
      | atom => cases same
      | suffix => cases same
    | _ => exact absurd found nofun
  obtain ⟨levels, enough, whole⟩ := Expr.reads_arranged arranged proper.pieces said (by decide)
    (looser _) all_operators (.noOperator (looser _))
  rw [List.append_nil] at whole
  obtain ⟨lexeme, behind, lexemes⟩ := List.exists_cons_of_ne_nil chain.lexemes_ne_nil
  have tokens : Piece.tokens chain.pieces = lexeme.placed :: behind.map Lexeme.placed :=
    congrArg (List.map Lexeme.placed) lexemes
  rw [tokens] at whole
  refine ⟨max levels 0, ?_, ?_⟩
  · have rank : Precedence.lowest.rank = 1 := rfl
    omega
  · rw [lexemes]
    exact .next (.unterminated whole nofun) .done

/-- A program that differs in positions from one expression is one expression. -/
theorem Program.statements_of_same {program : Program} {value : Expr}
    (same : program.same ⟨[.expression value .origin]⟩ = true) :
    ∃ tree position, program.statements = [.expression tree position] ∧
      tree.unplaced = value.unplaced := by
  obtain ⟨statements⟩ := program
  unfold Program.same at same
  rcases statements with _ | ⟨statement, _ | ⟨_, _⟩⟩
  · simp [Stmt.sameAll] at same
  · rcases statement with ⟨_, _, _⟩ | ⟨_ | _, _⟩ | ⟨tree, position⟩ | ⟨_, _, _ | _, _⟩
    · simp [Stmt.sameAll, Stmt.same] at same
    · simp [Stmt.sameAll, Stmt.same] at same
    · simp [Stmt.sameAll, Stmt.same] at same
    · rw [Stmt.sameAll, Stmt.same, Stmt.sameAll, Bool.and_true, Expr.same_iff] at same
      exact ⟨tree, position, rfl, same⟩
    · simp [Stmt.sameAll, Stmt.same] at same
    · simp [Stmt.sameAll, Stmt.same] at same
  · simp [Stmt.sameAll] at same

namespace Parser

/-- Every source that spells a chain, with blanks anywhere, is parsed as one expression without a
diagnostic. Its tree arranges the chain, and every tree that does so is this one but for
positions. -/
theorem parse_spelled_chain {source : String} {chain : Chain} (proper : chain.Proper)
    (spells : Spells source.toList chain.lexemes) :
    ∃ parsed tree position, parse source = .ok parsed ∧ parsed.diagnostics = [] ∧
      parsed.program.statements = [.expression tree position] ∧ chain.Arranges tree ∧
      ∀ other, chain.Arranges other → other.same tree = true := by
  have nonempty : source ≠ "" := by
    intro empty
    rw [empty] at spells
    exact chain.lexemes_ne_nil spells.of_nil
  obtain ⟨levels, enough, reads⟩ := chain.arranges_tree.reads proper
  have few := chain.signs_tree proper
  have room : levels ≤ maxNesting := Nat.le_trans enough (by unfold maxNesting; omega)
  obtain ⟨parsed, ran, same, clean⟩ := parse_spelled nonempty spells reads room
  obtain ⟨tree, position, statements, unplaced⟩ := Program.statements_of_same same
  rw [Expr.unplaced_unplaced] at unplaced
  refine ⟨parsed, tree, position, ran, clean, statements,
    chain.arranges_tree.of_unplaced unplaced, fun other arranges => ?_⟩
  obtain ⟨_, -, reads_other⟩ := arranges.reads proper
  have same_other := parse_spelled_clean nonempty spells ran clean reads_other
  obtain ⟨_, _, statements_other, unplaced_other⟩ :=
    Program.statements_of_same same_other
  rw [statements] at statements_other
  obtain ⟨rfl, rfl⟩ := Stmt.expression.inj (List.cons.inj statements_other).1
  rw [Expr.unplaced_unplaced] at unplaced_other
  exact (Expr.same_iff other tree).mpr unplaced_other.symm

/-- Precedence is right for chains of any length. The text of a chain is parsed as one expression
without a diagnostic, whose tree arranges the chain, and every tree that arranges the chain is this
one but for positions. -/
theorem parse_chain {chain : Chain} (proper : chain.Proper) :
    ∃ parsed tree position, parse chain.text = .ok parsed ∧ parsed.diagnostics = [] ∧
      parsed.program.statements = [.expression tree position] ∧ chain.Arranges tree ∧
      ∀ other, chain.Arranges other → other.same tree = true :=
  parse_spelled_chain proper (Chain.spelled proper)

/-- A chain with all levels of operators, operators before operands and calls. -/
def mixedChain : Chain :=
  ⟨⟨["-", "!"], .name "a", []⟩,
    [("*", ⟨[], .name "b", [[.integer "1", .name "c"], [.boolean true]]⟩),
      ("-", ⟨[], .integer "007", []⟩), ("+", ⟨["-"], .name "d", [[]]⟩),
      ("==", ⟨["!"], .name "e", []⟩), ("<", ⟨[], .boolean false, []⟩)]⟩

/-- The chain with all levels of operators is parsed as the tree that arranges it. -/
theorem parse_chain_mixed :
    mixedChain.Proper ∧
      ∃ parsed tree position, parse mixedChain.text = .ok parsed ∧ parsed.diagnostics = [] ∧
        parsed.program.statements = [.expression tree position] ∧ mixedChain.Arranges tree ∧
        ∀ other, mixedChain.Arranges other → other.same tree = true := by
  have proper : mixedChain.Proper := by decide +kernel
  exact ⟨proper, parse_chain proper⟩

end Parser

end ExprLang
