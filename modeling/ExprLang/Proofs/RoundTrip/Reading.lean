import ExprLang.Proofs.Reading.Extent
import ExprLang.Proofs.Reading.Spelled
import ExprLang.Proofs.RoundTrip.Merge

/-!
# Readings of rendered lexemes

The lexemes of a tree have a reading with the tree in which statements that go on with the next are
merged (`Stmt.reads_program`). It opens as many levels as the rendering of the tree does. An
expression that begins with calls or with another expression does not begin with an operand of its
own, so its reading is given in front of all operators that follow (`Expr.reads_before`), and where
it begins with a parenthesis, also behind another expression (`Expr.reads_behind`).
-/

namespace ExprLang

open ExprLang.Parser

/-- An expression without operators behind it opens the levels of its own. -/
theorem Parser.Reads.alone {above : Precedence} {nesting : Nat} {tokens rest : List Token}
    {value : Expr} (reads : Reads (.expression above value) (max nesting (0 + 1)) tokens rest)
    (positive : 1 ≤ nesting) : Reads (.expression above value) nesting tokens rest :=
  reads.opening (Nat.max_eq_left positive)

/-- An expression opens a level. -/
theorem Expr.nesting_pos (value : Expr) : 1 ≤ value.nesting := by
  cases value with
  | call callee arguments position =>
    rw [nesting]
    exact Nat.le_trans callee.nesting_pos (Nat.le_max_left _ _)
  | _ =>
    unfold nesting
    omega

/-! ## What may follow a statement -/

/-- A statement goes on with no token of a kind. -/
def Stmt.StopsAt (kind : Kind) : Stmt → Prop
  | .expression _ _ => ¬ .lowest < Precedence.ofKind kind ∧ kind ≠ .semicolon
  | .condition _ _ none _ => kind ≠ .elseWord
  | _ => True

/-- How a statement begins: it can be taken for a part of an expression before it only when it is
itself an expression in parentheses. -/
theorem Stmt.begins {statement : Stmt} (writable : statement.Writable) :
    ∃ lexeme behind, statement.lexemes = lexeme :: behind ∧ lexeme.kind ≠ .semicolon ∧
      lexeme.kind ≠ .elseWord ∧ (.lowest < Precedence.ofKind lexeme.kind →
        statement.opens = true) := by
  rcases statement with ⟨_, _, _⟩ | ⟨_ | _, _⟩ | ⟨value, position⟩ | ⟨_, _, _ | _, _⟩
  · exact ⟨_, _, rfl, by decide, by decide, fun tighter => absurd tighter (by decide)⟩
  · exact ⟨_, _, rfl, by decide, by decide, fun tighter => absurd tighter (by decide)⟩
  · exact ⟨_, _, rfl, by decide, by decide, fun tighter => absurd tighter (by decide)⟩
  · rcases value.begins writable with ⟨rendered, lexemes⟩ |
      ⟨_, lexeme, -, lexemes, -, operand, no_paren, no_sign⟩
    · obtain ⟨behind, same⟩ := List.head?_eq_some_iff.mp lexemes
      have opens := (value.opens_iff writable).mpr rendered
      exact ⟨_, behind, same, by decide, by decide, fun _ => opens⟩
    · obtain ⟨behind, same⟩ := List.head?_eq_some_iff.mp lexemes
      refine ⟨_, behind, same, ?_, ?_, fun tighter => ?_⟩
      · intro kind
        rw [kind] at operand
        exact absurd operand (by decide)
      · intro kind
        rw [kind] at operand
        exact absurd operand (by decide)
      · revert operand no_paren no_sign tighter
        cases lexeme.kind <;> simp [Kind.startsOperand, Precedence.ofKind, Precedence.not_lt_lowest]
  · exact ⟨_, _, rfl, by decide, by decide, fun tighter => absurd tighter (by decide)⟩
  · exact ⟨_, _, rfl, by decide, by decide, fun tighter => absurd tighter (by decide)⟩

/-- In a list of statements each one stops at the next, and the last at the end of the list. -/
theorem Stmt.stops {statement : Stmt} {behind : List Stmt}
    (apart : ∀ next ∈ behind.head?, ¬ statement.Merges next) (writable : Stmt.WritableAll behind)
    {rest : List Token} (ends : headKind rest = .rightBrace ∨ headKind rest = .endOfInput) :
    statement.StopsAt (headKind ((Stmt.lexemesAll behind).map Lexeme.placed ++ rest)) := by
  cases behind with
  | nil =>
    rcases ends with kind | kind <;>
      rcases statement with ⟨_, _, _⟩ | ⟨_ | _, _⟩ | ⟨_, _⟩ | ⟨_, _, _ | _, _⟩ <;>
      simp [Stmt.StopsAt, Stmt.lexemesAll, kind, Precedence.ofKind, Precedence.not_lt_lowest]
  | cons next behind =>
    obtain ⟨lexeme, more, lexemes, no_end, no_other, tighter⟩ := Stmt.begins writable.1
    have kind : headKind ((Stmt.lexemesAll (next :: behind)).map Lexeme.placed ++ rest) =
        lexeme.kind := by
      rw [Stmt.lexemesAll, lexemes]
      rfl
    rw [kind]
    rcases statement with ⟨_, _, _⟩ | ⟨_ | _, _⟩ | ⟨value, _⟩ | ⟨_, _, _ | _, _⟩
    · trivial
    · trivial
    · trivial
    · refine ⟨fun binds => ?_, no_end⟩
      exact apart next rfl ((Stmt.merges_iff writable.1).mpr (tighter binds))
    · exact no_other
    · trivial

/-! ## Readings -/

/-- The text of an integer of a source is read as this integer. -/
theorem readInteger?_toString {value : Int} (nonneg : 0 ≤ value)
    (short : (toString value).length ≤ 4300) : readInteger? (toString value) = some value := by
  obtain ⟨number, rfl, text⟩ := nonneg_digits nonneg
  rw [text] at short ⊢
  exact readInteger?_repr short

/-- The operators before an operand. -/
theorem unary_sign {operator : String} (listed : operator ∈ ["-", "!"]) :
    ((Lexeme.front operator.toList).kind = .bang ∨ (Lexeme.front operator.toList).kind = .minus) ∧
      (Lexeme.front operator.toList).text = operator := by
  revert operator
  decide

/-- The operators between operands. -/
theorem binary_sign {operator : String}
    (listed : operator ∈ ["+", "-", "*", "/", "<", ">", "==", "!="]) :
    .lowest < Precedence.ofKind (Lexeme.front operator.toList).kind ∧
      Precedence.ofKind (Lexeme.front operator.toList).kind < .call ∧
      (Lexeme.front operator.toList).kind ≠ .leftParen ∧
      (Lexeme.front operator.toList).text = operator := by
  revert operator
  decide

/-- The names behind the first parameter are read. -/
theorem Ident.reads_more : (idents : List Ident) → (∀ ident ∈ idents, ident.Proper) →
    (rest : List Token) →
    ReadsMoreNames (((idents.map fun ident => [Lexeme.ofWord ident.name]).flatMap
      (.ofSingle ',' :: ·)).map Lexeme.placed ++ Lexeme.placed (.ofSingle ')') :: rest) rest
      (idents.map Ident.unplaced)
  | [], _, _ => .last rfl
  | ident :: idents, proper, rest => by
    obtain ⟨first, others⟩ := List.forall_mem_cons.mp proper
    rw [List.map_cons, List.flatMap_cons, first.lexeme]
    exact .next rfl rfl (Ident.reads_more idents others rest)

/-- Parameters are read. -/
theorem Ident.reads_all {idents : List Ident} (proper : ∀ ident ∈ idents, ident.Proper)
    (rest : List Token) :
    ReadsNames ((Ident.lexemesAll idents).map Lexeme.placed ++
      Lexeme.placed (.ofSingle ')') :: rest) rest (idents.map Ident.unplaced) := by
  cases idents with
  | nil => exact .none rfl
  | cons ident idents =>
    obtain ⟨first, others⟩ := List.forall_mem_cons.mp proper
    rw [Ident.lexemesAll, List.map_cons, Lexeme.commas, first.lexeme]
    exact .some rfl (Ident.reads_more idents others rest)

/-- Behind an argument there is a comma or the closing parenthesis. -/
theorem Lexeme.arguments_stop (above : Precedence) (groups : List (List Lexeme))
    (rest : List Token) :
    ¬ above < .ofKind (headKind ((groups.flatMap (.ofSingle ',' :: ·)).map Lexeme.placed ++
      Lexeme.placed (.ofSingle ')') :: rest)) := by
  cases groups <;> exact Precedence.not_lt_lowest above

/-! ## Operations in parentheses -/

/-- The lexemes of an operation with one operand. -/
theorem Expr.lexemes_unary (operator : String) (operand : Expr) (position : Position)
    (rest : List Token) :
    (Expr.unary operator operand position).lexemes.map Lexeme.placed ++ rest =
      Lexeme.placed (.ofSingle '(') :: Lexeme.placed (.front operator.toList) ::
        (operand.lexemes.map Lexeme.placed ++ Lexeme.placed (.ofSingle ')') :: rest) := by
  simp [Expr.lexemes]

/-- The lexemes of an operation with two operands. -/
theorem Expr.lexemes_binary (operator : String) (left right : Expr) (position : Position)
    (rest : List Token) :
    (Expr.binary operator left right position).lexemes.map Lexeme.placed ++ rest =
      Lexeme.placed (.ofSingle '(') :: (left.lexemes.map Lexeme.placed ++
        Lexeme.placed (.front operator.toList) :: (right.lexemes.map Lexeme.placed ++
          Lexeme.placed (.ofSingle ')') :: rest)) := by
  simp [Expr.lexemes]

/-- The lexemes of a call. -/
theorem Expr.lexemes_call (callee : Expr) (arguments : List Expr) (position : Position)
    (rest : List Token) :
    (Expr.call callee arguments position).lexemes.map Lexeme.placed ++ rest =
      callee.lexemes.map Lexeme.placed ++ Lexeme.placed (.ofSingle '(') ::
        ((Lexeme.commas (Expr.lexemesEach arguments)).map Lexeme.placed ++
          Lexeme.placed (.ofSingle ')') :: rest) := by
  simp [Expr.lexemes]

section

variable {above : Precedence} {operator : String} {levels far : Nat}
variable {tokens rest last : List Token} {left right value final : Expr}

/-- An operation with one operand, up to a parenthesis. -/
theorem Parser.Reads.unary_inside (listed : operator ∈ ["-", "!"])
    (operand : Reads (.expression .unary value) levels tokens
      (Lexeme.placed (.ofSingle ')') :: rest)) :
    Reads (.expression .lowest (.unary operator value .origin)) (levels + 1)
      (Lexeme.placed (.front operator.toList) :: tokens)
      (Lexeme.placed (.ofSingle ')') :: rest) := by
  obtain ⟨kind, text⟩ := unary_sign listed
  have inside : Reads (.expression .lowest (.unary operator value .origin)) _ _
      (Lexeme.placed (.ofSingle ')') :: rest) :=
    .expression (.unary_placed kind text operand) (.noOperator (Precedence.not_lt_lowest _))
  exact inside.opening (by omega)

/-- An operator with its right operand, up to a parenthesis. -/
theorem Parser.Reads.binary_inside
    (listed : operator ∈ ["+", "-", "*", "/", "<", ">", "==", "!="])
    (operand : Reads (.expression (.ofKind (Lexeme.front operator.toList).kind) right) levels tokens
      (Lexeme.placed (.ofSingle ')') :: rest)) :
    Reads (.operators .lowest left (.binary operator left right .origin)) levels
      (Lexeme.placed (.front operator.toList) :: tokens)
      (Lexeme.placed (.ofSingle ')') :: rest) := by
  obtain ⟨binds, -, kind, text⟩ := binary_sign listed
  have operation : Reads (.operators .lowest left (.binary operator left right .origin)) _ _ _ :=
    .binary_placed binds kind text operand (.noOperator (Precedence.not_lt_lowest _))
  exact operation.opening (Nat.max_zero levels)

/-- What is in parentheses is an operand in front of operators. -/
theorem Parser.Reads.grouped_before
    (inside : Reads (.expression .lowest value) levels tokens
      (Lexeme.placed (.ofSingle ')') :: rest))
    (behind : Reads (.operators above value final) far rest last) :
    Reads (.expression above final) (max levels far + 1)
      (Lexeme.placed (.ofSingle '(') :: tokens) last := by
  have grouped := @Reads.grouped (Lexeme.placed (.ofSingle '(')) _ _ _ _ _ rfl inside rfl
  exact .expression grouped behind

/-- What is in parentheses is an argument behind an expression. -/
theorem Parser.Reads.grouped_behind (below : above < .call)
    (inside : Reads (.expression .lowest value) levels tokens
      (Lexeme.placed (.ofSingle ')') :: rest))
    (behind : Reads (.operators above (.call left [value] .origin) final) far rest last) :
    Reads (.operators above left final) (max levels far)
      (Lexeme.placed (.ofSingle '(') :: tokens) last := by
  have arguments : Reads (.arguments [value]) (max levels 0) tokens rest :=
    .arguments inside (.lastArgument rfl)
  rw [Nat.max_zero] at arguments
  exact @Reads.call above (Lexeme.placed (.ofSingle '(')) _ _ _ _ _ left _ _ below rfl arguments
    behind

end

/-! ## Trees -/

/-- An expression goes on with the statements that begin with a parenthesis, and the others are
read behind it. -/
def Stmt.GoesOn (statements : List Stmt) (tokens rest : List Token) : Prop :=
  ∀ (left : Expr) (position : Position), ∃ final behind far near middle,
    (Stmt.expression left position).before (Stmt.mergedAll statements) =
        .expression final position :: behind ∧
      Reads (.operators .lowest left.unplaced final.unplaced) far tokens middle ∧
      Reads (.statements (Stmt.unplacedAll behind)) near middle rest ∧
      headKind middle ≠ .semicolon ∧ max (far + 1) near = max 1 (Stmt.nestingAll statements)

/-- Without anything to go on with, an expression ends in front of the statements. -/
theorem Stmt.GoesOn.of_closed {statements : List Stmt} {rest last : List Token}
    (writable : Stmt.WritableAll statements)
    (closed : ∀ next ∈ statements.head?, next.opens = false) (ends : headKind rest = .rightBrace)
    (reads : Reads (.statements (Stmt.unplacedAll (Stmt.mergedAll statements)))
      (Stmt.nestingAll statements) ((Stmt.lexemesAll statements).map Lexeme.placed ++ rest) last) :
    Stmt.GoesOn statements ((Stmt.lexemesAll statements).map Lexeme.placed ++ rest) last := by
  intro left position
  have apart : ∀ next ∈ statements.head?, ¬ (Stmt.expression left position).Merges next := by
    intro next found merges
    obtain ⟨others, rfl⟩ := List.head?_eq_some_iff.mp found
    rw [Stmt.merges_iff writable.1, closed next found] at merges
    cases merges
  obtain ⟨looser, no_end⟩ := Stmt.stops apart writable (.inl ends)
  exact ⟨left, _, 0, _, _, Stmt.before_of_closed _ (Stmt.mergedAll_begins closed),
    .noOperator looser, reads, no_end, rfl⟩

mutual

/-- An expression is read in front of all operators that follow. -/
theorem Expr.reads_before : (value : Expr) → value.Writable →
    ∀ {above : Precedence} {far : Nat} {rest last : List Token} {final : Expr}, above < .call →
      Reads (.operators above value.merged.unplaced final) far rest last →
      Reads (.expression above final) (max value.nesting (far + 1))
        (value.lexemes.map Lexeme.placed ++ rest) last
  | .name ident, writable, _, far, _, _, _, _, behind => by
    rw [Expr.lexemes, Ident.Proper.lexeme writable]
    exact (Reads.expression (.name rfl) behind).opening (by simp [Expr.nesting])
  | .integer value _, writable, _, far, rest, _, _, _, behind => by
    have readable := readInteger?_toString writable.1 writable.2
    have operand := @Reads.integer (Lexeme.placed ⟨.integer, toString value⟩) rest _ rfl readable
    exact (Reads.expression operand behind).opening (by simp [Expr.nesting])
  | .boolean true _, _, _, far, _, _, _, _, behind =>
    (Reads.expression (.boolean (.inl rfl)) behind).opening (by simp [Expr.nesting])
  | .boolean false _, _, _, far, _, _, _, _, behind =>
    (Reads.expression (.boolean (.inr rfl)) behind).opening (by simp [Expr.nesting])
  | .unary operator operand position, ⟨listed, writable⟩, above, far, rest, _, _, _, behind => by
    have inner : Reads (.expression .unary operand.merged.unplaced) _ _
        (Lexeme.placed (.ofSingle ')') :: rest) :=
      (operand.reads_before writable (by decide)
        (.noOperator (Precedence.not_lt_lowest _))).alone operand.nesting_pos
    rw [Expr.lexemes_unary]
    exact ((Reads.unary_inside listed inner).grouped_before behind).opening (by
      rw [Expr.nesting]
      omega)
  | .binary operator left right position, ⟨listed, writable_left, writable_right⟩, above, far, rest,
      _, _, _, behind => by
    obtain ⟨-, looser, -, -⟩ := binary_sign listed
    have inner : Reads (.expression (.ofKind (Lexeme.front operator.toList).kind)
        right.merged.unplaced) _ _ (Lexeme.placed (.ofSingle ')') :: rest) :=
      (right.reads_before writable_right looser
        (.noOperator (Precedence.not_lt_lowest _))).alone right.nesting_pos
    -- the left operand is not alone: it is read in front of the operator
    have inside := left.reads_before writable_left (by decide) (Reads.binary_inside listed inner)
    have positive := right.nesting_pos
    rw [Expr.lexemes_binary]
    exact (inside.grouped_before behind).opening (by
      rw [Expr.nesting]
      omega)
  | .call callee arguments position, ⟨writable_callee, writable⟩, above, far, rest, _, _, below,
      behind => by
    rw [Expr.lexemes_call]
    have called := @Reads.call above (Lexeme.placed (.ofSingle '(')) _ _ _ _ _
      callee.merged.unplaced _ _ below rfl (Expr.reads_arguments arguments writable rest) behind
    exact (callee.reads_before writable_callee below called).opening (by
      rw [Expr.nesting]
      omega)
  | .function parameters body position, ⟨named, writable⟩, above, far, rest, _, _, _, behind => by
    have lexemes : (Expr.function parameters body position).lexemes.map Lexeme.placed ++ rest =
        Lexeme.placed (.ofWord "fn") :: Lexeme.placed (.ofSingle '(') ::
          ((Ident.lexemesAll parameters).map Lexeme.placed ++ Lexeme.placed (.ofSingle ')') ::
            Lexeme.placed (.ofSingle '{') :: ((Stmt.lexemesAll body).map Lexeme.placed ++
              Lexeme.placed (.ofSingle '}') :: rest)) := by
      simp [Expr.lexemes]
    rw [lexemes]
    have block : Reads (.block (Stmt.unplacedAll (Stmt.mergedAll body))) _ _ rest :=
      .block (Stmt.reads_all body writable rest).1
    exact (Reads.expression (.function rfl rfl (Ident.reads_all named _) rfl block) behind).opening
      (by
        rw [Expr.nesting]
        omega)
  | .missing _, writable, _, _, _, _, _, _, _ => absurd writable id

/-- An expression that begins with a parenthesis is read behind another one, as arguments of its
calls. -/
theorem Expr.reads_behind : (value : Expr) → value.Writable → value.opens = true →
    ∀ {left : Expr} {above : Precedence} {far : Nat} {rest last : List Token} {final : Expr},
      above < .call →
      Reads (.operators above (left.graft value.merged.unplaced) final) far rest last →
      Reads (.operators above left final) (max (value.nesting - 1) far)
        (value.lexemes.map Lexeme.placed ++ rest) last
  | .unary operator operand position, ⟨listed, writable⟩, _, left, above, far, rest, _, _, below,
      behind => by
    have inner : Reads (.expression .unary operand.merged.unplaced) _ _
        (Lexeme.placed (.ofSingle ')') :: rest) :=
      (operand.reads_before writable (by decide)
        (.noOperator (Precedence.not_lt_lowest _))).alone operand.nesting_pos
    rw [Expr.lexemes_unary]
    exact ((Reads.unary_inside listed inner).grouped_behind below behind).opening (by
      rw [Expr.nesting]
      omega)
  | .binary operator first right position, ⟨listed, writable_left, writable_right⟩, _, left, above,
      far, rest, _, _, below, behind => by
    obtain ⟨-, looser, -, -⟩ := binary_sign listed
    have inner : Reads (.expression (.ofKind (Lexeme.front operator.toList).kind)
        right.merged.unplaced) _ _ (Lexeme.placed (.ofSingle ')') :: rest) :=
      (right.reads_before writable_right looser
        (.noOperator (Precedence.not_lt_lowest _))).alone right.nesting_pos
    have inside := first.reads_before writable_left (by decide) (Reads.binary_inside listed inner)
    have positive := right.nesting_pos
    rw [Expr.lexemes_binary]
    exact (inside.grouped_behind below behind).opening (by
      rw [Expr.nesting]
      omega)
  | .call callee arguments position, ⟨writable_callee, writable⟩, opens, left, above, far, rest, _,
      _, below, behind => by
    rw [Expr.lexemes_call]
    have called := @Reads.call above (Lexeme.placed (.ofSingle '(')) _ _ _ _ _
      (left.graft callee.merged.unplaced) _ _ below rfl
      (Expr.reads_arguments arguments writable rest) behind
    exact (callee.reads_behind writable_callee opens below called).opening (by
      rw [Expr.nesting]
      omega)

/-- The arguments behind the first are read. -/
theorem Expr.reads_more : (values : List Expr) → Expr.WritableAll values → (rest : List Token) →
    Reads (.moreArguments (Expr.unplacedAll (Expr.mergedEach values))) (Expr.nestingAll values)
      (((Expr.lexemesEach values).flatMap (.ofSingle ',' :: ·)).map Lexeme.placed ++
        Lexeme.placed (.ofSingle ')') :: rest) rest
  | [], _, _ => .lastArgument rfl
  | value :: values, ⟨first, others⟩, rest => by
    rw [Expr.lexemesEach, List.flatMap_cons, List.cons_append, List.map_cons, List.map_append,
      List.cons_append, List.append_assoc]
    exact .nextArgument rfl ((value.reads_before first (by decide)
      (.noOperator (Lexeme.arguments_stop _ _ rest))).alone value.nesting_pos)
      (Expr.reads_more values others rest)

/-- Arguments are read. -/
theorem Expr.reads_arguments : (values : List Expr) → Expr.WritableAll values →
    (rest : List Token) →
    Reads (.arguments (Expr.unplacedAll (Expr.mergedEach values))) (Expr.nestingAll values)
      ((Lexeme.commas (Expr.lexemesEach values)).map Lexeme.placed ++
        Lexeme.placed (.ofSingle ')') :: rest) rest
  | [], _, _ => .noArgument rfl
  | value :: values, ⟨first, others⟩, rest => by
    rw [Expr.lexemesEach, Lexeme.commas, List.map_append, List.append_assoc]
    exact .arguments ((value.reads_before first (by decide)
      (.noOperator (Lexeme.arguments_stop _ _ rest))).alone value.nesting_pos)
      (Expr.reads_more values others rest)

/-- A statement is read in front of a token at which it stops. -/
theorem Stmt.reads : (statement : Stmt) → statement.Writable → ∀ {rest : List Token},
    statement.StopsAt (headKind rest) →
    Reads (.statement statement.merged.unplaced) statement.nesting
      (statement.lexemes.map Lexeme.placed ++ rest) rest
  | .binding target value position, ⟨named, writable⟩, rest, _ => by
    have lexemes : (Stmt.binding target value position).lexemes.map Lexeme.placed ++ rest =
        Lexeme.placed (.ofWord "let") :: Lexeme.placed (.ofWord target.name) ::
          Lexeme.placed (.ofSingle '=') :: (value.lexemes.map Lexeme.placed ++
            Lexeme.placed (.ofSingle ';') :: rest) := by
      simp [Stmt.lexemes]
    rw [lexemes, named.lexeme]
    have inside : Reads (.expression .lowest value.merged.unplaced) _ _
        (Lexeme.placed (.ofSingle ';') :: rest) :=
      (value.reads_before writable (by decide)
        (.noOperator (Precedence.not_lt_lowest _))).alone value.nesting_pos
    exact @Reads.binding (Lexeme.placed (.ofWord "let")) (Lexeme.placed ⟨.identifier, target.name⟩)
      (Lexeme.placed (.ofSingle '=')) _ _ _ _ _ rfl rfl rfl inside rfl
  | .result none _, _, rest, _ =>
    @Reads.bareResult (Lexeme.placed (.ofWord "return")) (Lexeme.placed (.ofSingle ';')) rest
      rfl rfl
  | .result (some value) position, writable, rest, _ => by
    have lexemes : (Stmt.result (some value) position).lexemes.map Lexeme.placed ++ rest =
        Lexeme.placed (.ofWord "return") :: (value.lexemes.map Lexeme.placed ++
          Lexeme.placed (.ofSingle ';') :: rest) := by
      simp [Stmt.lexemes]
    rw [lexemes]
    have inside : Reads (.expression .lowest value.merged.unplaced) _ _
        (Lexeme.placed (.ofSingle ';') :: rest) :=
      (value.reads_before writable (by decide)
        (.noOperator (Precedence.not_lt_lowest _))).alone value.nesting_pos
    exact @Reads.result (Lexeme.placed (.ofWord "return")) _ _ _ _ _ rfl inside rfl
  | .expression value position, writable, rest, ⟨looser, no_end⟩ => by
    have inside := (value.reads_before writable (by decide) (.noOperator looser)).alone
      value.nesting_pos
    obtain ⟨lexeme, behind, lexemes, -⟩ := Stmt.begins
      (show (Stmt.expression value position).Writable from writable)
    rw [Stmt.lexemes] at lexemes ⊢
    rw [lexemes] at inside ⊢
    exact .unterminated inside no_end
  | .condition test consequence none position, ⟨writable, writable_first⟩, rest, no_other => by
    have lexemes : (Stmt.condition test consequence none position).lexemes.map Lexeme.placed ++
        rest = Lexeme.placed (.ofWord "if") :: Lexeme.placed (.ofSingle '(') ::
          (test.lexemes.map Lexeme.placed ++ Lexeme.placed (.ofSingle ')') ::
            Lexeme.placed (.ofSingle '{') :: ((Stmt.lexemesAll consequence).map Lexeme.placed ++
              Lexeme.placed (.ofSingle '}') :: rest)) := by
      simp [Stmt.lexemes]
    rw [lexemes]
    have tested : Reads (.expression .lowest test.merged.unplaced) _ _
        (Lexeme.placed (.ofSingle ')') :: Lexeme.placed (.ofSingle '{') ::
          ((Stmt.lexemesAll consequence).map Lexeme.placed ++
            Lexeme.placed (.ofSingle '}') :: rest)) :=
      (test.reads_before writable (by decide)
        (.noOperator (Precedence.not_lt_lowest _))).alone test.nesting_pos
    have whole := @Reads.condition (Lexeme.placed (.ofWord "if")) (Lexeme.placed (.ofSingle '('))
      _ _ _ _ _ _ _ _ _ rfl rfl tested rfl rfl
      (.block (Stmt.reads_all consequence writable_first rest).1) no_other
    rw [Stmt.nesting, Nat.add_comm]
    exact whole
  | .condition test consequence (some alternative) position,
      ⟨writable, writable_first, writable_second⟩, rest, _ => by
    have lexemes : (Stmt.condition test consequence (some alternative) position).lexemes.map
        Lexeme.placed ++ rest = Lexeme.placed (.ofWord "if") :: Lexeme.placed (.ofSingle '(') ::
          (test.lexemes.map Lexeme.placed ++ Lexeme.placed (.ofSingle ')') ::
            Lexeme.placed (.ofSingle '{') :: ((Stmt.lexemesAll consequence).map Lexeme.placed ++
              Lexeme.placed (.ofSingle '}') :: Lexeme.placed (.ofWord "else") ::
                Lexeme.placed (.ofSingle '{') :: ((Stmt.lexemesAll alternative).map Lexeme.placed ++
                  Lexeme.placed (.ofSingle '}') :: rest))) := by
      simp [Stmt.lexemes]
    rw [lexemes]
    have tested : Reads (.expression .lowest test.merged.unplaced) _ _
        (Lexeme.placed (.ofSingle ')') :: Lexeme.placed (.ofSingle '{') ::
          ((Stmt.lexemesAll consequence).map Lexeme.placed ++ Lexeme.placed (.ofSingle '}') ::
            Lexeme.placed (.ofWord "else") :: Lexeme.placed (.ofSingle '{') ::
              ((Stmt.lexemesAll alternative).map Lexeme.placed ++
                Lexeme.placed (.ofSingle '}') :: rest))) :=
      (test.reads_before writable (by decide)
        (.noOperator (Precedence.not_lt_lowest _))).alone test.nesting_pos
    have first : Reads (.block (Stmt.unplacedAll (Stmt.mergedAll consequence))) _ _
        (Lexeme.placed (.ofWord "else") :: Lexeme.placed (.ofSingle '{') ::
          ((Stmt.lexemesAll alternative).map Lexeme.placed ++
            Lexeme.placed (.ofSingle '}') :: rest)) :=
      .block ((Stmt.reads_all consequence writable_first _).1)
    have whole := @Reads.alternative (Lexeme.placed (.ofWord "if")) (Lexeme.placed (.ofSingle '('))
      _ _ _ _ _ _ _ _ _ _ _ _ _ _ rfl rfl tested rfl rfl first rfl rfl
      (.block (Stmt.reads_all alternative writable_second rest).1)
    rw [Stmt.nesting, Nat.add_comm 1, Nat.add_comm 1]
    exact whole

/-- The statements of a block are read, and an expression in front of them goes on with them. -/
theorem Stmt.reads_all : (statements : List Stmt) → Stmt.WritableAll statements →
    (rest : List Token) →
    Reads (.statements (Stmt.unplacedAll (Stmt.mergedAll statements))) (Stmt.nestingAll statements)
        ((Stmt.lexemesAll statements).map Lexeme.placed ++ Lexeme.placed (.ofSingle '}') :: rest)
        rest ∧
      Stmt.GoesOn statements
        ((Stmt.lexemesAll statements).map Lexeme.placed ++ Lexeme.placed (.ofSingle '}') :: rest)
        rest
  | [], writable, rest => by
    have reads : Reads (.statements []) 0 (Lexeme.placed (.ofSingle '}') :: rest) rest :=
      .lastStatement rfl
    exact ⟨reads, .of_closed writable nofun rfl reads⟩
  | statement :: statements, ⟨first, _, others⟩, rest => by
    obtain ⟨reads, goes_on⟩ := Stmt.reads_all statements others rest
    have lexemes : (Stmt.lexemesAll (statement :: statements)).map Lexeme.placed ++
        Lexeme.placed (.ofSingle '}') :: rest = statement.lexemes.map Lexeme.placed ++
          ((Stmt.lexemesAll statements).map Lexeme.placed ++
            Lexeme.placed (.ofSingle '}') :: rest) := by
      simp [Stmt.lexemesAll]
    have whole : Reads (.statements (Stmt.unplacedAll (Stmt.mergedAll (statement :: statements))))
        (Stmt.nestingAll (statement :: statements))
        ((Stmt.lexemesAll (statement :: statements)).map Lexeme.placed ++
          Lexeme.placed (.ofSingle '}') :: rest) rest := by
      rw [lexemes, Stmt.mergedAll]
      by_cases lone : ∃ value position, statement = .expression value position
      · obtain ⟨value, position, rfl⟩ := lone
        obtain ⟨final, behind, far, near, middle, same, operators, more, no_end, levels⟩ :=
          goes_on value.merged position
        have inside := value.reads_before first (by decide) operators
        obtain ⟨lexeme, after, begins, -⟩ := Stmt.begins first
        have positive := value.nesting_pos
        rw [Stmt.lexemes] at begins ⊢
        rw [begins] at inside ⊢
        rw [Stmt.merged, same]
        exact (Reads.nextStatement (.unterminated inside no_end) more).opening (by
          rw [Stmt.nestingAll, Stmt.nesting]
          omega)
      · obtain ⟨apart, alone⟩ := Stmt.before_of_other fun value position same =>
          lone ⟨value, position, same⟩
        rw [alone]
        have stops := Stmt.stops (fun next _ => apart next) others
          (.inl (rfl : headKind (Lexeme.placed (.ofSingle '}') :: rest) = .rightBrace))
        exact .nextStatement (statement.reads first stops) reads
    refine ⟨whole, ?_⟩
    by_cases opens : statement.opens = true
    · intro left position
      cases statement with
      | expression value other =>
        obtain ⟨final, behind, far, near, middle, same, operators, more, no_end, levels⟩ :=
          goes_on (left.graft value.merged) position
        rw [Expr.unplaced_graft] at operators
        have joined := value.reads_behind first opens (by decide) operators
        have positive := value.nesting_pos
        refine ⟨final, behind, _, near, middle, ?_, by rwa [lexemes], more, no_end, ?_⟩
        · rw [Stmt.mergedAll, Stmt.merged, Stmt.before_before (by rwa [Expr.opens_merged]), same]
        · rw [Stmt.nestingAll, Stmt.nesting]
          omega
      | _ => cases opens
    · refine .of_closed ⟨first, fun _ _ => trivial, others⟩ ?_ rfl whole
      rintro _ ⟨⟩
      exact Bool.eq_false_iff.mpr opens

end

/-- A program is read as its statements are merged. -/
theorem Stmt.reads_program {statements : List Stmt} (writable : Stmt.WritableAll statements) :
    ReadsProgram (Stmt.nestingAll statements) ((Stmt.lexemesAll statements).map Lexeme.placed)
      (Stmt.unplacedAll (Stmt.mergedAll statements)) := by
  obtain ⟨inside, close, same, -, reads⟩ := (Stmt.reads_all statements writable []).1.unbraced
  obtain ⟨rfl, -⟩ := List.append_inj' same rfl
  exact reads

end ExprLang
