import ExprLang.Proofs.Account.Source
import ExprLang.Proofs.Hollow.Moved
import ExprLang.Proofs.Hollow.Run

/-!
# Sources with a hole

A source that is parsed without a diagnostic, with an expression taken out of it, is parsed with one
diagnostic and with a placeholder in the place of the expression. So it is where the expression is
missing in front of a token that ends expressions (`parse_without`), and where a token that begins
nothing stands for it (`parse_strayed`). The expression is to be a whole one: behind an operand the
parser looks for operators, but not behind a placeholder (`parse_strayed_operator`).
-/

namespace ExprLang

open Movable (moved)

/-- No two tokens of a source are at one place. -/
theorem sourceStream_apart (source : String) :
    ((sourceStream source).toList.map (·.position)).Nodup :=
  (sourceStream_rising source).imp Position.Before.ne

/-- The tokens of a source in front of its end, and the end. -/
theorem tokenize_parts {source : String} {tokens : List Token} {ending : Token}
    (scanned : tokenize source false = .ok (tokens ++ [ending])) :
    source ≠ "" ∧ sourceTokens source = tokens ∧ (sourceStream source).ending = ending := by
  obtain ⟨nonempty, same⟩ := tokenize_sourceStream scanned
  obtain ⟨front, back⟩ := List.append_inj' same rfl
  exact ⟨nonempty, front.symm, (List.singleton_inj.mp back).symm⟩

namespace Parser

variable {source other : String} {hole : Hole} {slot : Slot} {before gap : List Token}
  {values lacking : List Stmt} {levels : Nat} {blamed : Token}

/-- In a source that is parsed without a diagnostic, a context opens no more levels than there is
room for. -/
theorem AroundProgram.levels_le (around : AroundProgram hole slot before values lacking levels)
    (tokens : sourceTokens source = before ++ hole.tokens) {parsed : Parsed}
    (ran : parse source = .ok parsed) (clean : parsed.diagnostics = []) : levels ≤ maxNesting := by
  by_contra deep
  have reads := around.reads
  rw [← tokens] at reads
  obtain ⟨diagnostic, recorded, -⟩ :=
    parse_deep (nonempty_of_parse ran) ran reads (Nat.lt_of_not_le deep)
  rw [clean] at recorded
  exact List.not_mem_nil recorded

/-- A source with a hole is parsed with a placeholder in the place of the expression. -/
theorem parse_lacks (nonempty : other ≠ "")
    (around : AroundProgram hole slot before values lacking levels) (enough : levels ≤ maxNesting)
    (tokens : sourceTokens other = before ++ (gap ++ hole.after))
    (lacks : hole.Lacks (sourceStream other).ending gap blamed)
    (place : hole.place = blamed.position) (asked : Slot.Asked gap (some slot)) :
    ∃ result, parse other = .ok result ∧ result.diagnostics = [missed blamed] ∧
      result.program = ⟨lacking⟩ := by
  obtain ⟨fewer, less, follows⟩ := around.follows lacks place asked
  rw [← tokens] at follows
  have ran := parse_eq nonempty
  rcases parse_follows nonempty ran follows with ⟨-, program, diagnostics⟩ | ⟨short, -⟩
  · exact ⟨_, ran, diagnostics, program⟩
  · omega

/-- Trees at moved places are the same ones. -/
theorem Program.same_movedAll (move : Position → Position) (values : List Stmt) :
    Program.same ⟨Stmt.movedAll move values⟩ ⟨values⟩ = true := by
  rw [Program.same_iff]
  exact congrArg Program.mk (Stmt.unplacedAll_movedAll move values)

/-- Where an expression is taken out of a source in front of a token that ends expressions, this
token is blamed once, and the program has a placeholder for the expression and everything else. -/
theorem parse_without {parsed : Parsed} (ran : parse source = .ok parsed)
    (clean : parsed.diagnostics = []) {ending : Token}
    (scanned : tokenize source false = .ok (before ++ hole.tokens ++ [ending]))
    (around : AroundProgram hole slot before parsed.program.statements lacking levels)
    (asks : slot.asks = true) (ends : (headKind hole.after).endsExpression = true)
    (place : hole.place = (hole.after.headD ending).position) {left : List Token} {final : Token}
    (rescanned : tokenize other false = .ok (left ++ [final]))
    (removed : Alike left (before ++ hole.after)) :
    ∃ result close, parse other = .ok result ∧ (left ++ [final])[before.length]? = some close ∧
      close.toLexeme = (hole.after.headD ending).toLexeme ∧
      result.diagnostics = [⟨.missingOperand close.toLexeme, close.position⟩] ∧
      result.program.same ⟨lacking⟩ = true ∧
      Replaced hole.value (.missing hole.place) (.statements parsed.program.statements)
        (.statements lacking) := by
  obtain ⟨nonempty, tokens, rfl⟩ := tokenize_parts scanned
  obtain ⟨nonempty', tokens', rfl⟩ := tokenize_parts rescanned
  have enough := around.levels_le tokens ran clean
  -- the places of the first source, those of the hole left out, are moved to those of the second
  have whole : Alike (left ++ [(sourceStream other).ending])
      (before ++ hole.after ++ [(sourceStream source).ending]) := by
    have endings := (sourceStream_scans other).ending_lexeme.trans
      (sourceStream_scans source).ending_lexeme.symm
    exact removed.append (by rw [Alike, List.map_singleton, List.map_singleton, endings])
  have kept : List.Sublist (before ++ hole.after ++ [(sourceStream source).ending])
      (sourceStream source).toList := by
    unfold TokenStream.toList
    rw [show (sourceStream source).upcoming = before ++ hole.tokens from tokens]
    exact ((List.sublist_append_right hole.span _).append_left before).append_right _
  have apart := (sourceStream_apart source).sublist (kept.map (·.position))
  obtain ⟨move, places⟩ := exists_move_tokens apart whole.length_eq
  have moved_tokens := whole.moved move places
  rw [List.map_append, List.map_append, List.map_singleton] at moved_tokens
  obtain ⟨rfl, ending_moved⟩ := List.append_inj' moved_tokens rfl
  have close_moved : (hole.moved move).after.headD (sourceStream other).ending =
      moved move (hole.after.headD (sourceStream source).ending) := by
    rw [← List.singleton_inj.mp ending_moved]
    unfold Hole.moved
    cases hole.after <;> rfl
  have ends_moved : (headKind (hole.moved move).after).endsExpression = true := by
    rw [← headKind_moved move] at ends
    exact ends
  have lacks := @Hole.Lacks.nothing (hole.moved move) (sourceStream other).ending ends_moved
  rw [close_moved] at lacks
  obtain ⟨result, ran', diagnostics, program⟩ := parse_lacks nonempty' (around.moved move) enough
    tokens' lacks (congrArg move place) (Slot.asked asks [])
  refine ⟨result, moved move (hole.after.headD (sourceStream source).ending), ran', ?_, rfl,
    diagnostics, ?_, around.replaced⟩
  · rw [List.append_assoc, List.getElem?_append_right (Nat.le_of_eq (List.length_map _)),
      List.length_map, Nat.sub_self, ← close_moved]
    unfold Hole.moved
    cases hole.after <;> rfl
  · rw [program]
    exact Program.same_movedAll move lacking

/-- The operand behind a sign, in the first of two arguments. -/
theorem parse_without_argument :
    ∃ parsed hole before lacking levels ending left final,
      parse "g(-a, 1);" = .ok parsed ∧ parsed.diagnostics = [] ∧
      tokenize "g(-a, 1);" false = .ok (before ++ Hole.tokens hole ++ [ending]) ∧
      AroundProgram hole .operand before parsed.program.statements lacking levels ∧
      Slot.operand.asks = true ∧ (headKind hole.after).endsExpression = true ∧
      hole.place = (hole.after.headD ending).position ∧
      tokenize "g(-, 1);" false = .ok (left ++ [final]) ∧ Alike left (before ++ hole.after) ∧
      ∃ result close, parse "g(-, 1);" = .ok result ∧
        (left ++ [final])[before.length]? = some close ∧
        close.toLexeme = (hole.after.headD ending).toLexeme ∧
        result.diagnostics = [⟨.missingOperand close.toLexeme, close.position⟩] ∧
        result.program.same ⟨lacking⟩ = true ∧
        Replaced hole.value (.missing hole.place) (.statements parsed.program.statements)
          (.statements lacking) := by
  have ran : parse "g(-a, 1);" = .ok (State.ofText "g(-a, 1);").finish := parse_eq (by decide)
  have clean : (State.ofText "g(-a, 1);").finish.diagnostics = [] := by decide +kernel
  have trees : (State.ofText "g(-a, 1);").finish.program.statements =
      [.expression (.call (.name ⟨"g", ⟨1, 1⟩⟩)
        [.unary "-" (.name ⟨"a", ⟨1, 4⟩⟩) ⟨1, 3⟩, .integer 1 ⟨1, 7⟩] ⟨1, 2⟩) ⟨1, 1⟩] := rfl
  have context : ∃ levels, AroundProgram
      ⟨.name ⟨"a", ⟨1, 4⟩⟩, [⟨⟨.identifier, "a"⟩, ⟨1, 4⟩⟩],
        [⟨⟨.comma, ","⟩, ⟨1, 5⟩⟩, ⟨⟨.integer, "1"⟩, ⟨1, 7⟩⟩, ⟨⟨.rightParen, ")"⟩, ⟨1, 8⟩⟩,
          ⟨⟨.semicolon, ";"⟩, ⟨1, 9⟩⟩], ⟨1, 5⟩⟩ .operand
      [⟨⟨.identifier, "g"⟩, ⟨1, 1⟩⟩, ⟨⟨.leftParen, "("⟩, ⟨1, 2⟩⟩, ⟨⟨.minus, "-"⟩, ⟨1, 3⟩⟩]
      [.expression (.call (.name ⟨"g", ⟨1, 1⟩⟩)
        [.unary "-" (.name ⟨"a", ⟨1, 4⟩⟩) ⟨1, 3⟩, .integer 1 ⟨1, 7⟩] ⟨1, 2⟩) ⟨1, 1⟩]
      [.expression (.call (.name ⟨"g", ⟨1, 1⟩⟩)
        [.unary "-" (.missing ⟨1, 5⟩) ⟨1, 3⟩, .integer 1 ⟨1, 7⟩] ⟨1, 2⟩) ⟨1, 1⟩] levels :=
    ⟨_, .next (.terminated
      (@Around.operators _ _ _ _ _ [⟨⟨.identifier, "g"⟩, ⟨1, 1⟩⟩] _ _ _ _ _ (.name rfl)
        (.called (by decide) rfl
          (.argument
            (.first
              (.unary (.inr rfl)
                (.here (.expression (@Reads.name ⟨⟨.identifier, "a"⟩, ⟨1, 4⟩⟩ _ rfl)
                  (.noOperator (by decide)))))
              (.none (by decide)))
            (.nextArgument rfl (.expression (.integer rfl rfl) (.noOperator (by decide)))
              (.lastArgument rfl)))
          (.none (by decide)))) rfl) .done⟩
  rw [← trees] at context
  obtain ⟨levels, around⟩ := context
  exact ⟨_, _, _, _, levels, ⟨⟨.endOfInput, ""⟩, ⟨1, 10⟩⟩,
    [⟨⟨.identifier, "g"⟩, ⟨1, 1⟩⟩, ⟨⟨.leftParen, "("⟩, ⟨1, 2⟩⟩, ⟨⟨.minus, "-"⟩, ⟨1, 3⟩⟩,
      ⟨⟨.comma, ","⟩, ⟨1, 4⟩⟩, ⟨⟨.integer, "1"⟩, ⟨1, 6⟩⟩, ⟨⟨.rightParen, ")"⟩, ⟨1, 7⟩⟩,
      ⟨⟨.semicolon, ";"⟩, ⟨1, 8⟩⟩], ⟨⟨.endOfInput, ""⟩, ⟨1, 9⟩⟩, ran, clean, by rfl, around, rfl,
    rfl, rfl, by rfl, by rfl,
    parse_without ran clean (by rfl) around rfl rfl rfl (by rfl) (by rfl)⟩

/-- Where a token that begins nothing stands for an expression of a source, it is blamed once, and
the program has a placeholder for the expression and everything else. -/
theorem parse_strayed {parsed : Parsed} (ran : parse source = .ok parsed)
    (clean : parsed.diagnostics = []) {ending : Token}
    (scanned : tokenize source false = .ok (before ++ hole.tokens ++ [ending]))
    (around : AroundProgram hole slot before parsed.program.statements lacking levels)
    {first : Token} {inside : List Token} (begins : hole.span = first :: inside)
    (place : hole.place = first.position) {front back : List Token} {stray final : Token}
    (rescanned : tokenize other false = .ok (front ++ stray :: back ++ [final]))
    (ahead : Alike front before) (behind : Alike back hole.after) (kind : stray.kind = .illegal) :
    ∃ result, parse other = .ok result ∧
      result.diagnostics = [⟨.missingOperand stray.toLexeme, stray.position⟩] ∧
      result.program.same ⟨lacking⟩ = true ∧
      Replaced hole.value (.missing hole.place) (.statements parsed.program.statements)
        (.statements lacking) := by
  obtain ⟨nonempty, tokens, rfl⟩ := tokenize_parts scanned
  obtain ⟨nonempty', tokens', rfl⟩ := tokenize_parts rescanned
  have enough := around.levels_le tokens ran clean
  -- the places of the first source, those behind the first token of the hole left out, are moved to
  -- those of the second
  have kept : List.Sublist (before ++ first :: hole.after) (sourceTokens source) := by
    rw [tokens, Hole.tokens, begins]
    exact ((List.sublist_append_right inside _).cons_cons first).append_left before
  have apart := ((sourceTokens_rising source).imp Position.Before.ne).sublist
    (kept.map (·.position))
  have length : (front ++ stray :: back).length = (before ++ first :: hole.after).length := by
    simp only [List.length_append, List.length_cons, ahead.length_eq, behind.length_eq]
  obtain ⟨move, places⟩ := exists_move_tokens apart length
  simp only [List.map_append, List.map_cons] at places
  obtain ⟨ahead_places, places⟩ := List.append_inj places (by simp [ahead.length_eq])
  obtain ⟨here, behind_places⟩ := List.cons.inj places
  obtain rfl := ahead.moved move ahead_places
  obtain rfl := behind.moved move behind_places
  have lacks := @Hole.Lacks.stray (hole.moved move) (sourceStream other).ending stray kind
  have filled : Slot.Asked [stray] (some slot) := fun empty => absurd empty (List.cons_ne_nil _ _)
  obtain ⟨result, ran', diagnostics, program⟩ := parse_lacks nonempty' (around.moved move) enough
    tokens' lacks ((congrArg move place).trans here) filled
  refine ⟨result, ran', diagnostics, ?_, around.replaced⟩
  rw [program]
  exact Program.same_movedAll move lacking

/-- The right operand of a factor, with a sum around it. -/
theorem parse_strayed_factor :
    ∃ parsed hole before lacking levels first inside ending front back stray final,
      parse "let v = a * x + b;" = .ok parsed ∧ parsed.diagnostics = [] ∧
      tokenize "let v = a * x + b;" false = .ok (before ++ Hole.tokens hole ++ [ending]) ∧
      AroundProgram hole .right before parsed.program.statements lacking levels ∧
      hole.span = first :: inside ∧ hole.place = first.position ∧
      tokenize "let v = a * @ + b;" false = .ok (front ++ stray :: back ++ [final]) ∧
      Alike front before ∧ Alike back hole.after ∧ stray.kind = .illegal ∧
      ∃ result, parse "let v = a * @ + b;" = .ok result ∧
        result.diagnostics = [⟨.missingOperand stray.toLexeme, stray.position⟩] ∧
        result.program.same ⟨lacking⟩ = true ∧
        Replaced hole.value (.missing hole.place) (.statements parsed.program.statements)
          (.statements lacking) := by
  have ran : parse "let v = a * x + b;" = .ok (State.ofText "let v = a * x + b;").finish :=
    parse_eq (by decide)
  have clean : (State.ofText "let v = a * x + b;").finish.diagnostics = [] := by decide +kernel
  have trees : (State.ofText "let v = a * x + b;").finish.program.statements =
      [.binding ⟨"v", ⟨1, 5⟩⟩ (.binary "+" (.binary "*" (.name ⟨"a", ⟨1, 9⟩⟩)
        (.name ⟨"x", ⟨1, 13⟩⟩) ⟨1, 11⟩) (.name ⟨"b", ⟨1, 17⟩⟩) ⟨1, 15⟩) ⟨1, 1⟩] := rfl
  have context : ∃ levels, AroundProgram
      ⟨.name ⟨"x", ⟨1, 13⟩⟩, [⟨⟨.identifier, "x"⟩, ⟨1, 13⟩⟩],
        [⟨⟨.plus, "+"⟩, ⟨1, 15⟩⟩, ⟨⟨.identifier, "b"⟩, ⟨1, 17⟩⟩, ⟨⟨.semicolon, ";"⟩, ⟨1, 18⟩⟩],
        ⟨1, 13⟩⟩ .right
      [⟨⟨.letWord, "let"⟩, ⟨1, 1⟩⟩, ⟨⟨.identifier, "v"⟩, ⟨1, 5⟩⟩, ⟨⟨.assign, "="⟩, ⟨1, 7⟩⟩,
        ⟨⟨.identifier, "a"⟩, ⟨1, 9⟩⟩, ⟨⟨.asterisk, "*"⟩, ⟨1, 11⟩⟩]
      [.binding ⟨"v", ⟨1, 5⟩⟩ (.binary "+" (.binary "*" (.name ⟨"a", ⟨1, 9⟩⟩)
        (.name ⟨"x", ⟨1, 13⟩⟩) ⟨1, 11⟩) (.name ⟨"b", ⟨1, 17⟩⟩) ⟨1, 15⟩) ⟨1, 1⟩]
      [.binding ⟨"v", ⟨1, 5⟩⟩ (.binary "+" (.binary "*" (.name ⟨"a", ⟨1, 9⟩⟩)
        (.missing ⟨1, 13⟩) ⟨1, 11⟩) (.name ⟨"b", ⟨1, 17⟩⟩) ⟨1, 15⟩) ⟨1, 1⟩] levels :=
    ⟨_, .next (@Around.binding _ (some .right) _ _ _ ⟨⟨.semicolon, ";"⟩, ⟨1, 18⟩⟩ _ _ _ _ _ rfl rfl
      rfl
      (@Around.operators _ _ _ _ _ [⟨⟨.identifier, "a"⟩, ⟨1, 9⟩⟩] _ _ _ _ _ (.name rfl)
        (@Around.right _ none _ _ _ _ _ _ _ _ _ _ _ _ (by decide) (by decide)
          (.here (.expression (@Reads.name ⟨⟨.identifier, "x"⟩, ⟨1, 13⟩⟩ _ rfl)
            (.noOperator (by decide))))
          (.binary (by decide) (by decide)
            (.expression (.name rfl) (.noOperator (by decide)))
            (.none (by decide))))) rfl) .done⟩
  rw [← trees] at context
  obtain ⟨levels, around⟩ := context
  have rescanned : tokenize "let v = a * @ + b;" false = .ok
      ([⟨⟨.letWord, "let"⟩, ⟨1, 1⟩⟩, ⟨⟨.identifier, "v"⟩, ⟨1, 5⟩⟩, ⟨⟨.assign, "="⟩, ⟨1, 7⟩⟩,
        ⟨⟨.identifier, "a"⟩, ⟨1, 9⟩⟩, ⟨⟨.asterisk, "*"⟩, ⟨1, 11⟩⟩] ++
      ⟨⟨.illegal, "@"⟩, ⟨1, 13⟩⟩ ::
        [⟨⟨.plus, "+"⟩, ⟨1, 15⟩⟩, ⟨⟨.identifier, "b"⟩, ⟨1, 17⟩⟩, ⟨⟨.semicolon, ";"⟩, ⟨1, 18⟩⟩] ++
      [⟨⟨.endOfInput, ""⟩, ⟨1, 19⟩⟩]) := rfl
  exact ⟨_, _, _, _, levels, _, _, ⟨⟨.endOfInput, ""⟩, ⟨1, 19⟩⟩, _, _, _, _, ran, clean, by rfl,
    around, rfl, rfl, rescanned, rfl, rfl, rfl,
    parse_strayed ran clean (by rfl) around rfl rfl rescanned rfl rfl rfl⟩

/-- A left operand. Behind a placeholder the parser does not look for operators, so that the sign is
wrong where the binding is to end, and the binding is lost with a second diagnostic. -/
theorem parse_strayed_operator :
    ∃ before leaf stray after parsed result,
      tokenize "let v = x + 1;" false = .ok (before ++ leaf :: after) ∧
      tokenize "let v = @ + 1;" false = .ok (before ++ stray :: after) ∧
      leaf.kind = .identifier ∧ stray.kind = .illegal ∧
      parse "let v = x + 1;" = .ok parsed ∧ parsed.diagnostics = [] ∧
      parsed.program.statements = [.binding ⟨"v", ⟨1, 5⟩⟩
        (.binary "+" (.name ⟨leaf.text, leaf.position⟩) (.integer 1 ⟨1, 13⟩) ⟨1, 11⟩) ⟨1, 1⟩] ∧
      parse "let v = @ + 1;" = .ok result ∧
      result.diagnostics.map (·.message) =
        ["no prefix parse function for `@`", "expected `;`, found `+`"] ∧
      result.program.statements = [] := by
  have trees : (State.ofText "let v = x + 1;").finish.program.statements =
      [.binding ⟨"v", ⟨1, 5⟩⟩ (.binary "+" (.name ⟨"x", ⟨1, 9⟩⟩) (.integer 1 ⟨1, 13⟩) ⟨1, 11⟩)
        ⟨1, 1⟩] := rfl
  have clean : (State.ofText "let v = x + 1;").finish.diagnostics = [] := by decide +kernel
  have messages : (State.ofText "let v = @ + 1;").finish.diagnostics.map (·.message) =
      ["no prefix parse function for `@`", "expected `;`, found `+`"] := by decide +kernel
  have length : (State.ofText "let v = @ + 1;").finish.program.statements.length = 0 := by
    decide +kernel
  have scanned : tokenize "let v = x + 1;" false = .ok
      ([⟨⟨.letWord, "let"⟩, ⟨1, 1⟩⟩, ⟨⟨.identifier, "v"⟩, ⟨1, 5⟩⟩, ⟨⟨.assign, "="⟩, ⟨1, 7⟩⟩] ++
      ⟨⟨.identifier, "x"⟩, ⟨1, 9⟩⟩ ::
        [⟨⟨.plus, "+"⟩, ⟨1, 11⟩⟩, ⟨⟨.integer, "1"⟩, ⟨1, 13⟩⟩, ⟨⟨.semicolon, ";"⟩, ⟨1, 14⟩⟩,
          ⟨⟨.endOfInput, ""⟩, ⟨1, 15⟩⟩]) := rfl
  have rescanned : tokenize "let v = @ + 1;" false = .ok
      ([⟨⟨.letWord, "let"⟩, ⟨1, 1⟩⟩, ⟨⟨.identifier, "v"⟩, ⟨1, 5⟩⟩, ⟨⟨.assign, "="⟩, ⟨1, 7⟩⟩] ++
      ⟨⟨.illegal, "@"⟩, ⟨1, 9⟩⟩ ::
        [⟨⟨.plus, "+"⟩, ⟨1, 11⟩⟩, ⟨⟨.integer, "1"⟩, ⟨1, 13⟩⟩, ⟨⟨.semicolon, ";"⟩, ⟨1, 14⟩⟩,
          ⟨⟨.endOfInput, ""⟩, ⟨1, 15⟩⟩]) := rfl
  refine ⟨_, _, _, _, _, _, scanned, rescanned, rfl, rfl, parse_eq (by decide), clean, trees,
    parse_eq (by decide), messages, ?_⟩
  exact List.eq_nil_of_length_eq_zero length

end Parser

end ExprLang
