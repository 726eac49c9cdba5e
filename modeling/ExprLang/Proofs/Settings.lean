import ExprLang.Proofs.Reading.Extent
import ExprLang.Proofs.Reading.Spelled

/-!
# Settings of an expression

An expression means the same wherever it stands. A source that is one expression is put into the
places where the grammar has one (`Setting`): in each it is read to the tree that it has on its own
(`parse_in_setting`), for an expression looks at how tightly the token behind it binds, and at
nothing else of it, and all tokens that end it there bind as the end of a source does.
-/

namespace ExprLang

/-- Where an expression stands in a statement. -/
inductive Setting where
  /-- In parentheses. -/
  | grouped
  /-- Behind the sign of a binding. -/
  | bound
  /-- As the value of a function. -/
  | returned
  /-- As the test of a condition. -/
  | tested
  /-- As the only argument of a call. -/
  | argument
  /-- Behind a sign and in parentheses. -/
  | negated
  /-- As the only statement of a function. -/
  | body
deriving DecidableEq, Repr

namespace Setting

/-- The text in front of the expression. -/
def front : Setting → String
  | grouped => "("
  | bound => "let v = "
  | returned => "return "
  | tested => "if ("
  | argument => "g("
  | negated => "-("
  | body => "fn() \x7b "

/-- The text behind the expression. -/
def back : Setting → String
  | grouped | argument | negated => ")"
  | bound | returned => ";"
  | tested => ") \x7b \x7d"
  | body => " \x7d"

/-- The text of an expression in a setting. -/
def text (setting : Setting) (expression : String) : String :=
  setting.front ++ expression ++ setting.back

/-- The statement that an expression in a setting makes, with all its other parts at one place. -/
def statement (value : Expr) : Setting → Stmt
  | grouped => .expression value .origin
  | bound => .binding ⟨"v", .origin⟩ value .origin
  | returned => .result (some value) .origin
  | tested => .condition value [] none .origin
  | argument => .expression (.call (.name ⟨"g", .origin⟩) [value] .origin) .origin
  | negated => .expression (.unary "-" value .origin) .origin
  | body => .expression (.function [] [.expression value .origin] .origin) .origin

/-- The statement around an expression depends on its tree. -/
theorem unplaced_statement (setting : Setting) {value other : Expr}
    (same : value.unplaced = other.unplaced) :
    (setting.statement value).unplaced = (setting.statement other).unplaced := by
  cases setting <;>
    simp [statement, Stmt.unplaced, Stmt.unplacedAll, Expr.unplaced, Expr.unplacedAll, same]

/-- The lexemes in front of the expression. -/
def opening : Setting → List Lexeme
  | grouped => [⟨.leftParen, "("⟩]
  | bound => [⟨.letWord, "let"⟩, ⟨.identifier, "v"⟩, ⟨.assign, "="⟩]
  | returned => [⟨.returnWord, "return"⟩]
  | tested => [⟨.ifWord, "if"⟩, ⟨.leftParen, "("⟩]
  | argument => [⟨.identifier, "g"⟩, ⟨.leftParen, "("⟩]
  | negated => [⟨.minus, "-"⟩, ⟨.leftParen, "("⟩]
  | body => [⟨.functionWord, "fn"⟩, ⟨.leftParen, "("⟩, ⟨.rightParen, ")"⟩, ⟨.leftBrace, "\x7b"⟩]

/-- The lexemes behind the expression. -/
def closing : Setting → List Lexeme
  | grouped | argument | negated => [⟨.rightParen, ")"⟩]
  | bound | returned => [⟨.semicolon, ";"⟩]
  | tested => [⟨.rightParen, ")"⟩, ⟨.leftBrace, "\x7b"⟩, ⟨.rightBrace, "\x7d"⟩]
  | body => [⟨.rightBrace, "\x7d"⟩]

/-! ## Texts -/

/-- A word in front of a sign or a space spells itself. -/
theorem spells_word {word : String} {c : Char} {rest : List Char} {lexemes : List Lexeme}
    (letters : word ≠ "" ∧ word.toList.all isLetter = true)
    (plain : isLetter c = false ∧ isDigit c = false ∧ c ≠ '=')
    (behind : Spells (c :: rest) lexemes) :
    Spells (word.toList ++ c :: rest) (.ofWord word :: lexemes) :=
  .word letters.1 (List.all_eq_true.mp letters.2) (.cons plain rest) behind

/-- The text in front of an expression spells its lexemes, whatever comes behind it. -/
theorem spells_front (setting : Setting) {rest : List Char} {lexemes : List Lexeme}
    (behind : Spells rest lexemes) :
    Spells (setting.front.toList ++ rest) (setting.opening ++ lexemes) := by
  have grouped : Spells ('(' :: rest) (⟨.leftParen, "("⟩ :: lexemes) := .sign (by decide) behind
  cases setting with
  | grouped => exact grouped
  | bound =>
    have value : Spells ('=' :: ' ' :: rest) (⟨.assign, "="⟩ :: lexemes) := .assign behind.space
    have target := @spells_word "v" _ _ _ (by decide) (by decide) value.space
    exact @spells_word "let" _ _ _ (by decide) (by decide) target.space
  | returned => exact @spells_word "return" _ _ _ (by decide) (by decide) behind.space
  | tested => exact @spells_word "if" _ _ _ (by decide) (by decide) grouped.space
  | argument => exact @spells_word "g" _ _ _ (by decide) (by decide) grouped
  | negated => exact .sign (by decide) grouped
  | body =>
    have inside : Spells ('\x7b' :: ' ' :: rest) (⟨.leftBrace, "\x7b"⟩ :: lexemes) :=
      .sign (by decide) behind.space
    have closed : Spells (')' :: ' ' :: '\x7b' :: ' ' :: rest)
        (⟨.rightParen, ")"⟩ :: ⟨.leftBrace, "\x7b"⟩ :: lexemes) := .sign (by decide) inside.space
    exact @spells_word "fn" _ _ _ (by decide) (by decide) (.sign (by decide) closed)

/-- The text behind an expression spells its lexemes. -/
theorem spells_back (setting : Setting) : Spells setting.back.toList setting.closing := by
  have brace : Spells [' ', '\x7d'] [⟨.rightBrace, "\x7d"⟩] := .space (.sign (by decide) .done)
  cases setting with
  | bound | returned => exact .sign (by decide) .done
  | tested => exact .sign (by decide) (.space (.sign (by decide) brace))
  | body => exact brace
  | _ => exact .sign (by decide) .done

/-- The text behind an expression goes on with none of its lexemes. -/
theorem back_apart (setting : Setting) : Apart setting.back.toList := by
  cases setting with
  | _ => exact .cons (by decide) _

/-- The text of an expression in a setting spells the lexemes of both. -/
theorem spells_text (setting : Setting) (source : String) :
    Spells (setting.text source).toList
      (setting.opening ++ ((sourceTokens source).map (·.toLexeme) ++ setting.closing)) := by
  have feed : ∀ behind, setting.back.toList ≠ '\n' :: behind := by
    intro behind same
    cases setting <;> exact absurd (List.cons.inj same).1 (by decide)
  have inside := (spells_sourceTokens source).append setting.back_apart (fun _ => feed)
    setting.spells_back
  unfold text
  rw [String.toList_append, String.toList_append, List.append_assoc]
  exact setting.spells_front inside

/-- The text of an expression in a setting is not empty. -/
theorem text_ne_empty (setting : Setting) (source : String) : setting.text source ≠ "" := by
  intro empty
  have lengths := congrArg String.length empty
  unfold text at lengths
  rw [String.length_append, String.length_append] at lengths
  have some_front : setting.front.length ≠ 0 := by
    cases setting <;> decide
  apply some_front
  exact Nat.eq_zero_of_add_eq_zero_right (Nat.eq_zero_of_add_eq_zero_right lengths)

end Setting

/-! ## Readings -/

namespace Parser

variable {value : Expr} {levels : Nat} {tokens : List Token}

/-- An expression in parentheses is an operand. -/
theorem Reads.parenthesized (reads : Reads (.expression .lowest value) levels tokens []) :
    Reads (.operand value) levels
      (Lexeme.placed ⟨.leftParen, "("⟩ :: (tokens ++ [Lexeme.placed ⟨.rightParen, ")"⟩])) [] :=
  .grouped rfl (reads.before (Lexeme.placed ⟨.rightParen, ")"⟩) rfl []) rfl

/-- An operand at the end of a source is an expression. -/
theorem Reads.ends (reads : Reads (.operand value) levels tokens []) (above : Precedence) :
    Reads (.expression above value) (max levels 0 + 1) tokens [] :=
  .expression reads (.noOperator (Precedence.not_lt_lowest above))

/-- A source that is one expression. -/
theorem Reads.program {lexeme : Lexeme}
    (reads : Reads (.expression .lowest value) levels (lexeme.placed :: tokens) []) :
    ReadsProgram (max levels 0) (lexeme.placed :: tokens) [.expression value .origin] :=
  .next (.unterminated reads nofun) .done

/-- A statement is read in each setting of an expression, and has it in its place. -/
theorem Reads.setting {lexemes : List Lexeme}
    (reads : Reads (.expression .lowest value) levels (lexemes.map Lexeme.placed) [])
    (setting : Setting) :
    ∃ deeper, ReadsProgram deeper
      ((setting.opening ++ (lexemes ++ setting.closing)).map Lexeme.placed)
      [setting.statement value] := by
  rw [List.map_append, List.map_append]
  cases setting with
  | grouped => exact ⟨_, (reads.parenthesized.ends .lowest).program⟩
  | bound =>
    have statement := @Reads.binding (Lexeme.placed ⟨.letWord, "let"⟩)
      (Lexeme.placed ⟨.identifier, "v"⟩) (Lexeme.placed ⟨.assign, "="⟩) _ _ _ _ _ rfl rfl rfl
      (reads.before (Lexeme.placed ⟨.semicolon, ";"⟩) rfl []) rfl
    exact ⟨_, .next statement .done⟩
  | returned =>
    have statement := @Reads.result (Lexeme.placed ⟨.returnWord, "return"⟩) _ _ _ _ _ rfl
      (reads.before (Lexeme.placed ⟨.semicolon, ";"⟩) rfl []) rfl
    exact ⟨_, .next statement .done⟩
  | tested =>
    have test := reads.before (Lexeme.placed ⟨.rightParen, ")"⟩) rfl
      [Lexeme.placed ⟨.leftBrace, "\x7b"⟩, Lexeme.placed ⟨.rightBrace, "\x7d"⟩]
    have statement := @Reads.condition (Lexeme.placed ⟨.ifWord, "if"⟩)
      (Lexeme.placed ⟨.leftParen, "("⟩) _ _ _ _ _ _ _ _ _ rfl rfl test rfl rfl
      (.block (.lastStatement rfl)) nofun
    exact ⟨_, .next statement .done⟩
  | argument =>
    have arguments := Reads.arguments (reads.before (Lexeme.placed ⟨.rightParen, ")"⟩) rfl [])
      (.lastArgument rfl)
    have called := @Reads.call .lowest (Lexeme.placed ⟨.leftParen, "("⟩) _ _ _ _ _
      (.name ⟨"g", .origin⟩) _ _ (by decide) rfl arguments
      (.noOperator (Precedence.not_lt_lowest _))
    have callee := @Reads.name (Lexeme.placed ⟨.identifier, "g"⟩)
    exact ⟨_, Reads.program (.expression (callee rfl) called)⟩
  | negated =>
    have operand := reads.parenthesized.ends .unary
    have signed := @Reads.unary (Lexeme.placed ⟨.minus, "-"⟩) _ _ _ _ (.inr rfl) operand
    exact ⟨_, (signed.ends .lowest).program⟩
  | body =>
    -- the statement of the function is at the first token of the expression
    cases lexemes with
    | nil => exact absurd reads.expression_begins (by decide)
    | cons lexeme lexemes =>
      have brace : (Lexeme.placed ⟨.rightBrace, "\x7d"⟩).kind = .rightBrace := rfl
      have inside := reads.program.braced brace []
      have literal := @Reads.function (Lexeme.placed ⟨.functionWord, "fn"⟩)
        (Lexeme.placed ⟨.leftParen, "("⟩) (Lexeme.placed ⟨.leftBrace, "\x7b"⟩) _ _ _ _ _ _ rfl rfl
        (@ReadsNames.none (Lexeme.placed ⟨.rightParen, ")"⟩) _ rfl) rfl (.block inside)
      exact ⟨_, (literal.ends .lowest).program⟩

/-- An expression means the same in every setting. Where a source is parsed to one expression, and
does not end with a semicolon, its text in a setting is parsed without a diagnostic to the statement
that has this expression in its place, as long as it is not nested too deeply there. -/
theorem parse_in_setting (setting : Setting) {source : String} {parsed : Parsed} {value : Expr}
    {place : Position} {tokens : List Token} {ending : Token} (ran : parse source = .ok parsed)
    (clean : parsed.diagnostics = [])
    (single : parsed.program.statements = [.expression value place])
    (scanned : tokenize source false = .ok (tokens ++ [ending]))
    (unclosed : lastKind tokens ≠ some .semicolon) :
    ∃ whole, parse (setting.text source) = .ok whole ∧
      ((∀ diagnostic ∈ whole.diagnostics, ¬ diagnostic.TooDeep) →
        whole.diagnostics = [] ∧ whole.program.same ⟨[setting.statement value]⟩ = true) := by
  obtain ⟨nonempty, same⟩ := tokenize_sourceStream scanned
  obtain rfl : tokens = sourceTokens source := (List.append_inj' same rfl).1
  obtain ⟨levels, -, reads⟩ := parse_clean nonempty ran clean
  rw [single] at reads
  obtain ⟨near, expression⟩ := reads.sole unclosed
  -- the expression is read from its lexemes, so it is read from them in the setting
  have alike : Alike (((sourceTokens source).map (·.toLexeme)).map Lexeme.placed)
      (sourceTokens source) := by
    unfold Alike
    rw [List.map_map]
    exact List.map_id _
  obtain ⟨found, behind, trees, ended, expression⟩ := expression.move alike
  obtain rfl := List.map_eq_nil_iff.mp ended
  obtain ⟨deeper, program⟩ := expression.setting setting
  obtain ⟨statements, placed, program⟩ := reads_spelled (setting.spells_text source) program
  have whole_nonempty := setting.text_ne_empty source
  have whole_ran := parse_eq whole_nonempty
  refine ⟨_, whole_ran, fun shallow => ?_⟩
  by_cases enough : deeper ≤ maxNesting
  · obtain ⟨read, whole_clean⟩ := parse_reads whole_nonempty whole_ran program enough
    refine ⟨whole_clean, ?_⟩
    rw [read, Program.same_iff]
    apply congrArg Program.mk
    rw [placed]
    exact congrArg (fun statement => [statement]) (setting.unplaced_statement trees)
  · obtain ⟨diagnostic, recorded, deep⟩ :=
      parse_deep whole_nonempty whole_ran program (Nat.lt_of_not_le enough)
    exact absurd (Diagnostic.tooDeep_of_isDepth deep) (shallow diagnostic recorded)

/-- A difference with a call, in parentheses behind a sign. -/
theorem parse_in_setting_negated :
    ∃ parsed value place tokens ending whole,
      parse "f(a) - b" = .ok parsed ∧ parsed.diagnostics = [] ∧
      parsed.program.statements = [.expression value place] ∧
      tokenize "f(a) - b" false = .ok (tokens ++ [ending]) ∧
      lastKind tokens ≠ some .semicolon ∧
      parse (Setting.negated.text "f(a) - b") = .ok whole ∧
      (∀ diagnostic ∈ whole.diagnostics, ¬ diagnostic.TooDeep) ∧ whole.diagnostics = [] ∧
      whole.program.same ⟨[Setting.negated.statement value]⟩ = true := by
  have ran : parse "f(a) - b" =
      .ok (State.ofText "f(a) - b").finish := parse_eq (by decide)
  have clean : (State.ofText "f(a) - b").finish.diagnostics = [] := by
    decide +kernel
  have scanned := tokenize_eq (show "f(a) - b" ≠ "" by decide)
  have unclosed : lastKind (sourceTokens "f(a) - b") ≠ some .semicolon := by
    decide +kernel
  obtain ⟨whole, whole_ran, same⟩ := parse_in_setting .negated ran clean rfl scanned unclosed
  have shallow : ∀ diagnostic ∈ whole.diagnostics, ¬ diagnostic.TooDeep := by
    obtain rfl := Except.ok.inj (whole_ran.symm.trans (parse_eq (Setting.text_ne_empty _ _)))
    decide +kernel
  exact ⟨_, _, _, _, _, whole, ran, clean, rfl, scanned, unclosed, whole_ran, shallow, same shallow⟩

end Parser

end ExprLang
