import ExprLang.Proofs.Reading.Move
import ExprLang.Proofs.Reading.Source
import ExprLang.Proofs.Spelling

/-!
# Readings of a spelled source

What a source says depends on the lexemes that it spells only. So a reading of these lexemes, all
at one place, tells what parsing the source gives (`parse_spelled`).
-/

namespace ExprLang

/-- A lexeme as a token at the fixed place. -/
def Lexeme.placed (lexeme : Lexeme) : Token := ⟨lexeme, .origin⟩

/-- Nothing binds looser than a token that is no operator. -/
theorem Precedence.not_lt_lowest (above : Precedence) : ¬ above < lowest := by
  cases above <;> decide

/-- The tokens of a source have the lexemes that the source spells. -/
theorem sourceTokens_spelled {source : String} {lexemes : List Lexeme}
    (spells : Spells source.toList lexemes) :
    (sourceTokens source).map (·.toLexeme) = lexemes :=
  spells.scans rfl rfl (Scanner.drain_scans (Scanner.ofText source false))

/-- A source spells the lexemes of its tokens. -/
theorem spells_sourceTokens (source : String) :
    Spells source.toList ((sourceTokens source).map (·.toLexeme)) :=
  (sourceStream_scans source).spells rfl

namespace Parser

/-- Where a source spells lexemes that have a reading, its tokens have this reading but for
positions. -/
theorem reads_spelled {source : String} {lexemes : List Lexeme}
    (spells : Spells source.toList lexemes) {levels : Nat} {values : List Stmt}
    (reads : ReadsProgram levels (lexemes.map Lexeme.placed) values) :
    ∃ found, Stmt.unplacedAll found = Stmt.unplacedAll values ∧
      ReadsProgram levels (sourceTokens source) found := by
  have alike : Alike (sourceTokens source) (lexemes.map Lexeme.placed) := by
    unfold Alike
    rw [sourceTokens_spelled spells, List.map_map]
    exact (List.map_id lexemes).symm
  exact reads.move alike

/-- Where a source spells lexemes that have a reading and there is room for it, parsing gives the
trees of the reading but for positions, and no diagnostic. -/
theorem parse_spelled {source : String} (nonempty : source ≠ "") {lexemes : List Lexeme}
    (spells : Spells source.toList lexemes) {levels : Nat} {values : List Stmt}
    (reads : ReadsProgram levels (lexemes.map Lexeme.placed) values)
    (enough : levels ≤ maxNesting) :
    ∃ parsed, parse source = .ok parsed ∧ parsed.program.same ⟨values⟩ = true ∧
      parsed.diagnostics = [] := by
  obtain ⟨found, same, moved⟩ := reads_spelled spells reads
  have ran := parse_eq nonempty
  obtain ⟨program, clean⟩ := parse_reads nonempty ran moved enough
  refine ⟨_, ran, ?_, clean⟩
  rw [program, Program.same_iff]
  exact congrArg Program.mk same

/-- Where parsing a source leaves no diagnostic, it gives the trees of every reading of the
lexemes that the source spells. -/
theorem parse_spelled_clean {source : String} (nonempty : source ≠ "") {lexemes : List Lexeme}
    (spells : Spells source.toList lexemes) {parsed : Parsed} (ran : parse source = .ok parsed)
    (clean : parsed.diagnostics = []) {levels : Nat} {values : List Stmt}
    (reads : ReadsProgram levels (lexemes.map Lexeme.placed) values) :
    parsed.program.same ⟨values⟩ = true := by
  obtain ⟨found, same, moved⟩ := reads_spelled spells reads
  by_cases enough : levels ≤ maxNesting
  · rw [(parse_reads nonempty ran moved enough).1, Program.same_iff]
    exact congrArg Program.mk same
  · obtain ⟨diagnostic, recorded, -⟩ :=
      parse_deep nonempty ran moved (Nat.lt_of_not_le enough)
    rw [clean] at recorded
    exact absurd recorded List.not_mem_nil

end Parser

/-! ## Readings at the fixed place -/

namespace Parser

section

variable {above : Precedence} {sign : Lexeme} {operator : String} {levels near far : Nat}
variable {tokens middle rest : List Token} {left right value : Expr}

/-- A reading that opens the same levels. -/
theorem Reads.opening {phrase : Phrase} {levels same : Nat} {tokens rest : List Token}
    (reads : Reads phrase levels tokens rest) (equal : levels = same) :
    Reads phrase same tokens rest := equal ▸ reads

/-- An operator before its operand, by its text. -/
theorem Reads.unary_placed (kind : sign.kind = .bang ∨ sign.kind = .minus)
    (text : sign.text = operator) (operand : Reads (.expression .unary value) levels tokens rest) :
    Reads (.operand (.unary operator value .origin)) levels (sign.placed :: tokens) rest := by
  subst text
  exact @Reads.unary sign.placed _ _ _ _ kind operand

/-- An operator with its right operand, by its text. -/
theorem Reads.binary_placed (tighter : above < .ofKind sign.kind) (kind : sign.kind ≠ .leftParen)
    (text : sign.text = operator)
    (operand : Reads (.expression (.ofKind sign.kind) right) near tokens middle)
    (more : Reads (.operators above (.binary operator left right .origin) value) far middle rest) :
    Reads (.operators above left value) (max near far) (sign.placed :: tokens) rest := by
  subst text
  exact @Reads.binary above sign.placed _ _ _ _ _ _ _ _ tighter kind operand more

end

end Parser

end ExprLang
