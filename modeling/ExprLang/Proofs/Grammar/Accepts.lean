import ExprLang.Proofs.Digits
import ExprLang.Proofs.Grammar.Complete
import ExprLang.Proofs.Grammar.Sound
import ExprLang.Proofs.Reading.Source

/-!
# The accepted language

Parsing leaves no diagnostic exactly for the sources whose tokens the grammar derives as a
program, apart from two limits: the digits of an integer and the nesting of constructs
(`accepts_grammar`).
-/

namespace ExprLang.Parser

open Grammar (Derives)

/-- The tokens of a source can be read as long as its integers are not too long. -/
theorem sourceTokens_readable {source : String}
    (short : ∀ token ∈ sourceTokens source, token.kind = .integer →
      token.text.length ≤ maxDigits) :
    ∀ token ∈ sourceTokens source, Readable token := by
  intro token found integer
  obtain ⟨text, same⟩ := (Scanner.drain_scans (Scanner.ofText source false)).front token found
  have kind : (Lexeme.front text).kind = .integer := by
    rw [← same]
    exact integer
  obtain ⟨some_digit, all_digits⟩ := Lexeme.front_integer kind
  rw [← same] at some_digit all_digits
  exact ⟨_, readInteger?_of_digits (short token found integer) some_digit all_digits⟩

/-- The parser accepts exactly its grammar. For a source that is not empty, whose integers have
at most 4300 digits and that is not nested too deeply, parsing leaves no diagnostic if and only
if the tokens in front of the end are derived as a program. -/
theorem accepts_grammar {source : String} (nonempty : source ≠ "")
    (short : ∀ tokens, tokenize source false = .ok tokens → ∀ token ∈ tokens,
      token.kind = .integer → token.text.length ≤ 4300)
    (shallow : ∀ parsed, parse source = .ok parsed → ∀ diagnostic ∈ parsed.diagnostics,
      diagnostic.message ≠ "expression nested too deeply" ∧
        diagnostic.message ≠ "block nested too deeply") :
    ∃ tokens ending parsed, tokenize source false = .ok (tokens ++ [ending]) ∧
      ending.kind = .endOfInput ∧ (∀ token ∈ tokens, token.kind ≠ .endOfInput) ∧
      parse source = .ok parsed ∧
      (parsed.diagnostics = [] ↔ Derives (.rule .program) tokens) := by
  have ran := parse_eq nonempty
  have scanned := tokenize_eq nonempty
  refine ⟨sourceTokens source, _, _, scanned, (Scanner.drain_scans _).ending_kind,
    fun _ found => sourceTokens_kind found, ran, ?_⟩
  constructor
  · intro clean
    obtain ⟨levels, -, reads⟩ := parse_clean nonempty ran clean
    exact reads.derives
  · intro derives
    have readable := sourceTokens_readable fun token found integer =>
      short _ scanned token (List.mem_append_left _ found) integer
    obtain ⟨levels, values, reads⟩ := derives_reads derives readable
    by_cases enough : levels ≤ maxNesting
    · exact (parse_reads nonempty ran reads enough).2
    · obtain ⟨diagnostic, found, deep⟩ := parse_deep nonempty ran reads (Nat.lt_of_not_le enough)
      obtain ⟨plain, plain_block⟩ := shallow _ ran diagnostic found
      rcases Diagnostic.tooDeep_of_isDepth deep with message | message
      · exact absurd message plain
      · exact absurd message plain_block

/-- A call, which could be two statements, and a subtraction, which could be another one. -/
theorem accepts_grammar_adjacent :
    (∀ tokens, tokenize "a (b)\n-10" false = .ok tokens → ∀ token ∈ tokens,
      token.kind = .integer → token.text.length ≤ 4300) ∧
    (∀ parsed, parse "a (b)\n-10" = .ok parsed → ∀ diagnostic ∈ parsed.diagnostics,
      diagnostic.message ≠ "expression nested too deeply" ∧
        diagnostic.message ≠ "block nested too deeply") ∧
    ∃ tokens ending parsed, tokenize "a (b)\n-10" false = .ok (tokens ++ [ending]) ∧
      ending.kind = .endOfInput ∧ (∀ token ∈ tokens, token.kind ≠ .endOfInput) ∧
      parse "a (b)\n-10" = .ok parsed ∧
      (parsed.diagnostics = [] ↔ Derives (.rule .program) tokens) := by
  have short : ∀ tokens, tokenize "a (b)\n-10" false = .ok tokens → ∀ token ∈ tokens,
      token.kind = .integer → token.text.length ≤ 4300 := by
    intro tokens scanned
    rw [tokenize_eq (by decide)] at scanned
    obtain rfl := Except.ok.inj scanned
    decide +kernel
  have shallow : ∀ parsed, parse "a (b)\n-10" = .ok parsed → ∀ diagnostic ∈ parsed.diagnostics,
      diagnostic.message ≠ "expression nested too deeply" ∧
        diagnostic.message ≠ "block nested too deeply" := by
    intro parsed ran
    rw [parse_eq (by decide)] at ran
    obtain rfl := Except.ok.inj ran
    decide +kernel
  exact ⟨short, shallow, accepts_grammar (by decide) short shallow⟩

end ExprLang.Parser
