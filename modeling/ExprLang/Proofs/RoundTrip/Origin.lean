import ExprLang.Proofs.Account.Basic
import ExprLang.Proofs.Reading.Extent
import ExprLang.Proofs.Reading.Source
import ExprLang.Proofs.RoundTrip.Basic

/-!
# Trees that come from a source

What is read from the lexemes of a source can be written down again (`Reads.writable`): the names
in its tree are words of the source, its integers have no more digits than those of the source, and
its operators are signs. So the program that parsing gives is writable where there is no diagnostic
(`parse_writable`).
-/

namespace ExprLang

/-! ## Genuine lexemes -/

namespace Lexeme.Genuine

variable {lexeme : Lexeme}

/-- The text of an identifier is a proper name. -/
theorem name (genuine : lexeme.Genuine) (kind : lexeme.kind = .identifier) (position : Position) :
    Ident.Proper ⟨lexeme.text, position⟩ := by
  cases genuine with
  | @word word some_letter letters =>
    refine ⟨some_letter, letters, ?_⟩
    rintro entry listed rfl
    have kinds : ∀ entry ∈ keywords, (ofWord entry.1).kind ≠ .identifier := by decide
    exact kinds entry listed kind
  | number => cases kind
  | single listed =>
    have kinds : ∀ entry ∈ singleSigns, entry.2 ≠ .identifier := by decide
    exact absurd kind (kinds _ listed)
  | double listed =>
    have kinds : ∀ entry ∈ doubleSigns, entry.2 ≠ .identifier := by decide
    exact absurd kind (kinds _ listed)
  | other other => simp [kind] at other

/-- The text of an operator is the sign of its kind. -/
theorem operator (genuine : lexeme.Genuine) :
    (lexeme.kind = .bang ∨ lexeme.kind = .minus → lexeme.text ∈ ["-", "!"]) ∧
      (lexeme.kind.isInfix = true →
        lexeme.text ∈ ["+", "-", "*", "/", "<", ">", "==", "!="]) := by
  cases genuine with
  | @word word _ _ =>
    have kinds : ∀ entry ∈ keywords, ¬ (entry.2 = .bang ∨ entry.2 = .minus) ∧
        entry.2.isInfix = false := by decide
    rcases ofWord_kind word with name | keyword
    · simp [name, Kind.isInfix]
    · obtain ⟨no_sign, not_between⟩ := kinds _ keyword
      exact ⟨fun sign => absurd sign no_sign, fun sign => absurd sign (by simp [not_between])⟩
  | number => exact ⟨by simp, by simp [Kind.isInfix]⟩
  | single listed =>
    have texts : ∀ entry ∈ singleSigns,
        (entry.2 = .bang ∨ entry.2 = .minus → String.ofList [entry.1] ∈ ["-", "!"]) ∧
          (entry.2.isInfix = true →
            String.ofList [entry.1] ∈ ["+", "-", "*", "/", "<", ">", "==", "!="]) := by decide
    exact texts _ listed
  | double listed =>
    have texts : ∀ entry ∈ doubleSigns,
        (entry.2 = .bang ∨ entry.2 = .minus →
            String.ofList [entry.1.1, entry.1.2] ∈ ["-", "!"]) ∧
          (entry.2.isInfix = true → String.ofList [entry.1.1, entry.1.2] ∈
            ["+", "-", "*", "/", "<", ">", "==", "!="]) := by decide
    exact texts _ listed
  | other kind => rcases kind with kind | kind | kind <;> simp [kind, Kind.isInfix]

/-- An integer that is read from a text is written with no more digits than this text. -/
theorem integer (genuine : lexeme.Genuine) (kind : lexeme.kind = .integer) {value : Int}
    (readable : Parser.readInteger? lexeme.text = some value) :
    0 ≤ value ∧ (toString value).length ≤ 4300 := by
  obtain ⟨some_digit, all_digits⟩ := genuine.digits kind
  have short : lexeme.text.length ≤ Parser.maxDigits := by
    by_contra long
    rw [Parser.readInteger?, if_neg long] at readable
    cases readable
  obtain rfl := Parser.readInteger?_digits_eq some_digit all_digits readable
  have below := Parser.ofDigitChars_lt all_digits 0
  have positive : 0 < lexeme.text.toList.length := List.length_pos_iff.mpr some_digit
  rw [Nat.zero_add, Nat.one_mul] at below
  have written := Nat.repr_length _ _ positive below
  rw [String.length_toList] at written
  refine ⟨Int.natCast_nonneg _, ?_⟩
  exact Nat.le_trans written short

end Lexeme.Genuine

namespace Parser

/-! ## Trees of genuine tokens -/

/-- Every token has a lexeme that a text can start with. -/
def Genuine (tokens : List Token) : Prop := ∀ token ∈ tokens, token.toLexeme.Genuine

namespace Genuine

variable {token : Token} {tokens rest : List Token}

/-- The first of genuine tokens is genuine. -/
theorem head (genuine : Genuine (token :: tokens)) : token.toLexeme.Genuine :=
  genuine token List.mem_cons_self

/-- Genuine tokens are genuine behind the first one. -/
theorem tail (genuine : Genuine (token :: tokens)) : Genuine tokens :=
  fun other found => genuine other (List.mem_cons_of_mem _ found)

/-- Genuine tokens are genuine behind a reading. -/
theorem behind {phrase : Phrase} {levels : Nat} (genuine : Genuine tokens)
    (reads : Reads phrase levels tokens rest) : Genuine rest := by
  obtain ⟨used, rfl, -⟩ := reads.extent
  exact fun other found => genuine other (List.mem_append_right used found)

end Genuine

/-- What is known of the tree of a construct with genuine tokens. -/
def Phrase.Writable : Phrase → Prop
  | .expression _ value | .operand value => value.Writable
  | .operators _ left value => left.Writable → value.Writable
  | .arguments values | .moreArguments values => Expr.WritableAll values
  | .block body | .statements body => Stmt.WritableAll body
  | .statement value => value.Writable

/-- Further names are proper. -/
theorem ReadsMoreNames.proper {tokens rest : List Token} {names : List Ident}
    (reads : ReadsMoreNames tokens rest names) (genuine : Genuine tokens) :
    ∀ name ∈ names, name.Proper := by
  induction reads with
  | last => exact nofun
  | next _ named _ ih =>
    exact List.forall_mem_cons.mpr ⟨genuine.tail.head.name named _, ih genuine.tail.tail⟩

/-- Parameters are proper. -/
theorem ReadsNames.proper {tokens rest : List Token} {names : List Ident}
    (reads : ReadsNames tokens rest names) (genuine : Genuine tokens) :
    ∀ name ∈ names, name.Proper := by
  cases reads with
  | none => exact nofun
  | some named more =>
    exact List.forall_mem_cons.mpr ⟨genuine.head.name named _, more.proper genuine.tail⟩

/-- What is read from genuine tokens is writable. -/
theorem Reads.writable {phrase : Phrase} {levels : Nat} {tokens rest : List Token}
    (reads : Reads phrase levels tokens rest) (genuine : Genuine tokens) : phrase.Writable := by
  induction reads with
  | expression reads _ first more => exact more (genuine.behind reads) (first genuine)
  | name kind => exact genuine.head.name kind _
  | integer kind readable => exact genuine.head.integer kind readable
  | boolean => exact trivial
  | unary kind _ operand => exact ⟨genuine.head.operator.1 kind, operand genuine.tail⟩
  | grouped _ _ _ inside => exact inside genuine.tail
  | function _ _ parameters _ _ block =>
    refine ⟨parameters.proper genuine.tail.tail, block ?_⟩
    obtain ⟨used, rfl, -⟩ := parameters.extent
    exact fun token found => genuine.tail.tail token
      (List.mem_append_right used (List.mem_cons_of_mem _ found))
  | noOperator => exact id
  | binary tighter kind reads _ operand more =>
    intro left
    refine more (genuine.tail.behind reads) ⟨?_, left, operand genuine.tail⟩
    exact genuine.head.operator.2 (Kind.isInfix_of_tighter tighter kind)
  | call _ _ reads _ arguments more =>
    intro left
    exact more (genuine.tail.behind reads) ⟨left, arguments genuine.tail⟩
  | noArgument => exact trivial
  | arguments reads _ first more => exact ⟨first genuine, more (genuine.behind reads)⟩
  | lastArgument => exact trivial
  | nextArgument _ reads _ first more =>
    exact ⟨first genuine.tail, more (genuine.tail.behind reads)⟩
  | block _ inside => exact inside genuine
  | lastStatement => exact trivial
  | nextStatement reads _ first more =>
    exact ⟨first genuine, fun _ _ => trivial, more (genuine.behind reads)⟩
  | binding _ named _ _ _ inside =>
    exact ⟨genuine.tail.head.name named _, inside genuine.tail.tail.tail⟩
  | bareResult => exact trivial
  | result _ _ _ inside => exact inside genuine.tail
  | terminated _ _ inside => exact inside genuine
  | unterminated _ _ inside => exact inside genuine
  | condition _ _ reads _ _ _ _ tested block =>
    have behind := (genuine.tail.tail.behind reads).tail.tail
    exact ⟨tested genuine.tail.tail, block behind⟩
  | alternative _ _ reads _ _ first_reads _ _ _ tested first second =>
    have behind := (genuine.tail.tail.behind reads).tail.tail
    have further := (behind.behind first_reads).tail.tail
    exact ⟨tested genuine.tail.tail, first behind, second further⟩

/-- A program that is read from genuine tokens is writable. -/
theorem ReadsProgram.writable {levels : Nat} {tokens : List Token} {values : List Stmt}
    (reads : ReadsProgram levels tokens values) (genuine : Genuine tokens) :
    Stmt.WritableAll values := by
  induction reads with
  | done => exact trivial
  | next first _ ih =>
    exact ⟨first.writable genuine, fun _ _ => trivial, ih (genuine.behind first)⟩

/-- The tokens of a source are genuine. -/
theorem sourceTokens_genuine (source : String) : Genuine (sourceTokens source) := by
  intro token found
  obtain ⟨text, same⟩ := (sourceStream_scans source).front token found
  rw [same]
  exact Lexeme.front_genuine text

/-- The program of a source without a diagnostic is writable. -/
theorem parse_writable {source : String} {parsed : Parsed} (ran : parse source = .ok parsed)
    (clean : parsed.diagnostics = []) : Stmt.WritableAll parsed.program.statements := by
  obtain ⟨levels, -, reads⟩ := parse_clean (nonempty_of_parse ran) ran clean
  exact reads.writable (sourceTokens_genuine source)

end Parser

end ExprLang
