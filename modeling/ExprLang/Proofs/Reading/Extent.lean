import ExprLang.Proofs.Reading.Basic

/-!
# The extent of a reading

A reading passes some tokens and looks at one more. So the tokens behind it may be exchanged for
others: behind an expression for those that bind as tightly, behind a statement for those whose
first kind it cannot tell from theirs (`Kindred`), and where the last token passed tells that the
construct is over, for any (`Reads.extent`). What the last token is follows
along the way, for an expression never ends with a semicolon.
-/

namespace ExprLang

/-- Whether a statement is a condition. -/
def Stmt.isCondition : Stmt → Bool
  | .condition .. => true
  | _ => false

namespace Parser

/-! ## Last tokens -/

/-- The kind of the last token. -/
def lastKind (tokens : List Token) : Option Kind := tokens.getLast?.map (·.kind)

/-- Tokens with a last one are not empty. -/
theorem ne_nil_of_lastKind {kind : Kind} {tokens : List Token}
    (last : lastKind tokens = some kind) : tokens ≠ [] := by
  rintro rfl
  cases last

/-- Tokens in front of others do not change the last one. -/
theorem lastKind_append_of_ne_nil (before : List Token) {tokens : List Token}
    (some_tokens : tokens ≠ []) : lastKind (before ++ tokens) = lastKind tokens := by
  obtain ⟨token, found⟩ := Option.isSome_iff_exists.mp (List.getLast?_isSome.mpr some_tokens)
  rw [lastKind, lastKind, List.getLast?_append, found]
  rfl

/-- Behind other tokens the last one stays. -/
theorem lastKind_append {kind : Kind} (before : List Token) {tokens : List Token}
    (last : lastKind tokens = some kind) : lastKind (before ++ tokens) = some kind :=
  (lastKind_append_of_ne_nil before (ne_nil_of_lastKind last)).trans last

/-- The last token is the last one of a part. -/
theorem lastKind_append_ne {kind : Kind} {before tokens : List Token}
    (left : lastKind before ≠ some kind) (right : lastKind tokens ≠ some kind) :
    lastKind (before ++ tokens) ≠ some kind := by
  intro last
  obtain ⟨token, found, same⟩ := Option.map_eq_some_iff.mp last
  rw [List.getLast?_append] at found
  rcases Option.or_eq_some_iff.mp found with here | ⟨-, here⟩
  · exact right (by rw [lastKind, here, Option.map_some, same])
  · exact left (by rw [lastKind, here, Option.map_some, same])

/-- A further token in front does not change the last one. -/
theorem lastKind_cons_ne {kind : Kind} {token : Token} {tokens : List Token}
    (left : token.kind ≠ kind) (right : lastKind tokens ≠ some kind) :
    lastKind (token :: tokens) ≠ some kind := by
  have single : lastKind [token] ≠ some kind := by simpa [lastKind] using left
  exact lastKind_append_ne single right

/-- The kind of a single token. -/
@[simp]
theorem lastKind_singleton (token : Token) : lastKind [token] = some token.kind := rfl

/-- The first kind of some tokens does not depend on those behind. -/
theorem headKind_append_of_ne_nil {used : List Token} (some_used : used ≠ [])
    (other rest : List Token) : headKind (used ++ other) = headKind (used ++ rest) := by
  obtain ⟨token, used, rfl⟩ := List.exists_cons_of_ne_nil some_used
  rfl

/-- The first tokens of two lists bind as tightly behind the same tokens. -/
theorem binds_append {other rest : List Token}
    (same : Precedence.ofKind (headKind other) = .ofKind (headKind rest)) (used : List Token) :
    Precedence.ofKind (headKind (used ++ other)) = .ofKind (headKind (used ++ rest)) := by
  cases used with
  | nil => exact same
  | cons token used => rfl

/-- A statement in front of two lists of tokens cannot tell their first kinds apart. -/
structure Kindred (other rest : List Token) : Prop where
  /-- They bind as tightly. -/
  binds : Precedence.ofKind (headKind other) = .ofKind (headKind rest)
  /-- Neither ends a statement, or both do. -/
  closes : headKind other = .semicolon ↔ headKind rest = .semicolon
  /-- Neither begins another branch, or both do. -/
  otherwise : headKind other = .elseWord ↔ headKind rest = .elseWord

namespace Kindred

variable {other rest : List Token}

/-- Tokens with the same first kind. -/
theorem of_head (same : headKind other = headKind rest) : Kindred other rest := by
  constructor <;> rw [same]

/-- It does not matter which of the two comes first. -/
theorem symm (kindred : Kindred other rest) : Kindred rest other :=
  ⟨kindred.binds.symm, kindred.closes.symm, kindred.otherwise.symm⟩

/-- Tokens in front of a closing brace and at the end of a source. -/
theorem braced (tokens : List Token) {close : Token} (closing : close.kind = .rightBrace)
    (rest : List Token) : Kindred (tokens ++ close :: rest) tokens := by
  cases tokens with
  | nil => constructor <;> simp [headKind, closing, Precedence.ofKind]
  | cons token tokens => exact of_head rfl

end Kindred

/-! ## Passed tokens -/

/-- What is known of the tokens that a construct passes. -/
def Phrase.Ends (used : List Token) : Phrase → Prop
  | .expression _ _ | .operand _ => used ≠ [] ∧ lastKind used ≠ some .semicolon
  | .operators _ _ _ => lastKind used ≠ some .semicolon
  | .arguments _ | .moreArguments _ => lastKind used = some .rightParen
  | .block _ | .statements _ => lastKind used = some .rightBrace
  | .statement value => used ≠ [] ∧ (value.isCondition = true → lastKind used = some .rightBrace)

/-- Whether the tokens behind a construct may be exchanged for others: where the first ones bind as
tightly, for a statement where it cannot tell the first kinds apart, and where the construct is
over with its last token. -/
def Phrase.Permits (used rest other : List Token) : Phrase → Prop
  | .arguments _ | .moreArguments _ | .block _ | .statements _ => True
  | .statement value => Kindred other rest ∨ lastKind used = some .semicolon ∨
    value.isCondition = true ∧ headKind other ≠ .elseWord
  | _ => Precedence.ofKind (headKind other) = .ofKind (headKind rest)

/-- A construct passes some tokens of a list, and can be read in front of other tokens too. -/
def Phrase.Extends (levels : Nat) (tokens rest : List Token) (phrase : Phrase) : Prop :=
  ∃ used, tokens = used ++ rest ∧ phrase.Ends used ∧
    ∀ other, phrase.Permits used rest other → Reads phrase levels (used ++ other) other

/-- Further names can be read in front of any tokens. -/
theorem ReadsMoreNames.extent {tokens rest : List Token} {names : List Ident}
    (reads : ReadsMoreNames tokens rest names) :
    ∃ used, tokens = used ++ rest ∧ lastKind used = some .rightParen ∧
      ∀ other, ReadsMoreNames (used ++ other) other names := by
  induction reads with
  | @last close rest closing => exact ⟨[close], rfl, by simp [closing], fun _ => .last closing⟩
  | @next comma name tokens rest names separator named _ ih =>
    obtain ⟨used, rfl, last, reads⟩ := ih
    exact ⟨comma :: name :: used, rfl, lastKind_append [comma, name] last,
      fun other => .next separator named (reads other)⟩

/-- Parameters can be read in front of any tokens. -/
theorem ReadsNames.extent {tokens rest : List Token} {names : List Ident}
    (reads : ReadsNames tokens rest names) :
    ∃ used, tokens = used ++ rest ∧ lastKind used = Option.some .rightParen ∧
      ∀ other, ReadsNames (used ++ other) other names := by
  cases reads with
  | @none close _ closing => exact ⟨[close], rfl, by simp [closing], fun _ => .none closing⟩
  | @some name _ _ _ named more =>
    obtain ⟨used, rfl, last, reads⟩ := more.extent
    exact ⟨name :: used, rfl, lastKind_append [name] last, fun other => .some named (reads other)⟩

/-- The tokens behind parameters may be exchanged for any others. -/
theorem ReadsNames.exchange {used rest : List Token} {names : List Ident}
    (reads : ReadsNames (used ++ rest) rest names) (other : List Token) :
    ReadsNames (used ++ other) other names := by
  obtain ⟨passed, same, -, again⟩ := reads.extent
  obtain rfl := List.append_cancel_right same
  exact again other

/-- A reading passes some tokens and depends on one more at the most. -/
theorem Reads.extent {phrase : Phrase} {levels : Nat} {tokens rest : List Token}
    (reads : Reads phrase levels tokens rest) : phrase.Extends levels tokens rest := by
  induction reads with
  | expression _ _ first more =>
    obtain ⟨behind, rfl, ends, reads_more⟩ := more
    obtain ⟨used, rfl, begins, reads_first⟩ := first
    refine ⟨used ++ behind, by simp, ⟨by simp [begins.1], lastKind_append_ne begins.2 ends⟩, ?_⟩
    intro other same
    rw [List.append_assoc]
    exact .expression (reads_first _ (binds_append same behind)) (reads_more other same)
  | @name token _ kind =>
    exact ⟨[token], rfl, ⟨by simp, by simp [kind]⟩, fun _ _ => .name kind⟩
  | @integer token _ _ kind readable =>
    exact ⟨[token], rfl, ⟨by simp, by simp [kind]⟩, fun _ _ => .integer kind readable⟩
  | @boolean token _ kind =>
    refine ⟨[token], rfl, ⟨by simp, ?_⟩, fun _ _ => .boolean kind⟩
    rcases kind with kind | kind <;> simp [kind]
  | @unary sign _ _ _ _ kind _ operand =>
    obtain ⟨used, rfl, ends, reads⟩ := operand
    refine ⟨sign :: used, rfl, ⟨by simp, lastKind_cons_ne ?_ ends.2⟩, fun other same =>
      .unary kind (reads other same)⟩
    rcases kind with kind | kind <;> simp [kind]
  | @grouped opening close _ _ _ _ kind _ closing inside =>
    obtain ⟨used, rfl, -, reads⟩ := inside
    refine ⟨opening :: (used ++ [close]), by simp, ⟨by simp, ?_⟩, fun other _ => ?_⟩
    · have last := lastKind_append (opening :: used) (lastKind_singleton close)
      rw [← List.cons_append, last, closing]
      decide
    · rw [List.cons_append, List.append_assoc]
      exact .grouped kind (reads _ rfl) closing
  | @function keyword opening brace _ _ _ _ _ _ kind paren parameters curly _ block =>
    obtain ⟨used, rfl, -, names⟩ := parameters.extent
    obtain ⟨inside, rfl, ends, reads⟩ := block
    refine ⟨keyword :: opening :: (used ++ brace :: inside), by simp, ⟨by simp, ?_⟩,
      fun other _ => ?_⟩
    · have last := lastKind_append (keyword :: opening :: (used ++ [brace])) ends
      simp only [List.cons_append, List.append_assoc, List.nil_append] at last
      rw [last]
      decide
    · rw [List.cons_append, List.cons_append, List.append_assoc, List.cons_append]
      exact .function kind paren (names _) curly (reads other trivial)
  | noOperator looser =>
    refine ⟨[], rfl, by simp [Phrase.Ends, lastKind], fun other same => .noOperator ?_⟩
    rwa [List.nil_append, same]
  | @binary above sign _ _ _ _ _ _ _ _ tighter kind _ _ operand more =>
    obtain ⟨behind, rfl, ends, reads_more⟩ := more
    obtain ⟨used, rfl, begins, reads⟩ := operand
    refine ⟨sign :: (used ++ behind), by simp, ?_, fun other same => ?_⟩
    · refine lastKind_cons_ne (fun closed => ?_) (lastKind_append_ne begins.2 ends)
      rw [closed] at tighter
      cases above <;> exact absurd tighter (by decide)
    · rw [List.cons_append, List.append_assoc]
      exact .binary tighter kind (reads _ (binds_append same behind)) (reads_more other same)
  | @call _ opening _ _ _ _ _ _ _ _ tighter kind _ _ arguments more =>
    obtain ⟨behind, rfl, ends, reads_more⟩ := more
    obtain ⟨used, rfl, begins, reads⟩ := arguments
    refine ⟨opening :: (used ++ behind), by simp, ?_, fun other same => ?_⟩
    · refine lastKind_cons_ne (by simp [kind]) (lastKind_append_ne ?_ ends)
      rw [show lastKind used = _ from begins]
      decide
    · rw [List.cons_append, List.append_assoc]
      exact .call tighter kind (reads _ trivial) (reads_more other same)
  | @noArgument close _ closing =>
    exact ⟨[close], rfl, by simp [Phrase.Ends, closing], fun _ _ => .noArgument closing⟩
  | arguments _ _ first more =>
    obtain ⟨behind, rfl, ends, reads_more⟩ := more
    obtain ⟨used, rfl, -, reads⟩ := first
    refine ⟨used ++ behind, by simp, lastKind_append used ends, fun other _ => ?_⟩
    rw [List.append_assoc]
    have head := headKind_append_of_ne_nil (ne_nil_of_lastKind ends) other
    exact .arguments (reads _ (congrArg _ (head _))) (reads_more other trivial)
  | @lastArgument close _ closing =>
    exact ⟨[close], rfl, by simp [Phrase.Ends, closing], fun _ _ => .lastArgument closing⟩
  | @nextArgument comma _ _ _ _ _ _ _ separator _ _ first more =>
    obtain ⟨behind, rfl, ends, reads_more⟩ := more
    obtain ⟨used, rfl, -, reads⟩ := first
    refine ⟨comma :: (used ++ behind), by simp, lastKind_append (comma :: used) ends,
      fun other _ => ?_⟩
    rw [List.cons_append, List.append_assoc]
    have head := headKind_append_of_ne_nil (ne_nil_of_lastKind ends) other
    exact .nextArgument separator (reads _ (congrArg _ (head _))) (reads_more other trivial)
  | block _ inside =>
    obtain ⟨used, rfl, ends, reads⟩ := inside
    exact ⟨used, rfl, ends, fun other _ => .block (reads other trivial)⟩
  | @lastStatement close _ closing =>
    exact ⟨[close], rfl, by simp [Phrase.Ends, closing], fun _ _ => .lastStatement closing⟩
  | nextStatement _ _ first more =>
    obtain ⟨behind, rfl, ends, reads_more⟩ := more
    obtain ⟨used, rfl, -, reads⟩ := first
    refine ⟨used ++ behind, by simp, lastKind_append used ends, fun other _ => ?_⟩
    rw [List.append_assoc]
    have kindred := headKind_append_of_ne_nil (ne_nil_of_lastKind ends) other
    exact .nextStatement (reads _ (.inl (.of_head (kindred _)))) (reads_more other trivial)
  | @binding keyword target sign close _ _ _ _ kind named assigned _ closing inside =>
    obtain ⟨used, rfl, -, reads⟩ := inside
    refine ⟨keyword :: target :: sign :: (used ++ [close]), by simp, ⟨by simp, nofun⟩,
      fun other _ => ?_⟩
    simp only [List.cons_append, List.append_assoc]
    exact .binding kind named assigned (reads _ rfl) closing
  | @bareResult keyword close _ kind closing =>
    exact ⟨[keyword, close], rfl, ⟨by simp, nofun⟩, fun _ _ => .bareResult kind closing⟩
  | @result keyword close _ _ _ _ kind _ closing inside =>
    obtain ⟨used, rfl, -, reads⟩ := inside
    refine ⟨keyword :: (used ++ [close]), by simp, ⟨by simp, nofun⟩, fun other _ => ?_⟩
    rw [List.cons_append, List.append_assoc]
    exact .result kind (reads _ rfl) closing
  | @terminated first close _ _ _ _ _ closing inside =>
    obtain ⟨used, split, begins, reads⟩ := inside
    obtain ⟨token, used, rfl⟩ := List.exists_cons_of_ne_nil begins.1
    obtain ⟨rfl, rfl⟩ := List.cons.inj split
    refine ⟨first :: (used ++ [close]), by simp, ⟨by simp, nofun⟩, fun other _ => ?_⟩
    rw [List.cons_append, List.append_assoc]
    exact .terminated (reads _ rfl) closing
  | @unterminated first _ _ _ _ _ following inside =>
    obtain ⟨used, split, begins, reads⟩ := inside
    obtain ⟨token, used, rfl⟩ := List.exists_cons_of_ne_nil begins.1
    obtain ⟨rfl, rfl⟩ := List.cons.inj split
    refine ⟨first :: used, rfl, ⟨by simp, nofun⟩, fun other permits => ?_⟩
    rcases permits with same | closed | ⟨other_kind, -⟩
    · exact .unterminated (reads other same.binds) fun closed => following (same.closes.mp closed)
    · exact absurd closed begins.2
    · cases other_kind
  | @condition keyword opening close brace _ _ _ _ _ _ _ kind paren _ closing curly _ following
      tested block =>
    obtain ⟨behind, rfl, ends, reads_block⟩ := block
    obtain ⟨used, rfl, -, reads⟩ := tested
    have last := lastKind_append (keyword :: opening :: (used ++ [close, brace])) ends
    simp only [List.cons_append, List.append_assoc, List.nil_append] at last
    refine ⟨keyword :: opening :: (used ++ close :: brace :: behind), by simp,
      ⟨by simp, fun _ => last⟩, fun other permits => ?_⟩
    have follows : headKind other ≠ .elseWord := by
      rcases permits with same | closed | ⟨-, absent⟩
      · exact fun other => following (same.otherwise.mp other)
      · rw [last] at closed
        cases closed
      · exact absent
    simp only [List.cons_append, List.append_assoc]
    exact .condition kind paren (reads _ rfl) closing curly
      (reads_block other trivial) follows
  | @alternative keyword opening close brace other curl _ _ _ _ _ _ _ _ _ _ kind paren _ closing
      curly _ otherwise curled _ tested first second =>
    obtain ⟨last, rfl, ends, reads_last⟩ := second
    obtain ⟨middle, rfl, -, reads_first⟩ := first
    obtain ⟨used, rfl, -, reads⟩ := tested
    have closed := lastKind_append
      (keyword :: opening :: (used ++ close :: brace :: (middle ++ [other, curl]))) ends
    simp only [List.cons_append, List.append_assoc, List.nil_append] at closed
    refine ⟨keyword :: opening :: (used ++ close :: brace :: (middle ++ other :: curl :: last)),
      by simp, ⟨by simp, fun _ => closed⟩, fun behind _ => ?_⟩
    simp only [List.cons_append, List.append_assoc]
    exact .alternative kind paren (reads _ rfl) closing curly
      (reads_first _ trivial) otherwise curled (reads_last behind trivial)

/-- The tokens behind a reading may be exchanged for others that it permits. -/
theorem Reads.exchange {phrase : Phrase} {levels : Nat} {used rest : List Token}
    (reads : Reads phrase levels (used ++ rest) rest) (other : List Token)
    (permits : phrase.Permits used rest other) : Reads phrase levels (used ++ other) other := by
  obtain ⟨passed, same, -, again⟩ := reads.extent
  obtain rfl := List.append_cancel_right same
  exact again other permits

/-- An expression at the end of a source is read alike in front of every token that binds as the
end does. -/
theorem Reads.before {value : Expr} {levels : Nat} {tokens : List Token}
    (reads : Reads (.expression .lowest value) levels tokens []) (close : Token)
    (closing : Precedence.ofKind close.kind = .lowest) (rest : List Token) :
    Reads (.expression .lowest value) levels (tokens ++ close :: rest) (close :: rest) := by
  have alone : Reads (.expression .lowest value) levels (tokens ++ []) [] := by
    rwa [List.append_nil]
  exact alone.exchange _ closing

/-! ## Statements of a source and of a block -/

/-- The statements of a source are those of a block with the same tokens. -/
theorem ReadsProgram.braced {levels : Nat} {tokens : List Token} {values : List Stmt}
    (reads : ReadsProgram levels tokens values) {close : Token} (closing : close.kind = .rightBrace)
    (rest : List Token) : Reads (.statements values) levels (tokens ++ close :: rest) rest := by
  induction reads with
  | done => exact .lastStatement closing
  | next first _ ih =>
    obtain ⟨used, rfl, -, reads⟩ := first.extent
    rw [List.append_assoc]
    exact .nextStatement (reads _ (.inl (.braced _ closing rest))) ih

/-- A source that is one expression without a semicolon is read as this expression. -/
theorem ReadsProgram.sole {levels : Nat} {tokens : List Token} {value : Expr} {place : Position}
    (reads : ReadsProgram levels tokens [.expression value place])
    (unclosed : lastKind tokens ≠ some .semicolon) :
    ∃ near, Reads (.expression .lowest value) near tokens [] := by
  cases reads with
  | next first more =>
    cases more
    cases first with
    | terminated inside closing =>
      obtain ⟨used, split, -⟩ := inside.extent
      rw [split] at unclosed
      exact absurd (lastKind_append used (by simp [closing])) unclosed
    | unterminated inside _ => exact ⟨_, inside⟩

/-- The statements of a block are those of a source with the same tokens. -/
theorem Reads.unbraced {levels : Nat} {tokens rest : List Token} {values : List Stmt}
    (reads : Reads (.statements values) levels tokens rest) :
    ∃ inside close, tokens = inside ++ close :: rest ∧ close.kind = .rightBrace ∧
      ReadsProgram levels inside values := by
  generalize same : Phrase.statements values = phrase at reads
  induction reads generalizing values with
  | @lastStatement close rest closing =>
    obtain rfl := Phrase.statements.inj same
    exact ⟨[], close, rfl, closing, .done⟩
  | @nextStatement near far tokens middle rest value others first _ _ more =>
    obtain rfl := Phrase.statements.inj same
    obtain ⟨inside, close, rfl, closing, program⟩ := more rfl
    obtain ⟨used, rfl, -, reads⟩ := first.extent
    have kindred := (Kindred.braced inside closing rest).symm
    exact ⟨used ++ inside, close, by simp, closing, .next (reads _ (.inl kindred)) program⟩
  | _ => cases same

end Parser

end ExprLang
