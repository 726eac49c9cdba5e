import ExprLang.Proofs.Grammar.Basic
import ExprLang.Proofs.Reading.Basic

/-!
# Derivations are readings

The grammar leaves open where one expression ends and the next begins, and in which order the
operators of an expression are applied. A reader has to decide both. This module shows that the
choices of the parser never cost it a sentence: an expression of the grammar is flat, operands
with operators between them (`Flat`), and of a flat expression the parser reads as much as binds
tighter than its level (`flat_leaves`). An expression behind another one that it could extend is
read as the rest of it (`sentences_read`). So every program of the grammar has a reading
(`derives_reads`).
-/

namespace ExprLang.Parser

open Grammar (Form Symbol Derives Repeats)

/-! ## Flat expressions -/

/-- Tokens that are read as one operand, whatever follows, and not by an operator before it. -/
structure Atom (tokens : List Token) : Prop where
  /-- The first token is no operator. -/
  plain : headKind tokens ≠ .bang ∧ headKind tokens ≠ .minus
  /-- All tokens are read as an operand. -/
  reads : ∀ rest, ∃ levels value, Reads (.operand value) levels (tokens ++ rest) rest

/-- Tokens that are read as arguments, whatever follows. -/
def ArgumentList (tokens : List Token) : Prop :=
  ∀ rest, ∃ levels values, Reads (.arguments values) levels (tokens ++ rest) rest

mutual

/-- Operands with operators between them. -/
inductive Flat : List Token → Prop where
  /-- An operand without an operator before it. -/
  | atom {tokens tail : List Token} (atom : Atom tokens) (more : Tail tail) : Flat (tokens ++ tail)
  /-- An operator before an expression. -/
  | unary {sign : Token} {tokens : List Token} (kind : sign.kind = .bang ∨ sign.kind = .minus)
      (operand : Flat tokens) : Flat (sign :: tokens)

/-- What may follow an operand in an expression. -/
inductive Tail : List Token → Prop where
  /-- Nothing. -/
  | done : Tail []
  /-- An operator and an expression. -/
  | binary {sign : Token} {tokens : List Token}
      (kind : Precedence.lowest < .ofKind sign.kind ∧ sign.kind ≠ .leftParen)
      (operand : Flat tokens) : Tail (sign :: tokens)
  /-- Arguments. -/
  | call {opening : Token} {tokens tail : List Token} (kind : opening.kind = .leftParen)
      (arguments : ArgumentList tokens) (more : Tail tail) : Tail (opening :: (tokens ++ tail))

end

mutual

/-- A flat expression goes on with whatever may follow an operand. -/
theorem Flat.append {tokens tail : List Token} : Flat tokens → Tail tail → Flat (tokens ++ tail)
  | .atom atom first, more => by
    rw [List.append_assoc]
    exact .atom atom (first.append more)
  | .unary kind operand, more => .unary kind (operand.append more)

/-- What may follow an operand goes on with more of it. -/
theorem Tail.append {tokens tail : List Token} : Tail tokens → Tail tail → Tail (tokens ++ tail)
  | .done, more => more
  | .binary kind operand, more => .binary kind (operand.append more)
  | .call kind arguments first, more => by
    rw [List.cons_append, List.append_assoc]
    exact .call kind arguments (first.append more)

end

/-- The first token stays the first one in front of others. -/
theorem headKind_append {tokens : List Token} (some_token : headKind tokens ≠ .endOfInput)
    (rest : List Token) : headKind (tokens ++ rest) = headKind tokens := by
  cases tokens with
  | nil => exact absurd rfl some_token
  | cons token tokens => rfl

/-- The kinds that begin operands are not the end. -/
theorem startsOperand_ne {kind : Kind} (begins : kind.startsOperand = true) :
    kind ≠ .endOfInput ∧ kind ≠ .semicolon ∧ kind ≠ .elseWord := by
  refine ⟨?_, ?_, ?_⟩ <;> rintro rfl <;> exact absurd begins (by decide)

/-- An operand begins with a token that begins operands. -/
theorem Atom.begins {tokens : List Token} (atom : Atom tokens) :
    (headKind tokens).startsOperand = true := by
  obtain ⟨levels, value, reads⟩ := atom.reads []
  rw [List.append_nil] at reads
  exact reads.operand_begins

/-- An operand has a token. -/
theorem Atom.length_pos {tokens : List Token} (atom : Atom tokens) : 0 < tokens.length := by
  have begins := atom.begins
  cases tokens with
  | nil => exact absurd begins (by decide)
  | cons token tokens => simp

/-- A flat expression begins with a token that begins operands. -/
theorem Flat.begins {tokens : List Token} (flat : Flat tokens) :
    (headKind tokens).startsOperand = true := by
  cases flat with
  | atom atom _ =>
    rw [headKind_append (startsOperand_ne atom.begins).1]
    exact atom.begins
  | unary kind _ =>
    rcases kind with kind | kind <;> simp [headKind, kind, Kind.startsOperand]

/-- A flat expression that begins with a parenthesis or a minus extends another expression: the
parenthesis becomes that of a call, and the minus a subtraction. -/
theorem Flat.tail {tokens : List Token} (flat : Flat tokens)
    (extends_left : headKind tokens = .leftParen ∨ headKind tokens = .minus) : Tail tokens := by
  cases flat with
  | @atom tokens tail atom more =>
    rw [headKind_append (startsOperand_ne atom.begins).1] at extends_left
    cases tokens with
    | nil => exact absurd atom.length_pos (by simp)
    | cons opening tokens =>
      have paren : opening.kind = .leftParen := extends_left.resolve_right atom.plain.2
      refine .call paren (fun rest => ?_) more
      obtain ⟨levels, value, reads⟩ := atom.reads rest
      rw [List.cons_append] at reads
      generalize tokens ++ rest = inside at reads ⊢
      cases reads with
      | grouped _ inside closing => exact ⟨_, _, .arguments inside (.lastArgument closing)⟩
      | name kind => exact absurd (paren.symm.trans kind) (by decide)
      | integer kind => exact absurd (paren.symm.trans kind) (by decide)
      | boolean kind =>
        rcases kind with kind | kind <;> exact absurd (paren.symm.trans kind) (by decide)
      | unary kind =>
        rcases kind with kind | kind <;> exact absurd (paren.symm.trans kind) (by decide)
      | function kind => exact absurd (paren.symm.trans kind) (by decide)
  | @unary sign tokens kind operand =>
    have minus : sign.kind = .minus := by
      rcases extends_left with paren | minus
      · rcases kind with kind | kind <;> exact absurd (paren.symm.trans kind) (by decide)
      · exact minus
    exact .binary (by rw [minus]; decide) operand

/-! ## Reading flat expressions -/

/-- The parser reads a part of an expression, and leaves what does not bind tighter than a
level. -/
def Leaves (phrase : Expr → Phrase) (above : Precedence) (bound : Nat) (tokens rest : List Token) :
    Prop :=
  ∃ levels value left, Reads (phrase value) levels (tokens ++ rest) (left ++ rest) ∧ Tail left ∧
    ¬ above < .ofKind (headKind (left ++ rest)) ∧ left.length < bound

/-- No level is looser than the loosest. -/
theorem not_tighter {above : Precedence} {kind : Kind}
    (loose : ¬ Precedence.lowest < .ofKind kind) : ¬ above < .ofKind kind := by
  intro tighter
  have ranks : ∀ level : Precedence, 1 ≤ level.rank := by
    intro level
    cases level <;> decide
  have loosest : (Precedence.ofKind kind).rank ≤ 1 := Nat.le_of_not_lt loose
  have above_it : above.rank < (Precedence.ofKind kind).rank := tighter
  have bound := ranks above
  omega

/-- Of an expression the parser reads the operand and the operators that bind tighter than a
level. The induction is on the number of tokens: what an inner operand leaves is shorter, and is
read by the operators around it. -/
theorem flat_leaves {rest : List Token} (loose : ¬ Precedence.lowest < .ofKind (headKind rest)) :
    ∀ (size : Nat) {tokens : List Token}, tokens.length < size → ∀ above : Precedence,
      (Flat tokens → Leaves (.expression above) above tokens.length tokens rest) ∧
        (Tail tokens → ∀ before, Leaves (.operators above before) above (tokens.length + 1) tokens
          rest)
  | 0, _, short, _ => absurd short (Nat.not_lt_zero _)
  | size + 1, tokens, short, above => by
    constructor
    · intro flat
      cases flat with
      | @atom tokens tail atom more =>
        have positive := atom.length_pos
        rw [List.length_append] at short
        obtain ⟨near, first, operand⟩ := atom.reads (tail ++ rest)
        obtain ⟨far, value, left, operators, tail_left, looser, bound⟩ :=
          (flat_leaves loose size (by omega) above).2 more first
        refine ⟨max near far + 1, value, left, ?_, tail_left, looser, ?_⟩
        · rw [List.append_assoc]
          exact .expression operand operators
        · rw [List.length_append]
          omega
      | @unary sign tokens kind inside =>
        rw [List.length_cons] at short
        obtain ⟨near, first, middle, operand, tail_middle, -, bound_middle⟩ :=
          (flat_leaves loose size (by omega) .unary).1 inside
        obtain ⟨far, value, left, operators, tail_left, looser, bound⟩ :=
          (flat_leaves loose size (by omega) above).2 tail_middle
            (.unary sign.text first sign.position)
        refine ⟨_, value, left, .expression (.unary kind operand) operators, tail_left, looser, ?_⟩
        rw [List.length_cons]
        omega
    · intro tail before
      cases tail with
      | done => exact ⟨_, before, [], .noOperator (not_tighter loose), .done, not_tighter loose,
          Nat.lt_succ_self _⟩
      | @binary sign tokens kind inside =>
        rw [List.length_cons] at short
        by_cases tighter : above < .ofKind sign.kind
        · obtain ⟨near, right, middle, operand, tail_middle, -, bound_middle⟩ :=
            (flat_leaves loose size (by omega) (.ofKind sign.kind)).1 inside
          obtain ⟨far, value, left, operators, tail_left, looser, bound⟩ :=
            (flat_leaves loose size (by omega) above).2 tail_middle
              (.binary sign.text before right sign.position)
          refine ⟨_, value, left, .binary tighter kind.2 operand operators, tail_left, looser, ?_⟩
          rw [List.length_cons]
          omega
        · exact ⟨_, before, sign :: tokens, .noOperator tighter, .binary kind inside, tighter,
            Nat.lt_succ_self _⟩
      | @call opening tokens tail kind arguments more =>
        rw [List.length_cons, List.length_append] at short
        by_cases tighter : above < .call
        · obtain ⟨near, values, list⟩ := arguments (tail ++ rest)
          obtain ⟨far, value, left, operators, tail_left, looser, bound⟩ :=
            (flat_leaves loose size (by omega) above).2 more
              (.call before values opening.position)
          refine ⟨max near far, value, left, ?_, tail_left, looser, ?_⟩
          · rw [List.cons_append, List.append_assoc]
            exact .call tighter kind list operators
          · rw [List.length_cons, List.length_append]
            omega
        · have looser : ¬ above < .ofKind opening.kind := by
            rw [kind]
            exact tighter
          exact ⟨_, before, opening :: (tokens ++ tail), .noOperator looser,
            .call kind arguments more, looser, Nat.lt_succ_self _⟩

/-- A flat expression is read to its end in front of a token that is no operator. -/
theorem Flat.reads {tokens : List Token} (flat : Flat tokens) (rest : List Token)
    (loose : ¬ Precedence.lowest < .ofKind (headKind rest)) :
    ∃ levels value, Reads (.expression .lowest value) levels (tokens ++ rest) rest := by
  obtain ⟨levels, value, left, reads, tail, looser, -⟩ :=
    (flat_leaves loose (tokens.length + 1) (Nat.lt_succ_self _) .lowest).1 flat
  cases tail with
  | done => exact ⟨levels, value, reads⟩
  | binary kind _ => exact absurd kind.1 looser
  | call kind _ _ =>
    rw [List.cons_append, headKind, kind] at looser
    exact absurd (by decide) looser

/-! ## Reading statements -/

/-- Tokens that begin with the keyword of a statement and are read as this statement, whatever
follows but another branch. -/
structure Solid (tokens : List Token) : Prop where
  /-- The first token is a keyword. -/
  keyword : (headKind tokens).startsStatement = true
  /-- All tokens are read as a statement. -/
  reads : ∀ rest, headKind rest ≠ .elseWord →
    ∃ levels value, Reads (.statement value) levels (tokens ++ rest) rest

/-- The statements of the grammar. -/
inductive Sentence : List Token → Prop where
  /-- A statement with a keyword. -/
  | solid {tokens : List Token} (solid : Solid tokens) : Sentence tokens
  /-- An expression without a semicolon. -/
  | bare {tokens : List Token} (flat : Flat tokens) : Sentence tokens
  /-- An expression with a semicolon. -/
  | closed {tokens : List Token} {close : Token} (flat : Flat tokens)
      (closing : close.kind = .semicolon) : Sentence (tokens ++ [close])

/-- A flat expression with a semicolon behind it is read as a statement. -/
theorem Flat.terminated {tokens rest : List Token} {close : Token} (flat : Flat tokens)
    (closing : close.kind = .semicolon) :
    ∃ levels value, Reads (.statement value) levels (tokens ++ close :: rest) rest := by
  have loose : ¬ Precedence.lowest < .ofKind (headKind (close :: rest)) := by
    rw [headKind, closing]
    decide
  have begins := flat.begins
  obtain ⟨levels, value, reads⟩ := flat.reads _ loose
  cases tokens with
  | nil => exact absurd begins (by decide)
  | cons first tokens => exact ⟨levels, _, .terminated reads closing⟩

/-- A flat expression is read as a statement in front of a token that does not extend it. -/
theorem Flat.unterminated {tokens rest : List Token} (flat : Flat tokens)
    (loose : ¬ Precedence.lowest < .ofKind (headKind rest))
    (following : headKind rest ≠ .semicolon) :
    ∃ levels value, Reads (.statement value) levels (tokens ++ rest) rest := by
  have begins := flat.begins
  obtain ⟨levels, value, reads⟩ := flat.reads _ loose
  cases tokens with
  | nil => exact absurd begins (by decide)
  | cons first tokens => exact ⟨levels, _, .unterminated reads following⟩

/-- A statement begins with a keyword or with an operand. -/
theorem Sentence.begins {tokens : List Token} (sentence : Sentence tokens) :
    (headKind tokens).startsStatement = true ∨ (headKind tokens).startsOperand = true := by
  cases sentence with
  | solid solid => exact .inl solid.keyword
  | bare flat => exact .inr flat.begins
  | closed flat _ =>
    rw [headKind_append (startsOperand_ne flat.begins).1]
    exact .inr flat.begins

/-- A statement has a first token. -/
theorem Sentence.headKind_ne {tokens : List Token} (sentence : Sentence tokens) :
    headKind tokens ≠ .endOfInput := by
  have begins := sentence.begins
  intro ended
  rw [ended] at begins
  exact absurd begins (by decide)

/-- Only a parenthesis and a minus begin statements and extend expressions to the right. -/
theorem not_extending {kind : Kind}
    (begins : kind.startsStatement = true ∨ kind.startsOperand = true)
    (plain : ¬ (kind = .leftParen ∨ kind = .minus)) :
    ¬ Precedence.lowest < .ofKind kind ∧ kind ≠ .semicolon := by
  rw [not_or] at plain
  cases kind <;> first
    | exact ⟨by decide, by decide⟩
    | simp [Kind.startsStatement, Kind.startsOperand] at begins; done
    | exact absurd rfl plain.1
    | exact absurd rfl plain.2

/-- What a list of statements ends in front of. -/
def Ends (ending : List Token) : Prop :=
  headKind ending = .rightBrace ∨ headKind ending = .endOfInput

/-- Behind a statement comes no other branch of a condition. -/
theorem sentences_begin {tokens ending : List Token} (sentences : Repeats Sentence tokens)
    (ends : Ends ending) : headKind (tokens ++ ending) ≠ .elseWord := by
  cases sentences with
  | stop => rcases ends with kind | kind <;> rw [List.nil_append, kind] <;> decide
  | @more first rest sentence _ =>
    rw [List.append_assoc, headKind_append sentence.headKind_ne]
    intro other
    have begins := sentence.begins
    rw [other] at begins
    exact absurd begins (by decide)

/-- Lists of statements are read, also behind an expression that is still open: if the next
statement extends the expression, both are read as one, and otherwise the expression ends in
front of it. -/
theorem sentences_read (goal : List Token → Prop) {ending : List Token} (base : goal ending)
    (ends : Ends ending)
    (step : ∀ {tokens rest}, (∃ levels value, Reads (.statement value) levels tokens rest) →
      goal rest → goal tokens)
    {tokens : List Token} (sentences : Repeats Sentence tokens) :
    goal (tokens ++ ending) ∧ ∀ {before}, Flat before → goal (before ++ (tokens ++ ending)) := by
  induction sentences with
  | stop =>
    refine ⟨base, fun flat => step (flat.unterminated ?_ ?_) base⟩
    · rcases ends with kind | kind <;> rw [List.nil_append, kind] <;> decide
    · rcases ends with kind | kind <;> rw [List.nil_append, kind] <;> decide
  | @more first rest sentence sentences ih =>
    have here : goal (first ++ rest ++ ending) := by
      rw [List.append_assoc]
      cases sentence with
      | solid solid => exact step (solid.reads _ (sentences_begin sentences ends)) ih.1
      | bare flat => exact ih.2 flat
      | @closed tokens close flat closing =>
        rw [List.append_assoc]
        exact step (flat.terminated closing) ih.1
    refine ⟨here, fun {before} flat => ?_⟩
    by_cases extending : headKind first = .leftParen ∨ headKind first = .minus
    · -- The statement is an expression, and it goes on with the one before it.
      rw [List.append_assoc]
      cases sentence with
      | solid solid =>
        have keyword := solid.keyword
        rcases extending with kind | kind <;> rw [kind] at keyword <;>
          exact absurd keyword (by decide)
      | bare next =>
        rw [← List.append_assoc]
        exact ih.2 (flat.append (next.tail extending))
      | @closed tokens close next closing =>
        rw [headKind_append (startsOperand_ne next.begins).1] at extending
        rw [List.append_assoc, ← List.append_assoc]
        exact step ((flat.append (next.tail extending)).terminated closing) ih.1
    · obtain ⟨loose, following⟩ := not_extending sentence.begins extending
      refine step (flat.unterminated ?_ ?_) here
      · rwa [List.append_assoc, headKind_append sentence.headKind_ne]
      · rwa [List.append_assoc, headKind_append sentence.headKind_ne]

/-! ## The meaning of the symbols -/

/-- A token that is no integer or one that is not too long. -/
def Readable (token : Token) : Prop :=
  token.kind = .integer → ∃ value, readInteger? token.text = some value

/-- Tokens that are read as a block behind their first token, whatever follows. -/
def Braced (tokens : List Token) : Prop :=
  ∃ brace inside, tokens = brace :: inside ∧ brace.kind = .leftBrace ∧
    ∀ rest, ∃ levels body, Reads (.block body) levels (inside ++ rest) rest

/-- What the parser makes of the symbols of the grammar. -/
def Language : Symbol → List Token → Prop
  | .program, tokens => ∃ levels values, ReadsProgram levels tokens values
  | .statement, tokens => Sentence tokens
  | .binding, tokens => Solid tokens
  | .result, tokens => Solid tokens
  | .condition, tokens => Solid tokens
  | .block, tokens => Braced tokens
  | .expression, tokens => Flat tokens
  | .operand, tokens => Flat tokens
  | .operation, tokens => Tail tokens

/-- What a form means to the parser. -/
abbrev Means (form : Form) (tokens : List Token) : Prop := form.Meaning Readable Language tokens

variable {tokens : List Token}

/-- A token with nothing behind it is not an operator. -/
theorem loose_of_kind {kind : Kind} {token : Token} {rest : List Token} (same : token.kind = kind)
    (loose : ¬ Precedence.lowest < .ofKind kind) :
    ¬ Precedence.lowest < .ofKind (headKind (token :: rest)) := by
  rw [headKind, same]
  exact loose

/-- A program of statements is read. -/
theorem program_kept (means : Means (Symbol.definition .program) tokens) :
    Language .program tokens := by
  have ends : Ends [] := .inr rfl
  have read := (sentences_read (fun tokens => ∃ levels values, ReadsProgram levels tokens values)
    ⟨0, [], .done⟩ ends (fun ⟨_, _, first⟩ ⟨_, _, more⟩ => ⟨_, _, .next first more⟩) means).1
  rwa [List.append_nil] at read

/-- A block of statements is read. -/
theorem block_kept (means : Means (Symbol.definition .block) tokens) : Braced tokens := by
  obtain ⟨_, _, rfl, ⟨brace, rfl, curly, -⟩, sentences, _, rfl, statements, _, _, rfl,
    ⟨close, rfl, closing, -⟩, rfl⟩ := means
  refine ⟨brace, sentences ++ [close], rfl, curly, fun rest => ?_⟩
  have ends : Ends (close :: rest) := .inl closing
  obtain ⟨levels, values, reads⟩ := (sentences_read (fun tokens => ∃ levels values,
    Reads (.statements values) levels tokens rest) ⟨0, [], .lastStatement closing⟩ ends
    (fun ⟨_, _, first⟩ ⟨_, _, more⟩ => ⟨_, _, .nextStatement first more⟩) statements).1
  rw [List.append_assoc]
  exact ⟨_, _, .block reads⟩

/-- A binding is read. -/
theorem binding_kept (means : Means (Symbol.definition .binding) tokens) : Solid tokens := by
  obtain ⟨_, _, rfl, ⟨keyword, rfl, kind, -⟩, _, _, rfl, ⟨target, rfl, named, -⟩, _, _, rfl,
    ⟨sign, rfl, assigned, -⟩, value, _, rfl, flat, _, _, rfl, ⟨close, rfl, closing, -⟩, rfl⟩ :=
      means
  refine ⟨?_, fun rest _ => ?_⟩
  · simp [headKind, kind, Kind.startsStatement]
  · obtain ⟨levels, read, reads⟩ :=
      Flat.reads flat (close :: rest) (loose_of_kind closing (by decide))
    have same : [keyword] ++ ([target] ++ ([sign] ++ (value ++ ([close] ++ [])))) ++ rest =
        keyword :: target :: sign :: (value ++ close :: rest) := by simp
    rw [same]
    exact ⟨_, _, .binding kind named assigned reads closing⟩

/-- The end of a function is read. -/
theorem result_kept (means : Means (Symbol.definition .result) tokens) : Solid tokens := by
  obtain ⟨_, _, rfl, ⟨keyword, rfl, kind, -⟩, value, _, rfl, optional, _, _, rfl,
    ⟨close, rfl, closing, -⟩, rfl⟩ := means
  refine ⟨?_, fun rest _ => ?_⟩
  · simp [headKind, kind, Kind.startsStatement]
  · have same : [keyword] ++ (value ++ ([close] ++ [])) ++ rest =
        keyword :: (value ++ close :: rest) := by simp
    rw [same]
    rcases optional with rfl | flat
    · exact ⟨_, _, .bareResult kind closing⟩
    · obtain ⟨levels, read, reads⟩ :=
        Flat.reads flat (close :: rest) (loose_of_kind closing (by decide))
      exact ⟨_, _, .result kind reads closing⟩

/-- A condition is read. -/
theorem condition_kept (means : Means (Symbol.definition .condition) tokens) : Solid tokens := by
  obtain ⟨_, _, rfl, ⟨keyword, rfl, kind, -⟩, _, _, rfl, ⟨opening, rfl, paren, -⟩, test, _, rfl,
    flat, _, _, rfl, ⟨close, rfl, closing, -⟩, _, _, rfl, ⟨brace, first, rfl, curly, block⟩,
    other, _, rfl, optional, rfl⟩ := means
  refine ⟨?_, fun rest following => ?_⟩
  · simp [headKind, kind, Kind.startsStatement]
  · have same : [keyword] ++ ([opening] ++ (test ++ ([close] ++ (brace :: first ++
        (other ++ []))))) ++ rest =
          keyword :: opening :: (test ++ close :: brace :: (first ++ (other ++ rest))) := by simp
    rw [same]
    obtain ⟨near, read, reads⟩ := Flat.reads flat
      (close :: brace :: (first ++ (other ++ rest))) (loose_of_kind closing (by decide))
    rcases optional with rfl | ⟨_, _, rfl, ⟨word, rfl, otherwise, -⟩, _, _, rfl,
      ⟨curl, second, rfl, curled, block_other⟩, rfl⟩
    · obtain ⟨far, consequence, body⟩ := block rest
      exact ⟨_, _, .condition kind paren reads closing curly body following⟩
    · have same : [word] ++ (curl :: second ++ []) ++ rest = word :: curl :: (second ++ rest) := by
        simp
      rw [same] at reads ⊢
      obtain ⟨far, consequence, body⟩ := block (word :: curl :: (second ++ rest))
      obtain ⟨further, alternative, body_other⟩ := block_other rest
      exact ⟨_, _, .alternative kind paren reads closing curly body otherwise curled body_other⟩

/-- A statement is a sentence. -/
theorem statement_kept (means : Means (Symbol.definition .statement) tokens) : Sentence tokens := by
  rcases means with solid | solid | solid | ⟨value, _, rfl, flat, _, _, rfl, optional, rfl⟩ | none
  · exact .solid solid
  · exact .solid solid
  · exact .solid solid
  · rw [List.append_nil]
    rcases optional with rfl | ⟨close, rfl, closing, -⟩
    · rw [List.append_nil]
      exact .bare flat
    · exact .closed flat closing
  · exact absurd none id

/-- Operations go on with whatever may follow an operand. -/
theorem operations_kept (operations : Repeats Tail tokens) : Tail tokens := by
  induction operations with
  | stop => exact .done
  | more head _ ih => exact head.append ih

/-- An operand with operations behind it is flat. -/
theorem expression_kept (means : Means (Symbol.definition .expression) tokens) : Flat tokens := by
  obtain ⟨first, _, rfl, flat, behind, _, rfl, operations, rfl⟩ := means
  rw [List.append_nil]
  exact Flat.append flat (operations_kept operations)

/-- A token that is an operand by itself is flat. -/
theorem Flat.single {token : Token} (plain : token.kind ≠ .bang ∧ token.kind ≠ .minus)
    {value : Expr} (reads : ∀ rest, Reads (.operand value) 0 (token :: rest) rest) :
    Flat [token] :=
  .atom (show Atom [token] from ⟨plain, fun rest => ⟨0, value, reads rest⟩⟩) .done

/-- Further parameters are read. -/
theorem moreNames_read {close : Token} (closing : close.kind = .rightParen) (rest : List Token)
    (names : Repeats (Means (.all [.token .comma, .token .identifier])) tokens) :
    ∃ found, ReadsMoreNames (tokens ++ close :: rest) rest found := by
  induction names with
  | stop => exact ⟨[], .last closing⟩
  | more head _ ih =>
    obtain ⟨_, _, rfl, ⟨comma, rfl, separator, -⟩, _, _, rfl, ⟨name, rfl, named, -⟩, rfl⟩ := head
    obtain ⟨found, reads⟩ := ih
    exact ⟨_, .next separator named reads⟩

/-- Parameters are read. -/
theorem names_read {close : Token} (closing : close.kind = .rightParen) (rest : List Token)
    (names : Means (.optional (.separated (.token .identifier))) tokens) :
    ∃ found, ReadsNames (tokens ++ close :: rest) rest found := by
  rcases names with rfl | ⟨_, _, rfl, ⟨name, rfl, named, -⟩, behind, _, rfl, more, rfl⟩
  · exact ⟨[], .none closing⟩
  · obtain ⟨found, reads⟩ := moreNames_read closing rest more
    rw [List.append_nil]
    exact ⟨_, .some named reads⟩

/-- Further arguments are read. -/
theorem moreArguments_read {close : Token} (closing : close.kind = .rightParen) (rest : List Token)
    (arguments : Repeats (Means (.all [.token .comma, .rule .expression])) tokens) :
    ¬ Precedence.lowest < .ofKind (headKind (tokens ++ close :: rest)) ∧
      ∃ levels values, Reads (.moreArguments values) levels (tokens ++ close :: rest) rest := by
  induction arguments with
  | stop => exact ⟨loose_of_kind closing (by decide), _, _, .lastArgument closing⟩
  | @more first behind head _ ih =>
    obtain ⟨_, _, rfl, ⟨comma, rfl, separator, -⟩, value, _, rfl, flat, rfl⟩ := head
    obtain ⟨loose, far, values, more⟩ := ih
    refine ⟨loose_of_kind separator (by decide), ?_⟩
    obtain ⟨near, found, reads⟩ := Flat.reads flat (behind ++ close :: rest) loose
    have same : [comma] ++ (value ++ []) ++ behind ++ close :: rest =
        comma :: (value ++ (behind ++ close :: rest)) := by simp
    rw [same]
    exact ⟨_, _, .nextArgument separator reads more⟩

/-- Arguments are read. -/
theorem arguments_read {close : Token} (closing : close.kind = .rightParen)
    (arguments : Means (.optional (.separated (.rule .expression))) tokens) :
    ArgumentList (tokens ++ [close]) := by
  intro rest
  rw [List.append_assoc]
  rcases arguments with rfl | ⟨value, _, rfl, flat, behind, _, rfl, more, rfl⟩
  · exact ⟨_, _, .noArgument closing⟩
  · obtain ⟨loose, far, values, more⟩ := moreArguments_read closing rest more
    obtain ⟨near, found, reads⟩ := Flat.reads flat (behind ++ close :: rest) loose
    have same : value ++ (behind ++ []) ++ ([close] ++ rest) =
        value ++ (behind ++ close :: rest) := by simp
    rw [same]
    exact ⟨_, _, .arguments reads more⟩

/-- An operand is flat. -/
theorem operand_kept (means : Means (Symbol.definition .operand) tokens) : Flat tokens := by
  rcases means with ⟨token, rfl, kind, -⟩ | ⟨token, rfl, kind, readable⟩ | ⟨token, rfl, kind, -⟩ |
    ⟨token, rfl, kind, -⟩ | ⟨_, _, rfl, sign, value, _, rfl, flat, rfl⟩ |
    ⟨_, _, rfl, ⟨opening, rfl, paren, -⟩, value, _, rfl, flat, _, _, rfl,
      ⟨close, rfl, closing, -⟩, rfl⟩ |
    ⟨_, _, rfl, ⟨keyword, rfl, kind, -⟩, _, _, rfl, ⟨opening, rfl, paren, -⟩, names, _, rfl,
      parameters, _, _, rfl, ⟨close, rfl, closing, -⟩, _, _, rfl,
      ⟨brace, inside, rfl, curly, block⟩, rfl⟩ | none
  · exact .single (by rw [kind]; decide) fun rest => .name kind
  · obtain ⟨value, readable⟩ := readable kind
    exact .single (by rw [kind]; decide) fun rest => .integer kind readable
  · exact .single (by rw [kind]; decide) fun rest => .boolean (.inl kind)
  · exact .single (by rw [kind]; decide) fun rest => .boolean (.inr kind)
  · rw [List.append_nil]
    rcases sign with ⟨sign, rfl, kind, -⟩ | ⟨sign, rfl, kind, -⟩ | none
    · exact .unary (.inl kind) flat
    · exact .unary (.inr kind) flat
    · exact absurd none id
  · have atom : Atom ([opening] ++ (value ++ ([close] ++ []))) := by
      refine ⟨?_, fun rest => ?_⟩
      · rw [List.singleton_append, headKind, paren]
        decide
      · obtain ⟨levels, found, reads⟩ :=
          Flat.reads flat (close :: rest) (loose_of_kind closing (by decide))
        have same : [opening] ++ (value ++ ([close] ++ [])) ++ rest =
            opening :: (value ++ close :: rest) := by simp
        rw [same]
        exact ⟨_, _, .grouped paren reads closing⟩
    have whole := Flat.atom atom .done
    rwa [List.append_nil] at whole
  · have atom : Atom ([keyword] ++ ([opening] ++ (names ++ ([close] ++
        (brace :: inside ++ []))))) := by
      refine ⟨?_, fun rest => ?_⟩
      · rw [List.singleton_append, headKind, kind]
        decide
      · obtain ⟨found, named⟩ := names_read closing (brace :: (inside ++ rest)) parameters
        obtain ⟨levels, body, reads⟩ := block rest
        have same : [keyword] ++ ([opening] ++ (names ++ ([close] ++ (brace :: inside ++ [])))) ++
            rest = keyword :: opening :: (names ++ close :: brace :: (inside ++ rest)) := by simp
        rw [same]
        exact ⟨_, _, .function kind paren named curly reads⟩
    have whole := Flat.atom atom .done
    rwa [List.append_nil] at whole
  · exact absurd none id

/-- One of several tokens. -/
theorem any_token {kinds : List Kind} (means : Means (.any (kinds.map .token)) tokens) :
    ∃ token, tokens = [token] ∧ token.kind ∈ kinds := by
  induction kinds with
  | nil => exact absurd means id
  | cons kind kinds ih =>
    rcases means with ⟨token, rfl, same, -⟩ | behind
    · exact ⟨token, rfl, by simp [same]⟩
    · obtain ⟨token, rfl, listed⟩ := ih behind
      exact ⟨token, rfl, List.mem_cons_of_mem _ listed⟩

/-- An operator with its operand and arguments may follow an operand. -/
theorem operation_kept (means : Means (Symbol.definition .operation) tokens) : Tail tokens := by
  rcases means with ⟨_, _, rfl, sign, value, _, rfl, flat, rfl⟩ |
    ⟨_, _, rfl, ⟨opening, rfl, paren, -⟩, arguments, _, rfl, list, _, _, rfl,
      ⟨close, rfl, closing, -⟩, rfl⟩ | none
  · rw [List.append_nil]
    have signs : Means (.any ([.equal, .notEqual, .less, .greater, .plus, .minus, .asterisk,
      .slash].map .token)) _ := sign
    obtain ⟨operator, rfl, listed⟩ := any_token signs
    have binds : ∀ kind ∈ [Kind.equal, .notEqual, .less, .greater, .plus, .minus, .asterisk,
        .slash], Precedence.lowest < .ofKind kind ∧ kind ≠ .leftParen := by decide
    exact .binary (binds _ listed) flat
  · have whole := Tail.call paren (arguments_read closing list) .done
    rwa [List.append_nil] at whole
  · exact absurd none id

/-- What the parser makes of the symbols is a meaning of the grammar. -/
theorem language_kept (name : Symbol) (tokens : List Token)
    (means : Means name.definition tokens) : Language name tokens := by
  cases name with
  | program => exact program_kept means
  | statement => exact statement_kept means
  | binding => exact binding_kept means
  | result => exact result_kept means
  | condition => exact condition_kept means
  | block => exact block_kept means
  | expression => exact expression_kept means
  | operand => exact operand_kept means
  | operation => exact operation_kept means

/-- Every program of the grammar has a reading, as long as its integers can be read. -/
theorem derives_reads (derives : Derives (.rule .program) tokens)
    (readable : ∀ token ∈ tokens, Readable token) :
    ∃ levels values, ReadsProgram levels tokens values :=
  derives.meaning language_kept readable

end ExprLang.Parser
