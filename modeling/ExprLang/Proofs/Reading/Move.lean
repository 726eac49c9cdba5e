import ExprLang.Proofs.Reading.Basic
import ExprLang.Tree.Same

/-!
# Readings elsewhere

Where the lexemes of two lists of tokens agree, a reading of one list is a reading of the other,
with the same trees but for their positions (`Reads.move`). So a reading can be given for tokens
at any place, and holds for the tokens of a source.
-/

namespace ExprLang.Parser

/-- Two lists of tokens have the same lexemes. -/
def Alike (left right : List Token) : Prop :=
  left.map (·.toLexeme) = right.map (·.toLexeme)

/-- Tokens with the same lexemes are as many. -/
theorem Alike.length_eq {left right : List Token} (alike : Alike left right) :
    left.length = right.length := by
  have lengths := congrArg List.length alike
  rwa [List.length_map, List.length_map] at lengths

/-- Tokens with the same lexemes, behind tokens with the same lexemes. -/
theorem Alike.append {left right front back : List Token} (alike : Alike left right)
    (behind : Alike front back) : Alike (left ++ front) (right ++ back) := by
  unfold Alike at alike behind ⊢
  rw [List.map_append, List.map_append, alike, behind]

/-- Behind tokens with the same lexemes are tokens with the same lexemes. -/
theorem Alike.cons {left right : List Token} {token : Token} (alike : Alike left (token :: right)) :
    ∃ other behind, left = other :: behind ∧ other.kind = token.kind ∧ other.text = token.text ∧
      Alike behind right := by
  obtain ⟨other, behind, rfl, lexeme, rest⟩ := List.map_eq_cons_iff.mp alike
  exact ⟨other, behind, rfl, congrArg Lexeme.kind lexeme, congrArg Lexeme.text lexeme, rest⟩

/-- What is known of the kinds of tokens is known of those of tokens with the same lexemes. -/
theorem Alike.kinds {left right : List Token} (alike : Alike left right) (holds : Kind → Prop)
    (all : ∀ token ∈ right, holds token.kind) : ∀ token ∈ left, holds token.kind := by
  intro token found
  have member : token.toLexeme ∈ right.map (·.toLexeme) := by
    rw [← alike]
    exact List.mem_map_of_mem found
  obtain ⟨same, inside, lexeme⟩ := List.mem_map.mp member
  rw [← lexeme]
  exact all same inside

/-- Tokens with the same lexemes begin with the same kind. -/
theorem Alike.headKind {left right : List Token} (alike : Alike left right) :
    headKind left = headKind right := by
  cases right with
  | nil =>
    rw [List.map_eq_nil_iff.mp alike]
  | cons token right =>
    obtain ⟨other, behind, rfl, kind, -, -⟩ := alike.cons
    exact kind

/-- A construct can be read from a list of tokens with its tree but for positions, up to tokens
with the lexemes of a list. -/
def Phrase.Moved (levels : Nat) (tokens rest : List Token) : Phrase → Prop
  | .expression above value => ∃ found behind, found.unplaced = value.unplaced ∧
    Alike behind rest ∧ Reads (.expression above found) levels tokens behind
  | .operand value => ∃ found behind, found.unplaced = value.unplaced ∧
    Alike behind rest ∧ Reads (.operand found) levels tokens behind
  | .operators above left value => ∀ other, other.unplaced = left.unplaced →
    ∃ found behind, found.unplaced = value.unplaced ∧
      Alike behind rest ∧ Reads (.operators above other found) levels tokens behind
  | .arguments values => ∃ found behind, Expr.unplacedAll found = Expr.unplacedAll values ∧
    Alike behind rest ∧ Reads (.arguments found) levels tokens behind
  | .moreArguments values => ∃ found behind, Expr.unplacedAll found = Expr.unplacedAll values ∧
    Alike behind rest ∧ Reads (.moreArguments found) levels tokens behind
  | .block body => ∃ found behind, Stmt.unplacedAll found = Stmt.unplacedAll body ∧
    Alike behind rest ∧ Reads (.block found) levels tokens behind
  | .statements values => ∃ found behind, Stmt.unplacedAll found = Stmt.unplacedAll values ∧
    Alike behind rest ∧ Reads (.statements found) levels tokens behind
  | .statement value => ∃ found behind, found.unplaced = value.unplaced ∧
    Alike behind rest ∧ Reads (.statement found) levels tokens behind

/-- Further names can be read elsewhere. -/
theorem ReadsMoreNames.move {tokens rest : List Token} {names : List Ident}
    (reads : ReadsMoreNames tokens rest names) {others : List Token} (alike : Alike others tokens) :
    ∃ found behind, found.map Ident.unplaced = names.map Ident.unplaced ∧ Alike behind rest ∧
      ReadsMoreNames others behind found := by
  induction reads generalizing others with
  | last closing =>
    obtain ⟨close, behind, rfl, kind, -, rest⟩ := alike.cons
    exact ⟨[], behind, rfl, rest, .last (kind.trans closing)⟩
  | next separator named _ ih =>
    obtain ⟨comma, _, rfl, comma_kind, -, alike⟩ := alike.cons
    obtain ⟨name, _, rfl, name_kind, text, alike⟩ := alike.cons
    obtain ⟨found, behind, same, rest, more⟩ := ih alike
    refine ⟨_, behind, ?_, rest, .next (comma_kind.trans separator) (name_kind.trans named) more⟩
    simp [Ident.unplaced, same, text]

/-- Parameters can be read elsewhere. -/
theorem ReadsNames.move {tokens rest : List Token} {names : List Ident}
    (reads : ReadsNames tokens rest names) {others : List Token} (alike : Alike others tokens) :
    ∃ found behind, found.map Ident.unplaced = names.map Ident.unplaced ∧ Alike behind rest ∧
      ReadsNames others behind found := by
  cases reads with
  | none closing =>
    obtain ⟨close, behind, rfl, kind, -, rest⟩ := alike.cons
    exact ⟨[], behind, rfl, rest, .none (kind.trans closing)⟩
  | some named more =>
    obtain ⟨name, _, rfl, name_kind, text, alike⟩ := alike.cons
    obtain ⟨found, behind, same, rest, more⟩ := more.move alike
    refine ⟨_, behind, ?_, rest, .some (name_kind.trans named) more⟩
    simp [Ident.unplaced, same, text]

/-- What is read from some tokens is read from tokens with the same lexemes. -/
theorem Reads.move {phrase : Phrase} {levels : Nat} {tokens rest : List Token}
    (reads : Reads phrase levels tokens rest) {others : List Token} (alike : Alike others tokens) :
    phrase.Moved levels others rest := by
  induction reads generalizing others with
  | expression _ _ first more =>
    obtain ⟨left, middle, same, alike, operand⟩ := first alike
    obtain ⟨found, behind, same, rest, operators⟩ := more alike left same
    exact ⟨found, behind, same, rest, .expression operand operators⟩
  | name kind =>
    obtain ⟨token, behind, rfl, same_kind, text, rest⟩ := alike.cons
    refine ⟨_, behind, ?_, rest, .name (same_kind.trans kind)⟩
    simp [Expr.unplaced, Ident.unplaced, text]
  | integer kind readable =>
    obtain ⟨token, behind, rfl, same_kind, text, rest⟩ := alike.cons
    refine ⟨_, behind, ?_, rest,
      .integer (same_kind.trans kind) (by rw [text]; exact readable)⟩
    simp [Expr.unplaced]
  | boolean kind =>
    obtain ⟨token, behind, rfl, same_kind, -, rest⟩ := alike.cons
    refine ⟨_, behind, ?_, rest, .boolean (by rw [same_kind]; exact kind)⟩
    simp [Expr.unplaced, same_kind]
  | unary kind _ operand =>
    obtain ⟨sign, _, rfl, same_kind, text, alike⟩ := alike.cons
    obtain ⟨found, behind, same, rest, reads⟩ := operand alike
    refine ⟨_, behind, ?_, rest, .unary (by rw [same_kind]; exact kind) reads⟩
    simp [Expr.unplaced, same, text]
  | grouped kind _ closing inside =>
    obtain ⟨opening, _, rfl, same_kind, -, alike⟩ := alike.cons
    obtain ⟨found, _, same, alike, reads⟩ := inside alike
    obtain ⟨close, behind, rfl, close_kind, -, rest⟩ := alike.cons
    exact ⟨found, behind, same, rest,
      .grouped (same_kind.trans kind) reads (close_kind.trans closing)⟩
  | function kind paren parameters curly _ block =>
    obtain ⟨keyword, _, rfl, same_kind, -, alike⟩ := alike.cons
    obtain ⟨opening, _, rfl, paren_kind, -, alike⟩ := alike.cons
    obtain ⟨names, _, same_names, alike, named⟩ := parameters.move alike
    obtain ⟨brace, _, rfl, brace_kind, -, alike⟩ := alike.cons
    obtain ⟨body, behind, same, rest, reads⟩ := block alike
    refine ⟨_, behind, ?_, rest, .function (same_kind.trans kind) (paren_kind.trans paren) named
      (brace_kind.trans curly) reads⟩
    simp [Expr.unplaced, same, same_names]
  | noOperator looser =>
    intro other same
    exact ⟨other, others, same, alike, .noOperator (by rw [alike.headKind]; exact looser)⟩
  | binary tighter kind _ _ operand more =>
    intro left same_left
    obtain ⟨sign, _, rfl, same_kind, text, alike⟩ := alike.cons
    obtain ⟨right, _, same_right, alike, reads⟩ := operand alike
    obtain ⟨found, behind, same, rest, operators⟩ :=
      more alike (.binary sign.text left right sign.position)
        (by simp [Expr.unplaced, same_left, same_right, text])
    rw [← same_kind] at reads tighter kind
    exact ⟨found, behind, same, rest, .binary tighter kind reads operators⟩
  | call tighter kind _ _ arguments more =>
    intro left same_left
    obtain ⟨opening, _, rfl, same_kind, -, alike⟩ := alike.cons
    obtain ⟨values, _, same_values, alike, reads⟩ := arguments alike
    obtain ⟨found, behind, same, rest, operators⟩ :=
      more alike (.call left values opening.position)
        (by simp [Expr.unplaced, same_left, same_values])
    exact ⟨found, behind, same, rest, .call tighter (same_kind.trans kind) reads operators⟩
  | noArgument closing =>
    obtain ⟨close, behind, rfl, kind, -, rest⟩ := alike.cons
    exact ⟨[], behind, rfl, rest, .noArgument (kind.trans closing)⟩
  | arguments _ _ first more =>
    obtain ⟨value, _, same_value, alike, reads⟩ := first alike
    obtain ⟨values, behind, same, rest, reads_more⟩ := more alike
    refine ⟨value :: values, behind, ?_, rest, .arguments reads reads_more⟩
    simp [Expr.unplacedAll, same_value, same]
  | lastArgument closing =>
    obtain ⟨close, behind, rfl, kind, -, rest⟩ := alike.cons
    exact ⟨[], behind, rfl, rest, .lastArgument (kind.trans closing)⟩
  | nextArgument separator _ _ first more =>
    obtain ⟨comma, _, rfl, kind, -, alike⟩ := alike.cons
    obtain ⟨value, _, same_value, alike, reads⟩ := first alike
    obtain ⟨values, behind, same, rest, reads_more⟩ := more alike
    refine ⟨value :: values, behind, ?_, rest,
      .nextArgument (kind.trans separator) reads reads_more⟩
    simp [Expr.unplacedAll, same_value, same]
  | block _ inside =>
    obtain ⟨body, behind, same, rest, reads⟩ := inside alike
    exact ⟨body, behind, same, rest, .block reads⟩
  | lastStatement closing =>
    obtain ⟨close, behind, rfl, kind, -, rest⟩ := alike.cons
    exact ⟨[], behind, rfl, rest, .lastStatement (kind.trans closing)⟩
  | nextStatement _ _ first more =>
    obtain ⟨value, _, same_value, alike, reads⟩ := first alike
    obtain ⟨values, behind, same, rest, reads_more⟩ := more alike
    refine ⟨value :: values, behind, ?_, rest, .nextStatement reads reads_more⟩
    simp [Stmt.unplacedAll, same_value, same]
  | binding kind named assigned _ closing inside =>
    obtain ⟨keyword, _, rfl, same_kind, -, alike⟩ := alike.cons
    obtain ⟨target, _, rfl, target_kind, text, alike⟩ := alike.cons
    obtain ⟨sign, _, rfl, sign_kind, -, alike⟩ := alike.cons
    obtain ⟨value, _, same, alike, reads⟩ := inside alike
    obtain ⟨close, behind, rfl, close_kind, -, rest⟩ := alike.cons
    refine ⟨_, behind, ?_, rest, .binding (same_kind.trans kind) (target_kind.trans named)
      (sign_kind.trans assigned) reads (close_kind.trans closing)⟩
    simp [Stmt.unplaced, Ident.unplaced, same, text]
  | bareResult kind closing =>
    obtain ⟨keyword, _, rfl, same_kind, -, alike⟩ := alike.cons
    obtain ⟨close, behind, rfl, close_kind, -, rest⟩ := alike.cons
    refine ⟨_, behind, ?_, rest, .bareResult (same_kind.trans kind) (close_kind.trans closing)⟩
    simp [Stmt.unplaced]
  | result kind _ closing inside =>
    obtain ⟨keyword, _, rfl, same_kind, -, alike⟩ := alike.cons
    obtain ⟨value, _, same, alike, reads⟩ := inside alike
    obtain ⟨close, behind, rfl, close_kind, -, rest⟩ := alike.cons
    refine ⟨_, behind, ?_, rest,
      .result (same_kind.trans kind) reads (close_kind.trans closing)⟩
    simp [Stmt.unplaced, same]
  | terminated _ closing inside =>
    obtain ⟨value, _, same, alike_behind, reads⟩ := inside alike
    obtain ⟨first, _, rfl, -, -, -⟩ := alike.cons
    obtain ⟨close, behind, rfl, close_kind, -, rest⟩ := alike_behind.cons
    refine ⟨_, behind, ?_, rest, .terminated reads (close_kind.trans closing)⟩
    simp [Stmt.unplaced, same]
  | unterminated _ following inside =>
    obtain ⟨value, behind, same, rest, reads⟩ := inside alike
    obtain ⟨first, _, rfl, -, -, -⟩ := alike.cons
    refine ⟨_, behind, ?_, rest, .unterminated reads (by rw [rest.headKind]; exact following)⟩
    simp [Stmt.unplaced, same]
  | condition kind paren _ closing curly _ following tested first =>
    obtain ⟨keyword, _, rfl, same_kind, -, alike⟩ := alike.cons
    obtain ⟨opening, _, rfl, paren_kind, -, alike⟩ := alike.cons
    obtain ⟨test, _, same_test, alike, reads⟩ := tested alike
    obtain ⟨close, _, rfl, close_kind, -, alike⟩ := alike.cons
    obtain ⟨brace, _, rfl, brace_kind, -, alike⟩ := alike.cons
    obtain ⟨body, behind, same, rest, block⟩ := first alike
    refine ⟨_, behind, ?_, rest, .condition (same_kind.trans kind) (paren_kind.trans paren) reads
      (close_kind.trans closing) (brace_kind.trans curly) block
      (by rw [rest.headKind]; exact following)⟩
    simp [Stmt.unplaced, same_test, same]
  | alternative kind paren _ closing curly _ otherwise curled _ tested first second =>
    obtain ⟨keyword, _, rfl, same_kind, -, alike⟩ := alike.cons
    obtain ⟨opening, _, rfl, paren_kind, -, alike⟩ := alike.cons
    obtain ⟨test, _, same_test, alike, reads⟩ := tested alike
    obtain ⟨close, _, rfl, close_kind, -, alike⟩ := alike.cons
    obtain ⟨brace, _, rfl, brace_kind, -, alike⟩ := alike.cons
    obtain ⟨body, _, same, alike, block⟩ := first alike
    obtain ⟨other, _, rfl, other_kind, -, alike⟩ := alike.cons
    obtain ⟨curl, _, rfl, curl_kind, -, alike⟩ := alike.cons
    obtain ⟨last, behind, same_last, rest, block_last⟩ := second alike
    refine ⟨_, behind, ?_, rest, .alternative (same_kind.trans kind) (paren_kind.trans paren) reads
      (close_kind.trans closing) (brace_kind.trans curly) block (other_kind.trans otherwise)
      (curl_kind.trans curled) block_last⟩
    simp [Stmt.unplaced, same_test, same, same_last]

/-- A program can be read elsewhere. -/
theorem ReadsProgram.move {levels : Nat} {tokens : List Token} {values : List Stmt}
    (reads : ReadsProgram levels tokens values) {others : List Token}
    (alike : Alike others tokens) :
    ∃ found, Stmt.unplacedAll found = Stmt.unplacedAll values ∧
      ReadsProgram levels others found := by
  induction reads generalizing others with
  | done =>
    obtain rfl := List.map_eq_nil_iff.mp alike
    exact ⟨[], rfl, .done⟩
  | next first _ ih =>
    obtain ⟨value, _, same_value, alike, moved⟩ := first.move alike
    obtain ⟨values, same, more⟩ := ih alike
    refine ⟨value :: values, ?_, .next moved more⟩
    simp [Stmt.unplacedAll, same_value, same]

end ExprLang.Parser
