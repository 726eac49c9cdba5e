import ExprLang.Proofs.Reading.Basic
import ExprLang.Proofs.Scan
import ExprLang.Session.Draft

/-!
# The braces of a reading

A session counts braces among characters, the parser meets them as tokens. Both count the same
(`Spells.braces`), for no other lexeme has a brace in its text. What a reading passes is nested:
no brace is closed that is not open, and in the end all of them are closed (`Reads.nested`).
-/

namespace ExprLang

/-- How many more opening than closing braces a text has. -/
def Text.braces (text : List Char) : Int := (text.count '{' : Int) - text.count '}'

/-- How many more opening than closing braces a token of a kind is. -/
def Kind.braces : Kind → Int
  | .leftBrace => 1
  | .rightBrace => -1
  | _ => 0

/-- Whether a kind is neither a brace nor illegal. -/
def Kind.isFlat : Kind → Bool
  | .leftBrace | .rightBrace | .illegal => false
  | _ => true

/-- A flat kind is no brace. -/
theorem Kind.braces_of_isFlat {kind : Kind} (flat : kind.isFlat = true) : kind.braces = 0 := by
  cases kind with
  | leftBrace => cases flat
  | rightBrace => cases flat
  | _ => rfl

/-- A flat kind is not illegal. -/
theorem Kind.legal_of_isFlat {kind : Kind} (flat : kind.isFlat = true) : kind ≠ .illegal := by
  rintro rfl
  cases flat

/-- How many more opening than closing braces are among tokens of some kinds. -/
def Kind.bracesAll : List Kind → Int
  | [] => 0
  | kind :: kinds => kind.braces + bracesAll kinds

/-- How many more opening than closing braces are among some tokens. -/
def braces (tokens : List Token) : Int := Kind.bracesAll (tokens.map (·.kind))

/-! ## Braces of a text -/

/-- The braces of a text and of one behind it. -/
@[simp]
theorem Text.braces_append (text more : List Char) :
    Text.braces (text ++ more) = Text.braces text + Text.braces more := by
  simp only [Text.braces, List.count_append]
  omega

/-- The braces of a text behind a character that is none. -/
theorem Text.braces_cons {c : Char} (other : c ≠ '{' ∧ c ≠ '}') (text : List Char) :
    Text.braces (c :: text) = Text.braces text := by
  simp [Text.braces, other.1, other.2]

/-- A text without braces. -/
theorem Text.braces_none {text : List Char} (none : ∀ c ∈ text, c ≠ '{' ∧ c ≠ '}') :
    Text.braces text = 0 := by
  have opening : text.count '{' = 0 := List.count_eq_zero.mpr fun found => (none _ found).1 rfl
  have closing : text.count '}' = 0 := List.count_eq_zero.mpr fun found => (none _ found).2 rfl
  rw [Text.braces, opening, closing]
  rfl

/-- A run of a class of characters without braces. -/
theorem Text.braces_run {accepts : Char → Bool} (other : accepts '{' = false ∧ accepts '}' = false)
    (text : List Char) : Text.braces (text.takeWhile accepts) = 0 := by
  apply Text.braces_none
  intro c found
  have accepted := List.all_eq_true.mp (List.all_takeWhile (p := accepts)) c found
  constructor
  · rintro rfl
    exact absurd accepted (by simp [other.1])
  · rintro rfl
    exact absurd accepted (by simp [other.2])

namespace Lexeme

/-- The only braces of a word are those of its kind, which are none. -/
theorem ofWord_braces (word : String) : (ofWord word).kind.braces = 0 := by
  rcases ofWord_kind word with plain | listed
  · rw [plain]
    rfl
  · have kinds : ∀ entry ∈ keywords, entry.2.braces = 0 := by decide
    exact kinds _ listed

/-- A character is a brace exactly where its kind is. -/
theorem ofSingle_braces (c : Char) : Text.braces [c] = (ofSingle c).kind.braces := by
  unfold ofSingle
  cases found : singleSigns.lookup c with
  | none =>
    have opening : c ≠ '{' := by
      rintro rfl
      cases found
    have closing : c ≠ '}' := by
      rintro rfl
      cases found
    exact Text.braces_cons ⟨opening, closing⟩ []
  | some kind =>
    have signs : ∀ entry ∈ singleSigns, Text.braces [entry.1] = entry.2.braces := by decide
    exact signs _ (mem_of_lookup found)

/-- The braces in the text of a lexeme are those of its kind. -/
theorem front_braces (text : List Char) :
    Text.braces (front text).text.toList = (front text).kind.braces := by
  unfold front
  split
  · rfl
  · rfl
  · rfl
  · rename_i c rest _ _
    split
    · rw [ofWord_braces, ofWord, String.toList_ofList]
      exact Text.braces_run (by decide) _
    · split
      · rw [String.toList_ofList]
        exact Text.braces_run (by decide) _
      · cases found : doubleSign? (c :: rest) with
        | none =>
          rw [Option.getD_none, ofSingle, String.toList_ofList]
          exact ofSingle_braces c
        | some lexeme =>
          obtain ⟨first, second, behind, -, shown, listed⟩ := doubleSign?_eq_some found
          have signs : ∀ entry ∈ doubleSigns,
              Text.braces [entry.1.1, entry.1.2] = entry.2.braces := by decide
          rw [Option.getD_some, shown, String.toList_ofList]
          exact signs _ listed

end Lexeme

/-- The braces of a text are those of the lexemes that it spells. -/
theorem Spells.braces {text : List Char} {lexemes : List Lexeme} (spells : Spells text lexemes) :
    Text.braces text = Kind.bracesAll (lexemes.map (·.kind)) := by
  induction spells with
  | done => rfl
  | gap blank _ ih =>
    rw [← ih]
    apply Text.braces_cons
    rcases blank with rfl | rfl | rfl <;> decide
  | lineBreak _ ih =>
    rw [← ih, Text.braces_cons (by decide), Text.braces_cons (by decide)]
  | @lexeme text lexemes _ _ _ _ _ ih =>
    rw [List.map_cons, Kind.bracesAll, ← ih, ← Lexeme.front_braces, ← Text.braces_append,
      Lexeme.front_append_drop]

/-! ## Nested tokens -/

/-- The braces of some tokens and of others behind them. -/
@[simp]
theorem braces_append (tokens more : List Token) :
    braces (tokens ++ more) = braces tokens + braces more := by
  unfold braces
  induction tokens with
  | nil => simp [Kind.bracesAll]
  | cons token tokens ih =>
    simp only [List.cons_append, List.map_cons, Kind.bracesAll, ih]
    omega

/-- The braces of a token and of others behind it. -/
@[simp]
theorem braces_cons (token : Token) (tokens : List Token) :
    braces (token :: tokens) = token.kind.braces + braces tokens := rfl

/-- Tokens with braces that belong together, of which none is illegal. -/
structure Nested (tokens : List Token) : Prop where
  /-- No brace is closed that is not open. -/
  rises : ∀ first, first <+: tokens → 0 ≤ braces first
  /-- All braces are closed in the end. -/
  closed : braces tokens = 0
  /-- No token is illegal. -/
  legal : ∀ token ∈ tokens, token.kind ≠ .illegal

namespace Nested

variable {tokens more inside : List Token}

/-- No token. -/
theorem nil : Nested [] := by
  refine ⟨fun first beginning => ?_, rfl, nofun⟩
  rw [List.prefix_nil.mp beginning]
  exact Int.le_refl 0

/-- Nested tokens behind each other. -/
theorem append (left : Nested tokens) (right : Nested more) : Nested (tokens ++ more) := by
  refine ⟨fun first beginning => ?_, ?_, fun token found => ?_⟩
  · rcases List.prefix_or_prefix_of_prefix beginning (List.prefix_append tokens more) with
      inside | ⟨behind, rfl⟩
    · exact left.rises first inside
    · have rises := right.rises behind ((List.prefix_append_right_inj tokens).mp beginning)
      rw [braces_append, left.closed, Int.zero_add]
      exact rises
  · rw [braces_append, left.closed, right.closed]
    rfl
  · rcases List.mem_append.mp found with here | behind
    · exact left.legal token here
    · exact right.legal token behind

/-- A token that is no brace. -/
theorem plain {token : Token} {kind : Kind} (same : token.kind = kind)
    (flat : kind.isFlat = true) : Nested [token] := by
  have none : braces [token] = 0 := by
    rw [braces_cons, same, Kind.braces_of_isFlat flat]
    rfl
  refine ⟨fun first beginning => ?_, none, ?_⟩
  · rcases List.prefix_cons_iff.mp beginning with rfl | ⟨behind, rfl, inside⟩
    · exact Int.le_refl 0
    · rw [List.prefix_nil.mp inside]
      exact Int.le_of_eq none.symm
  · intro other found
    rw [List.mem_singleton.mp found, same]
    exact Kind.legal_of_isFlat flat

/-- Nested tokens in braces. -/
theorem braced {opening close : Token} (curly : opening.kind = .leftBrace) (nested : Nested inside)
    (closing : close.kind = .rightBrace) : Nested (opening :: (inside ++ [close])) := by
  have opened : opening.kind.braces = 1 := by
    rw [curly]
    rfl
  have closed : close.kind.braces = -1 := by
    rw [closing]
    rfl
  have whole : braces (opening :: (inside ++ [close])) = 0 := by
    rw [braces_cons, braces_append, nested.closed, braces_cons, opened, closed]
    rfl
  refine ⟨fun first beginning => ?_, whole, fun token found => ?_⟩
  · rcases List.prefix_cons_iff.mp beginning with rfl | ⟨behind, rfl, within⟩
    · exact Int.le_refl 0
    · rcases List.prefix_concat_iff.mp within with rfl | within
      · exact Int.le_of_eq whole.symm
      · have rises := nested.rises behind within
        rw [braces_cons, opened]
        omega
  · rcases List.mem_cons.mp found with rfl | behind
    · simp [curly]
    · rcases List.mem_append.mp behind with within | last
      · exact nested.legal token within
      · rw [List.mem_singleton.mp last, closing]
        decide

end Nested

namespace Parser

/-- From some tokens up to others behind them, what is passed is nested. -/
def Level (tokens rest : List Token) : Prop := ∃ used, tokens = used ++ rest ∧ Nested used

/-- From behind an opening brace up to the tokens behind the closing one, what is passed is nested
but for this brace. -/
def Closes (tokens rest : List Token) : Prop :=
  ∃ inside close, tokens = inside ++ close :: rest ∧ close.kind = .rightBrace ∧ Nested inside

namespace Level

variable {tokens middle rest : List Token}

/-- Nothing is passed. -/
theorem refl (tokens : List Token) : Level tokens tokens := ⟨[], rfl, .nil⟩

/-- Two parts, one behind the other. -/
theorem trans (left : Level tokens middle) (right : Level middle rest) : Level tokens rest := by
  obtain ⟨used, rfl, nested⟩ := left
  obtain ⟨behind, rfl, more⟩ := right
  exact ⟨used ++ behind, by simp, nested.append more⟩

/-- A token that is no brace. -/
theorem plain {token : Token} {kind : Kind} (same : token.kind = kind)
    (flat : kind.isFlat = true) : Level (token :: rest) rest :=
  ⟨[token], rfl, .plain same flat⟩

/-- A token that is no brace in front of a part. -/
theorem step {token : Token} {kind : Kind} (same : token.kind = kind) (flat : kind.isFlat = true)
    (behind : Level tokens rest) : Level (token :: tokens) rest :=
  (plain same flat).trans behind

/-- A token that is no brace behind a part. -/
theorem ended {token : Token} {kind : Kind} (before : Level tokens (token :: rest))
    (same : token.kind = kind) (flat : kind.isFlat = true) : Level tokens rest :=
  before.trans (plain same flat)

/-- A block with its braces. -/
theorem braced {opening : Token} (curly : opening.kind = .leftBrace) (closes : Closes tokens rest) :
    Level (opening :: tokens) rest := by
  obtain ⟨inside, close, rfl, closing, nested⟩ := closes
  exact ⟨opening :: (inside ++ [close]), by simp, .braced curly nested closing⟩

/-- What is passed in front of the inside of a block is a part of it. -/
theorem closes (left : Level tokens middle) (right : Closes middle rest) : Closes tokens rest := by
  obtain ⟨used, rfl, nested⟩ := left
  obtain ⟨inside, close, rfl, closing, more⟩ := right
  exact ⟨used ++ inside, close, by simp, closing, nested.append more⟩

end Level

/-- An operator is no brace. -/
theorem flat_of_tighter {above : Precedence} {kind : Kind} (tighter : above < .ofKind kind) :
    kind.isFlat = true := by
  cases kind with
  | leftBrace => cases above <;> exact absurd tighter (by decide)
  | rightBrace => cases above <;> exact absurd tighter (by decide)
  | illegal => cases above <;> exact absurd tighter (by decide)
  | _ => rfl

/-- What a construct passes is nested, but for the brace that ends it. -/
def Phrase.Levels (tokens rest : List Token) : Phrase → Prop
  | .block _ | .statements _ => Closes tokens rest
  | _ => Level tokens rest

/-- Further names have no braces. -/
theorem ReadsMoreNames.level {tokens rest : List Token} {names : List Ident}
    (reads : ReadsMoreNames tokens rest names) : Level tokens rest := by
  induction reads with
  | last closing => exact .plain closing rfl
  | next separator named _ ih => exact .step separator rfl (.step named rfl ih)

/-- Parameters have no braces. -/
theorem ReadsNames.level {tokens rest : List Token} {names : List Ident}
    (reads : ReadsNames tokens rest names) : Level tokens rest := by
  cases reads with
  | none closing => exact .plain closing rfl
  | some named more => exact .step named rfl more.level

/-- What a reading passes is nested, but for the brace that ends a block. -/
theorem Reads.levels {phrase : Phrase} {levels : Nat} {tokens rest : List Token}
    (reads : Reads phrase levels tokens rest) : phrase.Levels tokens rest := by
  induction reads with
  | expression _ _ first more => exact Level.trans first more
  | name kind => exact .plain kind rfl
  | integer kind => exact .plain kind rfl
  | boolean kind =>
    rcases kind with kind | kind
    · exact .plain kind rfl
    · exact .plain kind rfl
  | unary kind _ operand =>
    rcases kind with kind | kind
    · exact .step kind rfl operand
    · exact .step kind rfl operand
  | grouped kind _ closing inside => exact .step kind rfl (Level.ended inside closing rfl)
  | function kind paren parameters curly _ block =>
    have braced := Level.braced curly block
    exact .step kind rfl (.step paren rfl (parameters.level.trans braced))
  | noOperator => exact .refl _
  | binary tighter _ _ _ operand more =>
    exact .step rfl (flat_of_tighter tighter) (Level.trans operand more)
  | call _ kind _ _ arguments more => exact .step kind rfl (Level.trans arguments more)
  | noArgument closing => exact .plain closing rfl
  | arguments _ _ first more => exact Level.trans first more
  | lastArgument closing => exact .plain closing rfl
  | nextArgument separator _ _ first more => exact .step separator rfl (Level.trans first more)
  | block _ inside => exact inside
  | @lastStatement close _ closing => exact ⟨[], close, rfl, closing, .nil⟩
  | nextStatement _ _ first more => exact Level.closes first more
  | binding kind named assigned _ closing inside =>
    exact .step kind rfl (.step named rfl (.step assigned rfl (Level.ended inside closing rfl)))
  | bareResult kind closing => exact .step kind rfl (.plain closing rfl)
  | result kind _ closing inside => exact .step kind rfl (Level.ended inside closing rfl)
  | terminated _ closing inside => exact Level.ended inside closing rfl
  | unterminated _ _ inside => exact inside
  | condition kind paren _ closing curly _ _ tested block =>
    have braced := Level.braced curly block
    exact .step kind rfl (.step paren rfl ((Level.ended tested closing rfl).trans braced))
  | alternative kind paren _ closing curly _ otherwise curled _ tested first second =>
    have braced := Level.braced curly first
    have other := Level.step otherwise rfl (.braced curled second)
    have test := Level.ended tested closing rfl
    exact .step kind rfl (.step paren rfl (test.trans (braced.trans other)))

/-- The tokens of a program are nested. -/
theorem ReadsProgram.nested {levels : Nat} {tokens : List Token} {values : List Stmt}
    (reads : ReadsProgram levels tokens values) : Nested tokens := by
  induction reads with
  | done => exact .nil
  | next first _ ih =>
    obtain ⟨used, rfl, nested⟩ := first.levels
    exact nested.append ih

end Parser

end ExprLang
