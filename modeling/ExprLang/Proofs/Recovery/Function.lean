import ExprLang.Proofs.Account.Source
import ExprLang.Proofs.Reading.Extent
import ExprLang.Proofs.Reading.Spelled
import ExprLang.Proofs.Recovery.Block

/-!
# A broken binding in a function

A function on one line whose block begins with a binding without a name keeps the rest of its block
(`parse_resumes_in_block`), as long as no function is in the value of the binding. That is needed:
skipping behind the fault ends before the brace that closes the function in the value, and takes it
for the end of the block (`parse_resumes_in_block_function`).
-/

namespace ExprLang

/-! ## Tokens of an expression -/

/-- An operator between two operands is skipped. -/
theorem Kind.isSkipped_of_tighter {above : Precedence} {kind : Kind}
    (tighter : above < .ofKind kind) : kind.isSkipped = true := by
  cases kind <;> first | rfl | (cases above <;> exact absurd tighter (by decide))

namespace Parser

/-- Some tokens in front of others are all skipped, unless there is a function among them. -/
def Skipped (tokens rest : List Token) : Prop :=
  ∃ used, tokens = used ++ rest ∧ ((∀ token ∈ used, token.kind ≠ .functionWord) →
    ∀ token ∈ used, token.kind.isSkipped = true)

namespace Skipped

variable {tokens middle rest : List Token}

/-- No tokens. -/
theorem refl (tokens : List Token) : Skipped tokens tokens := ⟨[], rfl, fun _ => nofun⟩

/-- Two parts, one behind the other. -/
theorem trans (left : Skipped tokens middle) (right : Skipped middle rest) :
    Skipped tokens rest := by
  obtain ⟨used, rfl, near⟩ := left
  obtain ⟨more, rfl, far⟩ := right
  refine ⟨used ++ more, (List.append_assoc _ _ _).symm, fun plain token found => ?_⟩
  rcases List.mem_append.mp found with found | found
  · exact near (fun other inside => plain other (List.mem_append_left _ inside)) token found
  · exact far (fun other inside => plain other (List.mem_append_right _ inside)) token found

/-- A token that is skipped. -/
theorem token {token : Token} (skipped : token.kind.isSkipped = true) (rest : List Token) :
    Skipped (token :: rest) rest := by
  refine ⟨[token], rfl, fun _ other found => ?_⟩
  obtain rfl := List.mem_singleton.mp found
  exact skipped

/-- A token of a kind that is skipped. -/
theorem kind {token : Token} {kind : Kind} (same : token.kind = kind)
    (skipped : kind.isSkipped = true) (rest : List Token) : Skipped (token :: rest) rest :=
  .token (by rw [same, skipped]) rest

/-- A function. -/
theorem function {keyword : Token} (word : keyword.kind = .functionWord) (used : List Token)
    (rest : List Token) : Skipped (keyword :: (used ++ rest)) rest :=
  ⟨keyword :: used, rfl, fun plain => absurd word (plain keyword List.mem_cons_self)⟩

end Skipped

/-- Whether the tokens of a construct are skipped. Only those of expressions are looked at. -/
def Phrase.Skips (tokens rest : List Token) : Phrase → Prop
  | .block _ | .statements _ | .statement _ => True
  | _ => Skipped tokens rest

/-- Where there is no function in an expression, skipping stops at none of its tokens. -/
theorem Reads.skips {phrase : Phrase} {levels : Nat} {tokens rest : List Token}
    (reads : Reads phrase levels tokens rest) : phrase.Skips tokens rest := by
  induction reads with
  | expression _ _ first more => exact Skipped.trans first more
  | name kind => exact .kind kind rfl _
  | integer kind => exact .kind kind rfl _
  | boolean kind =>
    rcases kind with kind | kind
    · exact .kind kind rfl _
    · exact .kind kind rfl _
  | unary kind _ operand =>
    refine Skipped.trans ?_ operand
    rcases kind with kind | kind
    · exact .kind kind rfl _
    · exact .kind kind rfl _
  | grouped kind _ closing inside =>
    exact (Skipped.kind kind rfl _).trans (Skipped.trans inside (.kind closing rfl _))
  | @function _ opening brace _ _ _ rest _ _ kind _ parameters _ block =>
    obtain ⟨used, rfl, -⟩ := parameters.extent
    obtain ⟨inside, rfl, -⟩ := block.extent
    have whole := Skipped.function kind (opening :: (used ++ brace :: inside)) rest
    simpa [Phrase.Skips] using whole
  | noOperator => exact .refl _
  | binary tighter _ _ _ operand more =>
    exact (Skipped.token (Kind.isSkipped_of_tighter tighter) _).trans (Skipped.trans operand more)
  | call _ kind _ _ arguments more =>
    exact (Skipped.kind kind rfl _).trans (Skipped.trans arguments more)
  | noArgument closing => exact .kind closing rfl _
  | arguments _ _ first more => exact Skipped.trans first more
  | lastArgument closing => exact .kind closing rfl _
  | nextArgument separator _ _ first more =>
    exact (Skipped.kind separator rfl _).trans (Skipped.trans first more)
  | _ => trivial

/-- Where a source is one expression without a semicolon and without a function, skipping stops at
none of its tokens. -/
theorem ReadsProgram.skips {levels : Nat} {tokens : List Token} {value : Expr} {place : Position}
    (reads : ReadsProgram levels tokens [.expression value place])
    (unclosed : lastKind tokens ≠ some .semicolon)
    (plain : ∀ token ∈ tokens, token.kind ≠ .functionWord) :
    ∀ token ∈ tokens, token.kind.isSkipped = true := by
  obtain ⟨_, inside⟩ := reads.sole unclosed
  obtain ⟨used, split, skipped⟩ := inside.skips
  rw [List.append_nil] at split
  rw [split] at plain ⊢
  exact skipped plain

end Parser

/-! ## A source on one line -/

/-- The tokens of a source without a line feed are on its first line. -/
theorem sourceTokens_line {source : String} (single : '\n' ∉ source.toList) {token : Token}
    (found : token ∈ sourceTokens source) : token.position.line = 1 := by
  have within := sourceTokens_within found
  rw [List.count_eq_zero.mpr single] at within
  omega

/-- A function whose block begins with a binding without a name, with its value. -/
def unnamedInside (value block : String) : String :=
  "let f = fn() \x7b let = " ++ value ++ "; " ++ block ++ " \x7d;"

/-- The function is on one line if its parts are. -/
theorem unnamedInside_line {value block : String} (single : '\n' ∉ value.toList)
    (single' : '\n' ∉ block.toList) : '\n' ∉ (unnamedInside value block).toList := by
  unfold unnamedInside
  simp only [String.toList_append, List.mem_append, single, single', or_false]
  decide

/-- The lexemes of a function whose block begins with a binding without a name. -/
theorem spells_unnamedInside (value block : String) :
    Spells (unnamedInside value block).toList
      ((sourceTokens "let f = fn() \x7b let =").map (·.toLexeme) ++
        ((sourceTokens value).map (·.toLexeme) ++ .ofSingle ';' ::
          ((sourceTokens block).map (·.toLexeme) ++ [.ofSingle '\x7d', .ofSingle ';']))) := by
  have head : "let f = fn() \x7b let = ".toList = "let f = fn() \x7b let =".toList ++ [' '] := by
    decide
  have between : "; ".toList = [';', ' '] := by decide
  have last : " \x7d;".toList = [' ', '\x7d', ';'] := by decide
  have text : (unnamedInside value block).toList = "let f = fn() \x7b let =".toList ++
      ' ' :: (value.toList ++ ';' :: ' ' :: (block.toList ++ [' ', '\x7d', ';'])) := by
    unfold unnamedInside
    simp only [String.toList_append, head, between, last, List.append_assoc, List.cons_append,
      List.nil_append]
  rw [text]
  have closed : Spells [' ', '\x7d', ';'] [.ofSingle '\x7d', .ofSingle ';'] :=
    .space (.sign (by decide) (.sign (by decide) .done))
  have inside : Spells (block.toList ++ [' ', '\x7d', ';'])
      ((sourceTokens block).map (·.toLexeme) ++ [.ofSingle '\x7d', .ofSingle ';']) :=
    (spells_sourceTokens block).append (.cons (by decide) _) (by simp) closed
  have behind : Spells (';' :: ' ' :: (block.toList ++ [' ', '\x7d', ';']))
      (.ofSingle ';' :: ((sourceTokens block).map (·.toLexeme) ++
        [.ofSingle '\x7d', .ofSingle ';'])) := .sign (by decide) (.space inside)
  have bound := (spells_sourceTokens value).append (.cons (by decide) _) (by simp) behind
  exact (spells_sourceTokens "let f = fn() \x7b let =").append (.cons (by decide) _) (by simp)
    (.space bound)

namespace Parser

/-- The tokens of a function whose block begins with a binding without a name. -/
theorem sourceTokens_unnamedInside (value block : String) :
    ∃ front middle semicolon back brace close,
      sourceTokens (unnamedInside value block) =
        front ++ (middle ++ semicolon :: (back ++ [brace, close])) ∧
      Alike front (sourceTokens "let f = fn() \x7b let =") ∧ Alike middle (sourceTokens value) ∧
      semicolon.kind = .semicolon ∧ Alike back (sourceTokens block) ∧
      brace.kind = .rightBrace ∧ close.kind = .semicolon := by
  have lexemes := sourceTokens_spelled (spells_unnamedInside value block)
  obtain ⟨front, behind, split, front_alike, lexemes⟩ := List.map_eq_append_iff.mp lexemes
  obtain ⟨middle, behind, rfl, middle_alike, lexemes⟩ := List.map_eq_append_iff.mp lexemes
  obtain ⟨semicolon, behind, rfl, semicolon_lexeme, lexemes⟩ := List.map_eq_cons_iff.mp lexemes
  obtain ⟨back, behind, rfl, back_alike, lexemes⟩ := List.map_eq_append_iff.mp lexemes
  obtain ⟨brace, behind, rfl, brace_lexeme, lexemes⟩ := List.map_eq_cons_iff.mp lexemes
  obtain ⟨close, behind, rfl, close_lexeme, lexemes⟩ := List.map_eq_cons_iff.mp lexemes
  obtain rfl := List.map_eq_nil_iff.mp lexemes
  exact ⟨front, middle, semicolon, back, brace, close, split, front_alike, middle_alike,
    congrArg Lexeme.kind semicolon_lexeme, back_alike, congrArg Lexeme.kind brace_lexeme,
    congrArg Lexeme.kind close_lexeme⟩

/-- The tokens of the text in front of the value. -/
theorem unnamedInside_header {front : List Token}
    (alike : Alike front (sourceTokens "let f = fn() \x7b let =")) :
    ∃ keyword target sign word opening closing curly first wrong,
      front = [keyword, target, sign, word, opening, closing, curly, first, wrong] ∧
      keyword.kind = .letWord ∧ target.toLexeme = ⟨.identifier, "f"⟩ ∧ sign.kind = .assign ∧
      word.kind = .functionWord ∧ opening.kind = .leftParen ∧ closing.kind = .rightParen ∧
      curly.kind = .leftBrace ∧ first.kind = .letWord ∧ wrong.toLexeme = ⟨.assign, "="⟩ := by
  have header : (sourceTokens "let f = fn() \x7b let =").map (·.toLexeme) =
      [⟨.letWord, "let"⟩, ⟨.identifier, "f"⟩, ⟨.assign, "="⟩, ⟨.functionWord, "fn"⟩,
        ⟨.leftParen, "("⟩, ⟨.rightParen, ")"⟩, ⟨.leftBrace, "\x7b"⟩, ⟨.letWord, "let"⟩,
        ⟨.assign, "="⟩] := by rfl
  unfold Alike at alike
  rw [header] at alike
  simp only [List.map_eq_cons_iff, List.map_eq_nil_iff] at alike
  obtain ⟨keyword, _, rfl, keyword_lexeme, target, _, rfl, target_lexeme, sign, _, rfl,
    sign_lexeme, word, _, rfl, word_lexeme, opening, _, rfl, opening_lexeme, closing, _, rfl,
    closing_lexeme, curly, _, rfl, curly_lexeme, first, _, rfl, first_lexeme, wrong, _, rfl,
    wrong_lexeme, rfl⟩ := alike
  exact ⟨keyword, target, sign, word, opening, closing, curly, first, wrong, rfl,
    congrArg Lexeme.kind keyword_lexeme, target_lexeme, congrArg Lexeme.kind sign_lexeme,
    congrArg Lexeme.kind word_lexeme, congrArg Lexeme.kind opening_lexeme,
    congrArg Lexeme.kind closing_lexeme, congrArg Lexeme.kind curly_lexeme,
    congrArg Lexeme.kind first_lexeme, wrong_lexeme⟩

/-- On a source of one line, an equality sign behind `let` makes a binding without a name, up to a
semicolon behind tokens that are skipped. -/
theorem unnamed_on_line {source : String} {before skipped behind : List Token}
    {first wrong semicolon : Token} (single : '\n' ∉ source.toList)
    (split : sourceTokens source =
      before ++ ((first :: wrong :: (skipped ++ [semicolon])) ++ behind))
    (binds : first.kind = .letWord) (assigns : wrong.kind = .assign)
    (inside : ∀ token ∈ skipped, token.kind.isSkipped = true)
    (closing : semicolon.kind = .semicolon) : Unnamed first wrong skipped semicolon 1 where
  binds := binds
  unnamed := by
    rw [assigns]
    decide
  inside := by
    refine List.forall_mem_cons.mpr ⟨?_, inside⟩
    rw [assigns]
    rfl
  closing := closing
  lines := by
    intro token found
    refine sourceTokens_line single ?_
    rw [split]
    exact List.mem_append_right _ (List.mem_append_left _ found)

/-- A broken binding in a block keeps the rest of the block inside of it. On one line, a binding
without a name is skipped up to the semicolon behind its value, whatever expression without a
function this is, so that there is one diagnostic, and the function has the statements behind. -/
theorem parse_resumes_in_block {value block : String} {parsed other joined : Parsed}
    {tree : Expr} {place : Position} {tokens : List Token} {ending : Token}
    (single : '\n' ∉ value.toList) (single' : '\n' ∉ block.toList)
    (ran : parse value = .ok parsed) (clean : parsed.diagnostics = [])
    (expression : parsed.program.statements = [.expression tree place])
    (scanned : tokenize value false = .ok (tokens ++ [ending]))
    (unclosed : lastKind tokens ≠ some .semicolon)
    (plain : ∀ token ∈ tokens, token.kind ≠ .functionWord)
    (ran' : parse block = .ok other) (clean' : other.diagnostics = [])
    (joined_ran : parse (unnamedInside value block) = .ok joined)
    (shallow : ∀ diagnostic ∈ joined.diagnostics, diagnostic.cause.isDepth = false) :
    ∃ target body start keyword,
      joined.diagnostics.map (·.message) = ["expected identifier, found `=`"] ∧
      joined.program.statements = [.binding target (.function [] body start) keyword] ∧
      target.name = "f" ∧ Stmt.sameAll body other.program.statements = true := by
  obtain ⟨nonempty, same⟩ := tokenize_sourceStream scanned
  obtain rfl : tokens = sourceTokens value := (List.append_inj' same rfl).1
  obtain ⟨levels, -, reads⟩ := parse_clean nonempty ran clean
  obtain ⟨levels', -, reads'⟩ := parse_clean (nonempty_of_parse ran') ran' clean'
  rw [expression] at reads
  obtain ⟨front, middle, semicolon, back, brace, close, split, front_alike, middle_alike,
    semicolon_kind, back_alike, brace_kind, close_kind⟩ := sourceTokens_unnamedInside value block
  obtain ⟨values, trees, reads'⟩ := reads'.move back_alike
  have skipped := middle_alike.kinds (·.isSkipped = true) (reads.skips unclosed plain)
  obtain ⟨keyword, target, sign, word, opening, closing, curly, first, wrong, rfl, binds,
    target_lexeme, assigned, literal, opened, closed, curly_kind, first_kind, wrong_lexeme⟩ :=
    unnamedInside_header front_alike
  have parts : sourceTokens (unnamedInside value block) =
      [keyword, target, sign, word, opening, closing, curly] ++
        ((first :: wrong :: (middle ++ [semicolon])) ++ (back ++ [brace, close])) := by
    rw [split]
    simp
  have broken := unnamed_on_line (unnamedInside_line single single') parts first_kind
    (congrArg Lexeme.kind wrong_lexeme) skipped semicolon_kind
  have names : ReadsNames (closing :: curly :: first :: wrong ::
      (middle ++ semicolon :: (back ++ [brace, close])))
      (curly :: first :: wrong :: (middle ++ semicolon :: (back ++ [brace, close]))) [] :=
    .none closed
  have start := State.ofText_outermost (unnamedInside value block)
  have views := State.ofText_views (unnamedInside value block)
  have fresh : (State.ofText (unnamedInside value block)).diagnostics = #[] :=
    State.ofStream_diagnostics _
  rw [split] at views
  obtain ⟨found, last, loops, rfl⟩ := parse_loops (nonempty_of_parse joined_ran) joined_ran
  rcases program_recovers binds (congrArg Lexeme.kind target_lexeme) assigned literal opened names
    curly_kind broken (reads'.braced brace_kind [close]) close_kind views start.nesting loops with
    ⟨statements, added⟩ | ⟨diagnostic, recorded, deep⟩
  · refine ⟨_, _, _, _, ?_, statements, congrArg Lexeme.text target_lexeme,
      (Stmt.sameAll_iff _ _).mpr trees⟩
    dsimp only
    rw [added, fresh, nameExpected, wrong_lexeme]
    rfl
  · rw [shallow diagnostic recorded] at deep
    cases deep

/-- A call as the value, and a block with two statements. -/
theorem parse_resumes_in_block_call :
    ∃ parsed other joined tree place tokens ending,
      '\n' ∉ "g(-a)".toList ∧ '\n' ∉ "return 2; if (c) \x7b b \x7d".toList ∧
      parse "g(-a)" = .ok parsed ∧ parsed.diagnostics = [] ∧
      parsed.program.statements = [.expression tree place] ∧
      tokenize "g(-a)" false = .ok (tokens ++ [ending]) ∧
      lastKind tokens ≠ some .semicolon ∧ (∀ token ∈ tokens, token.kind ≠ .functionWord) ∧
      parse "return 2; if (c) \x7b b \x7d" = .ok other ∧ other.diagnostics = [] ∧
      parse (unnamedInside "g(-a)" "return 2; if (c) \x7b b \x7d") = .ok joined ∧
      (∀ diagnostic ∈ joined.diagnostics, diagnostic.cause.isDepth = false) ∧
      ∃ target body start keyword,
        joined.diagnostics.map (·.message) = ["expected identifier, found `=`"] ∧
        joined.program.statements = [.binding target (.function [] body start) keyword] ∧
        target.name = "f" ∧ Stmt.sameAll body other.program.statements = true := by
  have single : '\n' ∉ "g(-a)".toList := by decide
  have single' : '\n' ∉ "return 2; if (c) \x7b b \x7d".toList := by decide
  have ran : parse "g(-a)" = .ok (State.ofText "g(-a)").finish := parse_eq (by decide)
  have clean : (State.ofText "g(-a)").finish.diagnostics = [] := by decide +kernel
  have scanned := tokenize_eq (show "g(-a)" ≠ "" by decide)
  have unclosed : lastKind (sourceTokens "g(-a)") ≠ some .semicolon := by decide +kernel
  have plain : ∀ token ∈ sourceTokens "g(-a)", token.kind ≠ .functionWord := by decide +kernel
  have ran' : parse "return 2; if (c) \x7b b \x7d" =
      .ok (State.ofText "return 2; if (c) \x7b b \x7d").finish := parse_eq (by decide)
  have clean' : (State.ofText "return 2; if (c) \x7b b \x7d").finish.diagnostics = [] := by
    decide +kernel
  have joined_ran := parse_eq
    (show unnamedInside "g(-a)" "return 2; if (c) \x7b b \x7d" ≠ "" by decide)
  have shallow : ∀ diagnostic ∈ (State.ofText (unnamedInside "g(-a)"
      "return 2; if (c) \x7b b \x7d")).finish.diagnostics, diagnostic.cause.isDepth = false := by
    decide +kernel
  exact ⟨_, _, _, _, _, _, _, single, single', ran, clean, rfl, scanned, unclosed, plain, ran',
    clean', joined_ran, shallow, parse_resumes_in_block single single' ran clean rfl scanned
      unclosed plain ran' clean' joined_ran shallow⟩

/-- A function as the value of the broken binding. Skipping ends before the brace that closes it,
and takes it for the end of the block: what stands behind is read outside of the function, up to a
brace that is wrong there. -/
theorem parse_resumes_in_block_function :
    ∃ parsed other joined tree place tokens ending,
      '\n' ∉ "fn() \x7b \x7d".toList ∧ '\n' ∉ "return 2;".toList ∧
      parse "fn() \x7b \x7d" = .ok parsed ∧ parsed.diagnostics = [] ∧
      parsed.program.statements = [.expression tree place] ∧
      tokenize "fn() \x7b \x7d" false = .ok (tokens ++ [ending]) ∧
      lastKind tokens ≠ some .semicolon ∧
      parse "return 2;" = .ok other ∧ other.diagnostics = [] ∧
      parse (unnamedInside "fn() \x7b \x7d" "return 2;") = .ok joined ∧
      (∀ diagnostic ∈ joined.diagnostics, diagnostic.cause.isDepth = false) ∧
      joined.diagnostics.map (·.message) =
        ["expected identifier, found `=`", "no prefix parse function for `\x7d`"] ∧
      ∀ target body start keyword,
        joined.program.statements ≠ [.binding target (.function [] body start) keyword] := by
  have joined_ran := parse_eq (show unnamedInside "fn() \x7b \x7d" "return 2;" ≠ "" by decide)
  have length : (State.ofText (unnamedInside "fn() \x7b \x7d"
      "return 2;")).finish.program.statements.length = 3 := by decide +kernel
  refine ⟨_, _, _, _, _, _, _, by decide, by decide, parse_eq (by decide), by decide +kernel, rfl,
    tokenize_eq (by decide), by decide +kernel, parse_eq (by decide), by decide +kernel,
    joined_ran, by decide +kernel, by decide +kernel, ?_⟩
  intro target body start keyword same
  rw [same] at length
  cases length

end Parser

end ExprLang
