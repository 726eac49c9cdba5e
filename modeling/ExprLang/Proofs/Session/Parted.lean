import ExprLang.Proofs.Account.Source
import ExprLang.Proofs.Reading.Cut
import ExprLang.Proofs.Reading.Nested
import ExprLang.Proofs.Reading.Spelled
import ExprLang.Proofs.Relocation.Scan

/-!
# Sources that fall apart at their lines

A line feed is outside of all braces where as many braces are closed in front of it as are opened.
Where such line feeds stand between statements only, a clean source falls apart at each of them:
both parts are clean, and their statements are those of the source (`Parted.split`). What has to be
known of the line feeds is told with the positions of the tree (`BetweenStatements`).
-/

namespace ExprLang

open Movable (moved)

/-- A line feed behind a part of a source stands between statements: the first token on the lines
behind it, if there is one, is where a statement of the program begins. -/
def BetweenStatements (source : String) (program : Program) (before : String) : Prop :=
  ∀ token ∈ (sourceTokens source).find? fun token =>
      ((1 + before.toList.count '\n' : Nat) : Int) < token.position.line,
    ∃ statement ∈ program.statements, statement.position = token.position

instance (source : String) (program : Program) (before : String) :
    Decidable (BetweenStatements source program before) :=
  inferInstanceAs (Decidable (∀ token ∈ (sourceTokens source).find? fun token =>
      ((1 + before.toList.count '\n' : Nat) : Int) < token.position.line,
    ∃ statement ∈ program.statements, statement.position = token.position))

/-! ## Texts and their tokens -/

/-- A text spells one list of lexemes. -/
theorem Spells.unique {text : List Char} {lexemes others : List Lexeme}
    (left : Spells text lexemes) (right : Spells text others) : lexemes = others := by
  rw [← String.toList_ofList (l := text)] at left right
  exact (sourceTokens_spelled left).symm.trans (sourceTokens_spelled right)

/-- Two texts with a line feed between them spell the lexemes of both. -/
theorem Spells.feed {text rest : List Char} {lexemes more : List Lexeme}
    (plain : '\r' ∉ text) (left : Spells text lexemes) (right : Spells rest more) :
    Spells (text ++ '\n' :: rest) (lexemes ++ more) := by
  have joint : '\r' ∈ text.getLast? → ∀ behind, '\n' :: rest ≠ '\n' :: behind :=
    fun last => absurd (List.mem_of_getLast? last) plain
  exact left.append (.cons (by decide) rest) joint (.gap (by decide) right)

/-- The braces of a text are those of the tokens that it spells. -/
theorem Spells.braceBalance {text : String} {tokens : List Token}
    (spells : Spells text.toList (tokens.map (·.toLexeme))) :
    ExprLang.braceBalance text = ExprLang.braces tokens := by
  have same := spells.braces
  rw [List.map_map] at same
  exact same

/-- The braces of two texts behind each other. -/
theorem braceBalance_append (left right : String) :
    braceBalance (left ++ right) = braceBalance left + braceBalance right := by
  have whole := Text.braces_append left.toList right.toList
  rw [← String.toList_append] at whole
  exact whole

/-- A source that spells a program and falls apart at its lines. The tokens have places of their
own, which need not be those in the source. -/
structure Parted (source : String) (tokens : List Token) (values : List Stmt) : Prop where
  /-- The source spells the tokens. -/
  spells : Spells source.toList (tokens.map (·.toLexeme))
  /-- The tokens are a program, and there is room for it. -/
  reads : ∃ levels ≤ Parser.maxNesting, Parser.ReadsProgram levels tokens values
  /-- No two tokens are at one place. -/
  apart : (tokens.map (·.position)).Nodup
  /-- There is no carriage return. -/
  plain : '\r' ∉ source.toList
  /-- Behind a line feed outside of all braces a statement begins, if there is a token. -/
  parted : ∀ before behind used rest, source = before ++ "\n" ++ behind → braceBalance before = 0 →
    tokens = used ++ rest → Spells before.toList (used.map (·.toLexeme)) →
    Spells behind.toList (rest.map (·.toLexeme)) →
    ∀ token ∈ rest.head?, ∃ value ∈ values, value.position = token.position

namespace Parted

variable {source : String} {tokens : List Token} {values : List Stmt}

/-- The tokens in front of a line feed and behind it. -/
theorem halves (parted : Parted source tokens values) {front back : String}
    (split : source = front ++ "\n" ++ back) :
    '\r' ∉ front.toList ∧ '\r' ∉ back.toList ∧ ∃ used rest, tokens = used ++ rest ∧
      Spells front.toList (used.map (·.toLexeme)) ∧
      Spells back.toList (rest.map (·.toLexeme)) := by
  have text : source.toList = front.toList ++ '\n' :: back.toList := by
    rw [split]
    simp
  have plain := parted.plain
  have spells := parted.spells
  rw [text] at plain spells
  simp only [List.mem_append, List.mem_cons, not_or] at plain
  have joined := Spells.feed plain.1 (spells_sourceTokens front) (spells_sourceTokens back)
  obtain ⟨used, rest, rfl, left, right⟩ := List.map_eq_append_iff.mp (spells.unique joined)
  refine ⟨plain.1, plain.2.2, used, rest, rfl, ?_, ?_⟩
  · rw [left]
    exact spells_sourceTokens front
  · rw [right]
    exact spells_sourceTokens back

/-- The whole source leaves no brace open. -/
theorem closed (parted : Parted source tokens values) : braceBalance source = 0 := by
  obtain ⟨levels, -, reads⟩ := parted.reads
  rw [parted.spells.braceBalance]
  exact reads.nested.closed

/-- In front of a line feed no brace is closed that is not open. -/
theorem rises (parted : Parted source tokens values) {front back : String}
    (split : source = front ++ "\n" ++ back) : 0 ≤ braceBalance front := by
  obtain ⟨-, -, used, rest, rfl, left, -⟩ := parted.halves split
  obtain ⟨levels, -, reads⟩ := parted.reads
  rw [left.braceBalance]
  exact reads.nested.rises used (List.prefix_append used rest)

/-- At a line feed outside of all braces the source falls apart. The part in front is a program, and
the part behind falls apart further. -/
theorem split (parted : Parted source tokens values) {front back : String}
    (text : source = front ++ "\n" ++ back) (balanced : braceBalance front = 0) :
    ∃ used rest first last, values = first ++ last ∧
      Spells front.toList (used.map (·.toLexeme)) ∧
      (∃ levels ≤ Parser.maxNesting, Parser.ReadsProgram levels used first) ∧
      Parted back rest last := by
  obtain ⟨plain, plain_back, used, rest, rfl, left, right⟩ := parted.halves text
  obtain ⟨levels, enough, reads⟩ := parted.reads
  have begins := parted.parted front back used rest text balanced rfl left right
  obtain ⟨near, far, first, last, rfl, fits, fits_behind, program, more⟩ :=
    reads.cut parted.apart begins
  -- a statement that begins at a token behind the line feed is not in front of it
  have later : ∀ token ∈ rest, ∀ value ∈ first ++ last, value.position = token.position →
      value ∈ last := by
    intro token found value member same
    rcases List.mem_append.mp member with ahead | behind
    · exfalso
      have here := program.position_mem ahead
      rw [same] at here
      exact Parser.not_mem_behind parted.apart here (List.mem_map_of_mem found)
    · exact behind
  refine ⟨used, rest, first, last, rfl, left, ⟨near, Nat.le_trans fits enough, program⟩, right,
    ⟨far, Nat.le_trans fits_behind enough, more⟩, Parser.apart_behind parted.apart, plain_back, ?_⟩
  intro before behind passed others more_text level passes spells spells_behind token found
  have whole : source = front ++ "\n" ++ before ++ "\n" ++ behind := by
    rw [text, more_text]
    simp only [String.append_assoc]
  have flat : braceBalance (front ++ "\n" ++ before) = 0 := by
    rw [braceBalance_append, braceBalance_append, balanced, level]
    decide
  have ahead : Spells (front ++ "\n" ++ before).toList ((used ++ passed).map (·.toLexeme)) := by
    have joined := Spells.feed plain left spells
    rw [← List.map_append] at joined
    simpa using joined
  subst passes
  obtain ⟨value, member, same⟩ := parted.parted _ behind (used ++ passed) others whole flat
    (List.append_assoc _ _ _).symm ahead spells_behind token found
  have inside : token ∈ passed ++ others :=
    List.mem_append_right passed (List.mem_of_head? found)
  exact ⟨value, later token inside value member same, same⟩

/-- A line feed at the end of a source does not matter. -/
theorem feed (parted : Parted source tokens values) : Parted (source ++ "\n") tokens values := by
  have text : (source ++ "\n").toList = source.toList ++ '\n' :: [] := by simp
  have spells : Spells (source ++ "\n").toList (tokens.map (·.toLexeme)) := by
    have joined := Spells.feed parted.plain parted.spells .done
    rwa [List.append_nil, ← text] at joined
  refine ⟨spells, parted.reads, parted.apart, ?_, ?_⟩
  · rw [text]
    simpa using parted.plain
  · intro before behind used rest split balanced passes left right token found
    have texts := congrArg String.toList split
    simp only [String.toList_append, List.append_assoc] at texts
    rcases List.eq_nil_or_concat behind.toList with ended | ⟨inside, last, ended⟩
    · rw [ended] at right
      obtain rfl := List.map_eq_nil_iff.mp right.of_nil
      cases found
    · -- the line feed that is added is the last character behind
      have same : source.toList ++ ['\n'] = (before.toList ++ '\n' :: inside) ++ [last] := by
        rw [ended] at texts
        simpa using texts
      obtain ⟨whole, feed⟩ := List.append_inj' same rfl
      obtain rfl : '\n' = last := (List.cons.inj feed).1
      have plain := parted.plain
      rw [whole, List.mem_append, List.mem_cons, not_or, not_or] at plain
      have inside_spells := spells_sourceTokens (String.ofList inside)
      rw [String.toList_ofList] at inside_spells
      have joined := Spells.feed plain.2.2 inside_spells .done
      rw [List.append_nil] at joined
      rw [ended, List.concat_eq_append] at right
      rw [← right.unique joined] at inside_spells
      have source_split : source = before ++ "\n" ++ String.ofList inside := by
        apply String.toList_injective
        rw [whole]
        simp
      refine parted.parted before _ used rest source_split balanced passes left ?_ token found
      rw [String.toList_ofList]
      exact inside_spells

end Parted

end ExprLang
