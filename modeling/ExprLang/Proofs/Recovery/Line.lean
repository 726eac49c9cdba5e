import ExprLang.Proofs.Reading.Spelled
import ExprLang.Proofs.Recovery.Keyword

/-!
# A broken line

Whatever stands on the lines before it, a clean source that begins with a keyword keeps all its
statements, as long as the tokens in front of it are plain (`parse_resumes`). That the last of them
awaits no operand is needed: in the place of an operand even a keyword is taken
(`parse_resumes_awaiting`).
-/

namespace ExprLang

namespace Parser

/-- The tokens of a source behind a line are those of the line and its own, but for their places. -/
theorem sourceTokens_behind_line (line source : String) :
    ∃ front back, sourceTokens (line ++ "\n" ++ source) = front ++ back ∧
      Alike front (sourceTokens (line ++ "\n")) ∧ Alike back (sourceTokens source) := by
  have spells := spells_sourceTokens (line ++ "\n")
  have text : (line ++ "\n" ++ source).toList = line.toList ++ '\n' :: source.toList := by simp
  have whole : Spells (line ++ "\n" ++ source).toList
      ((sourceTokens (line ++ "\n")).map (·.toLexeme) ++
        (sourceTokens source).map (·.toLexeme)) := by
    rw [text]
    refine .append_feed ?_ (spells_sourceTokens source)
    simpa using spells
  obtain ⟨front, back, split, left, right⟩ :=
    List.map_eq_append_iff.mp (sourceTokens_spelled whole)
  exact ⟨front, back, split, left, right⟩

/-- Whether tokens are plain depends on their lexemes only. -/
theorem Plain.of_alike {tokens others : List Token} (plain : Plain tokens)
    (alike : Alike others tokens) : Plain others := by
  have kinds : others.map (·.kind) = tokens.map (·.kind) := by
    have mapped := congrArg (List.map Lexeme.kind) alike
    rwa [List.map_map, List.map_map] at mapped
  refine ⟨fun token found => ?_, fun token found => ?_⟩
  · exact alike.kinds (·.isBracket = false) plain.flat token found
  · have last := congrArg List.getLast? kinds
    rw [List.getLast?_map, List.getLast?_map, Option.mem_def.mp found] at last
    obtain ⟨same, inside, kind⟩ := Option.map_eq_some_iff.mp last.symm
    have ended := plain.ended same inside
    rwa [show same.kind = token.kind from kind] at ended

/-- A broken line takes nothing away from the lines behind it. Behind a line whose tokens are plain,
whatever statements they are broken pieces of, the statements of a clean source that begins with a
keyword are the last ones that are read. -/
theorem parse_resumes {line source : String} {tokens others : List Token} {ending first : Token}
    {parsed : Parsed} (scanned : tokenize (line ++ "\n") false = .ok (tokens ++ [ending]))
    (plain : Plain tokens) (scanned' : tokenize source false = .ok (first :: others))
    (begins : first.kind.startsStatement = true) (ran : parse source = .ok parsed)
    (clean : parsed.diagnostics = []) :
    ∃ joined front back, parse (line ++ "\n" ++ source) = .ok joined ∧
      joined.program.statements = front ++ back ∧
      Stmt.sameAll back parsed.program.statements = true := by
  obtain ⟨nonempty, same⟩ := tokenize_sourceStream scanned
  obtain ⟨nonempty', same'⟩ := tokenize_sourceStream scanned'
  have tokens_eq : tokens = sourceTokens (line ++ "\n") := (List.append_inj' same rfl).1
  have keyword : (headKind (sourceTokens source)).startsStatement = true := by
    cases here : sourceTokens source with
    | nil =>
      rw [TokenStream.toList, ← sourceTokens, here, List.nil_append] at same'
      have last := (sourceStream_scans source).ending_kind
      rw [← (List.cons.inj same').1] at last
      rw [last] at begins
      cases begins
    | cons token behind =>
      rw [TokenStream.toList, ← sourceTokens, here, List.cons_append] at same'
      rw [(List.cons.inj same').1] at begins
      exact begins
  obtain ⟨levels, enough, reads⟩ := parse_clean nonempty' ran clean
  obtain ⟨front, back, split, alike, alike'⟩ := sourceTokens_behind_line line source
  obtain ⟨values, trees, reads⟩ := reads.move alike'
  rw [← alike'.headKind] at keyword
  have joined_nonempty : line ++ "\n" ++ source ≠ "" := by simp
  have joined_ran := parse_eq joined_nonempty
  obtain ⟨found, last, loops, program⟩ := parse_loops joined_nonempty joined_ran
  have start := State.ofText_outermost (line ++ "\n" ++ source)
  have views := State.ofText_views (line ++ "\n" ++ source)
  rw [split] at views
  obtain ⟨more, middle, further, here, framed⟩ :=
    program_resumes keyword loops views ((tokens_eq ▸ plain).of_alike alike)
  rcases program_follows reads here (framed.nesting.trans start.nesting) further with
    ⟨-, statements, -⟩ | ⟨short, -⟩
  · refine ⟨_, more.toList, values, joined_ran, ?_, ?_⟩
    · rw [program]
      exact statements
    · exact (Stmt.sameAll_iff _ _).mpr trees
  · omega

/-- Three broken statements on a line, and one that ends in a missing sign. -/
theorem parse_resumes_broken :
    ∃ tokens others ending first parsed,
      tokenize ("let = 1; @ a + , let x" ++ "\n") false = .ok (tokens ++ [ending]) ∧
      Plain tokens ∧ tokenize "if (a) \x7b b \x7d" false = .ok (first :: others) ∧
      first.kind.startsStatement = true ∧ parse "if (a) \x7b b \x7d" = .ok parsed ∧
      parsed.diagnostics = [] ∧
      ∃ joined front back,
        parse ("let = 1; @ a + , let x" ++ "\n" ++ "if (a) \x7b b \x7d") = .ok joined ∧
        joined.program.statements = front ++ back ∧
        Stmt.sameAll back parsed.program.statements = true := by
  have scanned : tokenize ("let = 1; @ a + , let x" ++ "\n") false =
      .ok (sourceTokens ("let = 1; @ a + , let x" ++ "\n") ++
        [(sourceStream ("let = 1; @ a + , let x" ++ "\n")).ending]) := tokenize_eq (by decide)
  have plain : Plain (sourceTokens ("let = 1; @ a + , let x" ++ "\n")) := by
    constructor
    · decide +kernel
    · decide +kernel
  have scanned' : tokenize "if (a) \x7b b \x7d" false =
      .ok (⟨⟨.ifWord, "if"⟩, ⟨1, 1⟩⟩ :: (sourceStream "if (a) \x7b b \x7d").toList.tail) := rfl
  have ran : parse "if (a) \x7b b \x7d" =
      .ok (State.ofText "if (a) \x7b b \x7d").finish := parse_eq (by decide)
  have clean : (State.ofText "if (a) \x7b b \x7d").finish.diagnostics = [] := by rfl
  exact ⟨_, _, _, _, _, scanned, plain, scanned', rfl, ran, clean,
    parse_resumes scanned plain scanned' rfl ran clean⟩

/-- A line that ends where an operand is awaited. It has neither a parenthesis nor a brace, but the
keyword on the next line is taken for the operand, and the statement behind it is lost. -/
theorem parse_resumes_awaiting :
    ∃ tokens parsed joined,
      tokenize "let x =" false = .ok tokens ∧
      (∀ token ∈ tokens, token.kind.isBracket = false) ∧
      (∃ first others, tokenize "let y = 1;" false = .ok (first :: others) ∧
        first.kind.startsStatement = true) ∧
      parse "let y = 1;" = .ok parsed ∧ parsed.diagnostics = [] ∧
      parse ("let x =" ++ "\n" ++ "let y = 1;") = .ok joined ∧
      ¬ ∃ front back, joined.program.statements = front ++ back ∧
        Stmt.sameAll back parsed.program.statements = true := by
  have scanned : tokenize "let x =" false =
      .ok [⟨⟨.letWord, "let"⟩, ⟨1, 1⟩⟩, ⟨⟨.identifier, "x"⟩, ⟨1, 5⟩⟩, ⟨⟨.assign, "="⟩, ⟨1, 7⟩⟩,
        ⟨⟨.endOfInput, ""⟩, ⟨1, 8⟩⟩] := rfl
  have scanned' : tokenize "let y = 1;" false =
      .ok (⟨⟨.letWord, "let"⟩, ⟨1, 1⟩⟩ :: (sourceStream "let y = 1;").toList.tail) := rfl
  have statements : (State.ofText "let y = 1;").finish.program.statements =
      [.binding ⟨"y", ⟨1, 5⟩⟩ (.integer 1 ⟨1, 9⟩) ⟨1, 1⟩] := by rfl
  have lost :
      (State.ofText ("let x =" ++ "\n" ++ "let y = 1;")).finish.program.statements = [] := by
    rfl
  refine ⟨_, _, _, scanned, by decide, ⟨_, _, scanned', rfl⟩, parse_eq (by decide), by rfl,
    parse_eq (by decide), ?_⟩
  rintro ⟨front, back, split, same⟩
  rw [lost] at split
  obtain ⟨-, rfl⟩ := List.append_eq_nil_iff.mp split.symm
  rw [statements] at same
  simp [Stmt.sameAll] at same

end Parser

end ExprLang
