import ExprLang.Proofs.Grammar.Accepts
import ExprLang.Proofs.Reading.Overflow
import ExprLang.Proofs.Recovery.Function
import ExprLang.Proofs.Relocation.Joined

/-!
# An expression without room

An expression on one line that is nested too deeply costs its own statement, and one diagnostic. The
parser stops somewhere amid the expression, skips the rest of it whatever it is, and goes on behind
the semicolon (`statement_too_deep`). So a clean source on the lines behind it keeps its statements
(`parse_deep_expression`).
-/

namespace ExprLang.Parser

open Grammar (Derives)
open Movable (moved)

/-! ## The statement of the expression -/

/-- What is left of a construct is one of its tokens with others of them behind it. -/
theorem Amid.split {tokens rest here : List Token} (amid : Amid (tokens ++ rest) rest here) :
    ∃ token others, here = token :: (others ++ rest) ∧
      ∀ other ∈ token :: others, other ∈ tokens := by
  obtain ⟨front, same⟩ := amid.start
  obtain ⟨left, rfl⟩ := amid.behind
  have some_left : left ≠ [] := by
    rintro rfl
    exact absurd amid.more (Nat.lt_irrefl _)
  obtain ⟨token, others, rfl⟩ := List.exists_cons_of_ne_nil some_left
  rw [← List.append_assoc] at same
  obtain rfl := List.append_cancel_right same
  exact ⟨token, others, rfl, fun other found => List.mem_append_right front found⟩

section

variable {value : Expr} {levels room : Nat} {tokens rest : List Token} {close : Token}
  {state : State}
  (reads : Reads (.expression .lowest value) levels (tokens ++ close :: rest) (close :: rest))
  (short : room < levels) (plain : ∀ token ∈ tokens, token.kind ≠ .functionWord)
  (views : state.At (tokens ++ close :: rest)) (outermost : state.nesting = 0)

include reads short plain views outermost

/-- An expression on its own without room for it breaks amid its tokens. -/
theorem statement_breaks :
    (statementOfKind (Inner.ofRoom room) state.current.kind).Breaks
      (state.note (.statement state.current)) (tokens ++ close :: rest) (close :: rest) := by
  have begins : state.current.kind.startsOperand = true := by
    rw [views.current_kind]
    exact reads.expression_begins
  have unnested : Unnested (tokens ++ close :: rest) (close :: rest) := by
    intro used same
    obtain rfl := List.append_cancel_right same
    exact plain
  have noted : (state.note (.statement state.current)).At (tokens ++ close :: rest) :=
    views.congr (fun index => state.token_note _ index) rfl
  have within : (state.note (.statement state.current)).Inside state.stream.ending :=
    ⟨Int.le_of_eq outermost.symm, rfl⟩
  have breaks := reads.overflows unnested short _ within noted
  rw [statementOfKind_operand _ begins]
  refine .look ?_
  have leads : (operand? (Inner.ofRoom room) state.current.kind).isSome = true := by
    rwa [operand?_isSome_eq]
  change (leading (Inner.ofRoom room) state.current.kind >>= _).Breaks _ _ _
  rw [leading, if_pos leads]
  exact breaks.first

variable {line : Int} (closing : close.kind = .semicolon)
  (lines : ∀ token ∈ tokens ++ [close], token.position.line = line)

include closing lines

/-- An expression on its own without room for it is one diagnostic, and is skipped up to its
semicolon. -/
theorem statement_too_deep :
    ∃ fault last, statement (Inner.ofRoom room) state = .ok none last ∧
      fault.cause = .deepExpression ∧ last.At (close :: rest) ∧ State.Tells [fault] state last := by
  obtain @⟨fault, middle, here, ran, deep, quiet, amid, stands⟩ :=
    statement_breaks reads short plain views outermost
  have skipped : ∀ token ∈ tokens, token.kind.isSkipped = true := by
    obtain ⟨used, same, skipped⟩ := reads.skips
    obtain rfl := List.append_cancel_right same
    exact skipped plain
  obtain ⟨token, others, rfl, left⟩ := amid.split
  have recorded : (middle.record fault).At (token :: (others ++ close :: rest)) :=
    stands.congr (fun index => State.token_record _ fault index) rfl
  have solid := Kind.isSkipped_iff.mp (skipped token (left token List.mem_cons_self))
  have inside : ∀ other ∈ others, other.kind.isSkipped = true := fun other found =>
    skipped other (left other (List.mem_cons_of_mem _ found))
  have on_line : ∀ other ∈ token :: (others ++ [close]), other.position.line = line := by
    intro other found
    rw [← List.cons_append] at found
    apply lines
    rcases List.mem_append.mp found with found | found
    · exact List.mem_append_left _ (left other found)
    · exact List.mem_append_right _ found
  obtain ⟨last, skips, stops, still⟩ :=
    synchronize_skips closing recorded solid.1 inside on_line
  have nesting : middle.nesting = 0 := quiet.nesting.trans outermost
  have outside : ¬ (fault.cause.isDepth = true ∧ 0 < middle.nesting) := by
    rw [nesting]
    exact fun nested => absurd nested.2 (by decide)
  have tells := (quiet.trans (middle.record_tells fault)).trans still
  refine ⟨fault, last, ?_, deep, stops, tells.nesting, tells.ending, tells.diagnostics⟩
  rw [Rule.statement_of_error ran, Rule.recover_run, if_neg outside]
  exact (Rule.bind_ok skips).trans rfl

/-- An expression on its own without room for it costs its own statement, in front of statements
that are read. -/
theorem program_too_deep {far : Nat} {values : List Stmt} {before found : Array Stmt} {last : State}
    (behind : ReadsProgram far rest values) (enough : far ≤ room)
    (loops : Rule.Loops (currentIsNot .endOfInput) (nextStatement (Inner.ofRoom room)) before state
      (.ok found last)) :
    ∃ fault : Diagnostic, fault.cause = .deepExpression ∧
      found.toList = before.toList ++ values ∧
      last.diagnostics.toList = state.diagnostics.toList ++ [fault] := by
  obtain ⟨fault, middle, ran, deep, stops, tells⟩ :=
    statement_too_deep reads short plain views outermost closing lines
  have passed : nextStatement (Inner.ofRoom room) before state = .ok before middle.advance := by
    unfold nextStatement
    rw [Rule.bind_ok ran, Rule.advance_bind]
    exact Rule.pure_eq_ok.mpr ⟨Array.append_empty, rfl⟩
  have whole := tells.trans middle.advance_quiet
  refine ⟨fault, deep, ?_⟩
  cases loops with
  | done stopped =>
    have ended : state.current.kind = .endOfInput := by simpa [currentIsNot] using stopped
    have begins := reads.expression_begins
    rw [← views.current_kind, ended] at begins
    exact absurd begins (by decide)
  | again _ ran_next further =>
    obtain ⟨rfl, rfl⟩ := EStateM.Result.ok.inj (ran_next.symm.trans passed)
    rcases program_follows behind stops.behind.step (whole.nesting.trans outermost) further with
      ⟨-, read, recorded⟩ | ⟨overflow, -⟩
    · refine ⟨read, ?_⟩
      rw [recorded, whole.diagnostics]
      rfl
    · exact absurd overflow (Nat.not_lt.mpr enough)

end

/-! ## The source behind it -/

/-- The tokens of an expression with a semicolon and a source on the next line. -/
theorem sourceTokens_line_closed (expression source : String)
    (single : '\n' ∉ expression.toList) :
    ∃ front close back, sourceTokens (expression ++ ";\n" ++ source) = front ++ close :: back ∧
      Alike front (sourceTokens expression) ∧ close.kind = .semicolon ∧
      Alike back (sourceTokens source) ∧ ∀ token ∈ front ++ [close], token.position.line = 1 := by
  have feed : ";\n" = ";" ++ "\n" := by decide
  have text : expression ++ ";\n" ++ source = expression ++ ";" ++ "\n" ++ source := by
    rw [feed, ← String.append_assoc]
  have closed : (expression ++ ";").toList = expression.toList ++ [';'] := by
    rw [String.toList_append]
    rfl
  have semicolon : Spells [';'] [.ofSingle ';'] := .sign (by decide) .done
  have spells := (spells_sourceTokens expression).append (.cons (by decide) []) (by simp) semicolon
  rw [← closed] at spells
  obtain ⟨front, behind, split, alike, behind_alike⟩ :=
    List.map_eq_append_iff.mp (sourceTokens_spelled spells)
  obtain ⟨close, none_left, rfl, lexeme, ended⟩ := List.map_eq_cons_iff.mp behind_alike
  obtain rfl := List.map_eq_nil_iff.mp ended
  have kind : close.kind = .semicolon := congrArg Lexeme.kind lexeme
  have legal : ∀ token ∈ (sourceTokens (expression ++ ";")).getLast?, token.kind ≠ .illegal := by
    rw [split]
    intro token found
    obtain rfl : close = token := by simpa using found
    rw [kind]
    decide
  have stream := congrArg TokenStream.upcoming (sourceStream_joined legal source)
  have on_line : '\n' ∉ (expression ++ ";").toList := by
    rw [closed]
    simpa using single
  let back := (sourceTokens source).map
    (moved (Position.down (1 + (expression ++ ";").toList.count '\n')))
  refine ⟨front, close, back, ?_, alike, kind, ?_, fun token found => ?_⟩
  · rw [text, sourceTokens, stream, split, List.append_assoc]
    rfl
  · unfold Alike
    rw [List.map_map]
    rfl
  · rw [← split] at found
    exact sourceTokens_line on_line found

/-- A too deep expression costs one diagnostic and its own statement. An expression of the grammar
on one line, without function literals and without too long integers, and a clean source on the
lines behind it are read as an expression with the statements of the source; or the expression is
nested too deeply, which is the only diagnostic, and the statements are those of the source. -/
theorem parse_deep_expression {expression source : String} {tokens : List Token} {ending : Token}
    {parsed : Parsed} (single : '\n' ∉ expression.toList)
    (scanned : tokenize expression false = .ok (tokens ++ [ending]))
    (derives : Derives (.rule .expression) tokens)
    (plain : ∀ token ∈ tokens, token.kind ≠ .functionWord)
    (short : ∀ token ∈ tokens, token.kind = .integer → token.text.length ≤ 4300)
    (ran : parse source = .ok parsed) (clean : parsed.diagnostics = []) :
    ∃ joined, parse (expression ++ ";\n" ++ source) = .ok joined ∧
      ((joined.diagnostics = [] ∧ ∃ value place rest,
          joined.program.statements = .expression value place :: rest ∧
          Stmt.sameAll rest parsed.program.statements = true) ∨
        ∃ diagnostic, joined.diagnostics = [diagnostic] ∧
          diagnostic.message = "expression nested too deeply" ∧
          Stmt.sameAll joined.program.statements parsed.program.statements = true) := by
  obtain ⟨-, same⟩ := tokenize_sourceStream scanned
  obtain rfl : tokens = sourceTokens expression := (List.append_inj' same rfl).1
  obtain ⟨front, close, back, split, front_alike, closing, back_alike, lines⟩ :=
    sourceTokens_line_closed expression source single
  -- the source behind the line
  obtain ⟨far, enough, program⟩ := parse_clean (nonempty_of_parse ran) ran clean
  obtain ⟨statements, trees, behind⟩ := program.move back_alike
  have same_trees := (Stmt.sameAll_iff statements parsed.program.statements).mpr trees
  -- the expression in front of its semicolon
  have flat : Flat (sourceTokens expression) :=
    derives.meaning language_kept (sourceTokens_readable short)
  obtain ⟨levels, tree, alone⟩ := flat.reads [] (Precedence.not_lt_lowest _)
  rw [List.append_nil] at alone
  obtain ⟨value, ended, -, left, reads⟩ := alone.move front_alike
  obtain rfl := List.map_eq_nil_iff.mp left
  have front_plain := front_alike.kinds (· ≠ .functionWord) plain
  have lowest : Precedence.ofKind close.kind = .lowest := by
    rw [closing]
    rfl
  have closed := reads.before close lowest back
  have nonempty : expression ++ ";\n" ++ source ≠ "" := by
    simp
  have joined_ran := parse_eq nonempty
  refine ⟨_, joined_ran, ?_⟩
  by_cases room : levels ≤ maxNesting
  · left
    obtain ⟨first, front, rfl⟩ : ∃ first others, front = first :: others := by
      apply List.exists_cons_of_ne_nil
      rintro rfl
      exact absurd reads.expression_begins (by decide)
    have whole : ReadsProgram (max levels far) (first :: front ++ close :: back)
      (.expression value first.position :: statements) := .next (.terminated closed closing) behind
    rw [← split] at whole
    obtain ⟨read, none_recorded⟩ := parse_reads nonempty joined_ran whole (by omega)
    exact ⟨none_recorded, value, first.position, statements, congrArg Program.statements read,
      same_trees⟩
  · right
    obtain ⟨found, last, loops, result⟩ := parse_loops nonempty joined_ran
    have outermost := State.ofText_outermost (expression ++ ";\n" ++ source)
    have views := State.ofText_views (expression ++ ";\n" ++ source)
    have fresh : (State.ofText (expression ++ ";\n" ++ source)).diagnostics = #[] :=
      State.ofStream_diagnostics _
    rw [split] at views
    obtain ⟨fault, deep, read, recorded⟩ := program_too_deep closed (Nat.lt_of_not_le room)
      front_plain views outermost.nesting closing lines behind enough loops
    rw [fresh] at recorded
    rw [result]
    refine ⟨fault, recorded, congrArg Cause.message deep, ?_⟩
    rw [show found.toList = statements from read]
    exact same_trees

/-- Signs in front of a name, one more than there is room for. -/
def deepLine : String := String.ofList (List.replicate 100 '-') ++ "a"

/-- Signs in front of a name are an expression, however many there are. -/
theorem derives_signs {count : Nat} {tokens : List Token}
    (kinds : tokens.map (·.kind) = List.replicate count .minus ++ [.identifier]) :
    Derives (.rule .expression) tokens := by
  have alone : ∀ {tokens : List Token}, Derives (.rule .operand) tokens →
      Derives (.rule .expression) tokens := by
    intro tokens operand
    have whole : Derives (.rule .expression) (tokens ++ []) :=
      .rule (.part operand (.stopped .nothing))
    rwa [List.append_nil] at whole
  induction count generalizing tokens with
  | zero =>
    obtain ⟨name, rfl, named⟩ := List.map_eq_singleton_iff.mp kinds
    exact alone (.rule (.left (.token named)))
  | succ count ih =>
    obtain ⟨sign, rest, rfl, minus, behind⟩ := List.map_eq_cons_iff.mp kinds
    have operand : Derives (.all [.any [.token .bang, .token .minus], .rule .expression])
        ([sign] ++ rest) := .part (.right (.left (.token minus))) (.last (ih behind))
    exact alone (.rule (.of_mem (by decide) operand))

/-- An expression that is too deep on a line, and a binding on the next one. -/
theorem parse_deep_expression_signs :
    ∃ tokens ending parsed, '\n' ∉ deepLine.toList ∧
      tokenize deepLine false = .ok (tokens ++ [ending]) ∧ Derives (.rule .expression) tokens ∧
      (∀ token ∈ tokens, token.kind ≠ .functionWord) ∧
      (∀ token ∈ tokens, token.kind = .integer → token.text.length ≤ 4300) ∧
      parse "let b = 1;" = .ok parsed ∧ parsed.diagnostics = [] ∧
      ∃ joined, parse (deepLine ++ ";\n" ++ "let b = 1;") = .ok joined ∧
        ((joined.diagnostics = [] ∧ ∃ value place rest,
            joined.program.statements = .expression value place :: rest ∧
            Stmt.sameAll rest parsed.program.statements = true) ∨
          ∃ diagnostic, joined.diagnostics = [diagnostic] ∧
            diagnostic.message = "expression nested too deeply" ∧
            Stmt.sameAll joined.program.statements parsed.program.statements = true) ∧
        joined.diagnostics ≠ [] := by
  have single : '\n' ∉ deepLine.toList := by decide +kernel
  have kinds : (sourceTokens deepLine).map (·.kind) =
      List.replicate 100 .minus ++ [.identifier] := by decide +kernel
  have derives := derives_signs kinds
  have scanned := tokenize_eq (show deepLine ≠ "" by decide +kernel)
  have plain : ∀ token ∈ sourceTokens deepLine, token.kind ≠ .functionWord := by decide +kernel
  have short : ∀ token ∈ sourceTokens deepLine, token.kind = .integer →
      token.text.length ≤ 4300 := by decide +kernel
  have ran : parse "let b = 1;" = .ok (State.ofText "let b = 1;").finish := parse_eq (by decide)
  have clean : (State.ofText "let b = 1;").finish.diagnostics = [] := by decide +kernel
  obtain ⟨joined, joined_ran, outcome⟩ :=
    parse_deep_expression single scanned derives plain short ran clean
  have deep : (State.ofText (deepLine ++ ";\n" ++ "let b = 1;")).finish.diagnostics ≠ [] := by
    decide +kernel
  have whole := parse_eq (nonempty_of_parse joined_ran)
  rw [Except.ok.inj (whole.symm.trans joined_ran)] at deep
  exact ⟨_, _, _, single, scanned, derives, plain, short, ran, clean, joined, joined_ran, outcome,
    deep⟩

end ExprLang.Parser
