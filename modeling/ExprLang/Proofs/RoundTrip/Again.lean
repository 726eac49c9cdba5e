import ExprLang.Batch
import ExprLang.Proofs.RoundTrip.Growth
import ExprLang.Proofs.RoundTrip.Origin
import ExprLang.Proofs.RoundTrip.Render

/-!
# Running on the output of a run

The output of a batch run is source text again. A second run on it is sound, but it prints what the
rendering says: the program with its statements merged. So it prints the same again exactly where
the first program is proper (`Batch.run_again`).
-/

namespace ExprLang

/-! ## Positions in renderings -/

mutual

/-- Positions play no part in the text of an expression. -/
theorem Expr.render_unplaced : (value : Expr) → value.unplaced.render = value.render
  | .name _ => rfl
  | .integer _ _ => rfl
  | .boolean _ _ => rfl
  | .unary _ operand _ => by
    rw [Expr.unplaced, Expr.render, Expr.render, Expr.render_unplaced operand]
  | .binary _ left right _ => by
    rw [Expr.unplaced, Expr.render, Expr.render, Expr.render_unplaced left,
      Expr.render_unplaced right]
  | .call callee arguments _ => by
    rw [Expr.unplaced, Expr.render, Expr.render, Expr.render_unplaced callee,
      Expr.renderAll_unplaced arguments]
  | .function parameters body _ => by
    have names : (parameters.map Ident.unplaced).map (·.name) = parameters.map (·.name) := by
      rw [List.map_map]
      rfl
    rw [Expr.unplaced, Expr.render, Expr.render, names, Stmt.renderAll_unplaced body]
  | .missing _ => rfl

/-- Positions play no part in the texts of expressions. -/
theorem Expr.renderAll_unplaced : (values : List Expr) →
    Expr.renderAll (Expr.unplacedAll values) = Expr.renderAll values
  | [] => rfl
  | value :: values => by
    rw [Expr.unplacedAll, Expr.renderAll, Expr.renderAll, Expr.render_unplaced value,
      Expr.renderAll_unplaced values]

/-- Positions play no part in the text of a statement. -/
theorem Stmt.render_unplaced : (statement : Stmt) → statement.unplaced.render = statement.render
  | .binding _ value _ => by
    rw [Stmt.unplaced, Stmt.render, Stmt.render, Expr.render_unplaced value]
    rfl
  | .result none _ => rfl
  | .result (some value) _ => by
    rw [Stmt.unplaced, Stmt.render, Stmt.render, Expr.render_unplaced value]
  | .expression value _ => Expr.render_unplaced value
  | .condition test consequence none _ => by
    rw [Stmt.unplaced, Stmt.render, Stmt.render, Expr.render_unplaced test,
      Stmt.renderAll_unplaced consequence]
  | .condition test consequence (some alternative) _ => by
    rw [Stmt.unplaced, Stmt.render, Stmt.render, Expr.render_unplaced test,
      Stmt.renderAll_unplaced consequence, Stmt.renderAll_unplaced alternative]

/-- Positions play no part in the texts of statements. -/
theorem Stmt.renderAll_unplaced : (statements : List Stmt) →
    Stmt.renderAll (Stmt.unplacedAll statements) = Stmt.renderAll statements
  | [] => rfl
  | statement :: statements => by
    rw [Stmt.unplacedAll, Stmt.renderAll, Stmt.renderAll, Stmt.render_unplaced statement,
      Stmt.renderAll_unplaced statements]

end

/-- Programs that differ in positions only have the same text. -/
theorem Program.render_same {left right : Program} (same : left.same right = true) :
    left.render = right.render := by
  rw [Program.same_iff] at same
  have texts := congrArg (fun program : Program => Stmt.renderAll program.statements) same
  simp only [Program.unplaced, Stmt.renderAll_unplaced] at texts
  rw [Program.render, Program.render, texts]

/-! ## Parsing an output -/

namespace Parser

variable {program : Program}

/-- Where parsing the rendering of a program leaves no diagnostic of nesting, there is room for
all that its statements open. -/
theorem nestingAll_le_of_parse (some_statement : program.statements ≠ [])
    (writable : Stmt.WritableAll program.statements)
    (shallow : ∀ again, parse program.render = .ok again →
      ∀ diagnostic ∈ again.diagnostics, diagnostic.cause.isDepth = false) :
    Stmt.nestingAll program.statements ≤ maxNesting := by
  by_contra deep
  have nonempty := Program.render_ne_empty some_statement writable
  have ran := parse_eq nonempty
  obtain ⟨found, -, reads⟩ :=
    reads_spelled (Program.spelled writable) (Stmt.reads_program writable)
  obtain ⟨diagnostic, recorded, isDepth⟩ := parse_deep nonempty ran reads (Nat.lt_of_not_le deep)
  have not_depth := shallow _ ran diagnostic recorded
  rw [isDepth] at not_depth
  cases not_depth

/-- The rendering of a program on lines of its own is parsed as the program with its statements
merged. -/
theorem parse_line (some_statement : program.statements ≠ [])
    (writable : Stmt.WritableAll program.statements)
    (enough : Stmt.nestingAll program.statements ≤ maxNesting) :
    ∃ parsed, parse (program.render ++ "\n") = .ok parsed ∧ parsed.diagnostics = [] ∧
      parsed.program.statements ≠ [] ∧
      parsed.program.same ⟨Stmt.mergedAll program.statements⟩ = true := by
  have nonempty : program.render ++ "\n" ≠ "" := by simp
  have line : Apart "\n".toList := .cons (by decide) []
  have spells := Program.writes writable line (.gap (.inr (.inr rfl)) .done)
  rw [← String.toList_append, List.append_nil] at spells
  obtain ⟨parsed, ran, same, clean⟩ :=
    parse_spelled nonempty spells (Stmt.reads_program writable) enough
  rw [Program.same_iff] at same
  have merged : parsed.program.unplaced =
      (Program.mk (Stmt.mergedAll program.statements)).unplaced := by
    rw [same]
    exact congrArg Program.mk (Stmt.unplacedAll_unplacedAll _)
  refine ⟨parsed, ran, clean, ?_, (Program.same_iff _ _).mpr merged⟩
  intro none_left
  obtain ⟨first, behind, found⟩ :=
    List.exists_cons_of_ne_nil (Stmt.mergedAll_ne_nil some_statement)
  have statements := congrArg Program.statements merged
  rw [Program.unplaced, Program.unplaced, none_left, found] at statements
  cases statements

end Parser

namespace Batch

/-- The options of a run that lists the program of a text as source text. -/
def plain : BatchOptions := { isText := true, tokens := false, asJson := false }

/-- A run on a text reports what parsing the text gives. -/
theorem run_plain (read : FileReader) {source : String} {parsed : Parsed}
    (ran : parse source = .ok parsed) :
    (run read plain source).result = .ok ⟨if parsed.diagnostics.isEmpty then 0 else 1,
      programText false parsed.program, unlines (parsed.diagnostics.map (·.listed))⟩ := by
  have nonempty := Parser.nonempty_of_parse ran
  rw [Parser.parse_eq nonempty] at ran
  obtain rfl := Except.ok.inj ran
  simp [run, plain, sourceText, ofText, nonempty, parseText]

/-- A program with a statement is listed on lines of its own. -/
theorem programText_plain {program : Program} (some_statement : program.statements ≠ []) :
    programText false program = program.render ++ "\n" := by
  simp [programText, some_statement, unlines]

/-- A second run, on what a run on a sound source prints, is sound. It prints the program with its
statements merged, and so the same again exactly where no expression goes on with the next
statement. -/
theorem run_again (read : FileReader) {source : String} {parsed : Parsed}
    (ran : parse source = .ok parsed) (clean : parsed.diagnostics = [])
    (some_statement : parsed.program.statements ≠ [])
    (shallow : ∀ again, parse parsed.program.render = .ok again →
      ∀ diagnostic ∈ again.diagnostics, diagnostic.cause.isDepth = false) :
    ∃ first again : Report, (run read plain source).result = .ok first ∧
      (run read plain first.output).result = .ok again ∧ again.status = 0 ∧
      again.complaints = "" ∧
      again.output =
        (Program.mk (Stmt.mergedAll parsed.program.statements)).render ++ "\n" ∧
      (again.output = first.output ↔ Stmt.ProperAll parsed.program.statements) := by
  have writable := Parser.parse_writable ran clean
  have enough := Parser.nestingAll_le_of_parse some_statement writable shallow
  obtain ⟨again, ran_again, clean_again, some_left, same⟩ :=
    Parser.parse_line some_statement writable enough
  have listed := programText_plain some_statement
  have listed_again := programText_plain some_left
  rw [Program.render_same same] at listed_again
  rw [← listed] at ran_again
  refine ⟨_, _, run_plain read ran, run_plain read ran_again, ?_, ?_, listed_again, ?_⟩
  · rw [clean_again]
    rfl
  · rw [clean_again]
    rfl
  · calc programText false again.program = programText false parsed.program
        ↔ (Program.mk (Stmt.mergedAll parsed.program.statements)).render ++ "\n" =
            parsed.program.render ++ "\n" := by rw [listed, listed_again]
      _ ↔ (Program.mk (Stmt.mergedAll parsed.program.statements)).render =
            parsed.program.render := by simp
      _ ↔ Stmt.ProperAll parsed.program.statements := Program.render_merged_iff writable

/-- A run on the output of a run on a call and a binding. -/
theorem run_again_binding :
    ∃ parsed, parse "f(1); let y = -f;" = .ok parsed ∧ parsed.diagnostics = [] ∧
      parsed.program.statements ≠ [] ∧
      (∀ again, parse parsed.program.render = .ok again →
        ∀ diagnostic ∈ again.diagnostics, diagnostic.cause.isDepth = false) ∧
      ∃ first again : Report,
        (run (fun _ => .ok []) plain "f(1); let y = -f;").result = .ok first ∧
        (run (fun _ => .ok []) plain first.output).result = .ok again ∧ again.status = 0 ∧
        again.complaints = "" ∧
        again.output =
          (Program.mk (Stmt.mergedAll parsed.program.statements)).render ++ "\n" ∧
        (again.output = first.output ↔ Stmt.ProperAll parsed.program.statements) := by
  have ran : parse "f(1); let y = -f;" = .ok (Parser.State.ofText "f(1); let y = -f;").finish :=
    Parser.parse_eq (by decide)
  have clean : (Parser.State.ofText "f(1); let y = -f;").finish.diagnostics = [] := by
    decide +kernel
  have some_statement :
      (Parser.State.ofText "f(1); let y = -f;").finish.program.statements ≠ [] := by
    decide +kernel
  have shallow : ∀ again,
      parse (Parser.State.ofText "f(1); let y = -f;").finish.program.render = .ok again →
        ∀ diagnostic ∈ again.diagnostics, diagnostic.cause.isDepth = false := by
    have rendered : (Parser.State.ofText "f(1); let y = -f;").finish.program.render =
        "f(1)\nlet y = (-f);" := by decide +kernel
    have none_recorded :
        (Parser.State.ofText "f(1)\nlet y = (-f);").finish.diagnostics = [] := by decide +kernel
    intro again ran_again
    rw [rendered, Parser.parse_eq (by decide)] at ran_again
    obtain rfl := Except.ok.inj ran_again
    rw [none_recorded]
    exact nofun
  exact ⟨_, ran, clean, some_statement, shallow,
    run_again (fun _ => .ok []) ran clean some_statement shallow⟩

/-- Two expressions of a sound source are printed on two lines, which a second run takes for a
call: it prints another text. -/
theorem run_again_merges :
    ∃ parsed rendered first again, parse "a; -b;" = .ok parsed ∧ parsed.diagnostics = [] ∧
      parsed.program.statements ≠ [] ∧ parsed.program.render = "a\n(-b)" ∧
      parse "a\n(-b)" = .ok rendered ∧ rendered.diagnostics = [] ∧
      (run (fun _ => .ok []) plain "a; -b;").result = .ok first ∧ first.output = "a\n(-b)\n" ∧
      (run (fun _ => .ok []) plain "a\n(-b)\n").result = .ok again ∧
      again.output = "a((-b))\n" ∧ again.output ≠ first.output := by
  have ran : parse "a; -b;" = .ok (Parser.State.ofText "a; -b;").finish :=
    Parser.parse_eq (by decide)
  have ran_rendered : parse "a\n(-b)" = .ok (Parser.State.ofText "a\n(-b)").finish :=
    Parser.parse_eq (by decide)
  have ran_again : parse "a\n(-b)\n" = .ok (Parser.State.ofText "a\n(-b)\n").finish :=
    Parser.parse_eq (by decide)
  have printed : programText false (Parser.State.ofText "a; -b;").finish.program =
      "a\n(-b)\n" := by decide +kernel
  have printed_again : programText false (Parser.State.ofText "a\n(-b)\n").finish.program =
      "a((-b))\n" := by decide +kernel
  refine ⟨_, _, _, _, ran, by decide +kernel, by decide +kernel, by decide +kernel, ran_rendered,
    by decide +kernel, run_plain _ ran, printed, run_plain _ ran_again, printed_again, ?_⟩
  rw [printed, printed_again]
  decide

end Batch

end ExprLang
