import ExprLang.Proofs.RoundTrip.Reading
import ExprLang.Proofs.RoundTrip.Spelling

/-!
# Parsing a rendering

Parsing the rendering of a tree gives the tree (`parse_render`): the rendering spells the lexemes
of the tree, and these have a reading with it.
-/

namespace ExprLang

/-- The rendering of a program writes its lexemes. -/
theorem Program.writes {program : Program} (writable : Stmt.WritableAll program.statements) :
    Writes program.render (Stmt.lexemesAll program.statements) := by
  obtain ⟨statements⟩ := program
  intro rest more apart behind
  unfold Program.render
  cases statements with
  | nil => simpa [Stmt.renderAll, Stmt.lexemesAll] using behind
  | cons statement statements =>
    obtain ⟨first, -, others⟩ := writable
    have onward := Stmt.writesAll statements others (.inr rfl) apart behind
    have separated : Apart ((Stmt.renderAll statements).flatMap
        (fun text => "\n".toList ++ text.toList) ++ rest) :=
      .separated (.cons (by decide) _) (by decide) apart _
    rw [Stmt.renderAll, toList_intercalate_cons, Stmt.lexemesAll, List.append_assoc,
      List.append_assoc]
    exact Stmt.writes statement first separated onward

/-- The rendering of a program spells its lexemes. -/
theorem Program.spelled {program : Program} (writable : Stmt.WritableAll program.statements) :
    Spells program.render.toList (Stmt.lexemesAll program.statements) := by
  have ending : Apart [] := nofun
  simpa using Program.writes writable ending .done

/-- The rendering of a program with a statement is not empty. -/
theorem Program.render_ne_empty {program : Program} (some_statement : program.statements ≠ [])
    (writable : Stmt.WritableAll program.statements) : program.render ≠ "" := by
  intro empty
  have spells := Program.spelled writable
  rw [empty] at spells
  obtain ⟨statement, statements, found⟩ := List.exists_cons_of_ne_nil some_statement
  rw [found] at writable spells
  obtain ⟨lexeme, behind, lexemes, -⟩ := Stmt.begins writable.1
  rw [Stmt.lexemesAll, lexemes] at spells
  exact absurd spells.of_nil (List.cons_ne_nil _ _)

/-- Statements open no more levels than a bound that each of them keeps. -/
theorem Stmt.nestingAll_le {bound : Nat} {statements : List Stmt}
    (shallow : ∀ statement ∈ statements, statement.nesting ≤ bound) :
    Stmt.nestingAll statements ≤ bound := by
  induction statements with
  | nil => exact Nat.zero_le bound
  | cons statement statements ih =>
    obtain ⟨first, others⟩ := List.forall_mem_cons.mp shallow
    exact Nat.max_le.mpr ⟨first, ih others⟩

namespace Parser

/-- Parsing undoes rendering. The rendering of a program of proper statements, none of which goes
on with the next, is parsed as this program without a diagnostic as long as no statement in it is
nested deeper than the limit. -/
theorem parse_render {program : Program} (some_statement : program.statements ≠ [])
    (proper : Stmt.ProperAll program.statements)
    (shallow : ∀ statement ∈ program.statements, statement.nesting ≤ 100) :
    ∃ parsed, parse program.render = .ok parsed ∧ parsed.program.same program = true ∧
      parsed.diagnostics = [] := by
  have writable := Stmt.MeetsAll.weaken Demands.proper_entails program.statements proper
  have reads := Stmt.reads_program writable
  rw [Stmt.ProperAll.mergedAll_eq program.statements proper] at reads
  obtain ⟨parsed, ran, same, clean⟩ := parse_spelled
    (Program.render_ne_empty some_statement writable) (Program.spelled writable) reads
    (Stmt.nestingAll_le shallow)
  refine ⟨parsed, ran, ?_, clean⟩
  rw [Program.same_iff] at same ⊢
  rw [same]
  exact congrArg Program.mk (Stmt.unplacedAll_unplacedAll program.statements)

/-- A program of a function and its application, with an operation behind a binding. -/
def application : Program := ⟨[
  .binding ⟨"f", .origin⟩ (.function [⟨"a", .origin⟩]
    [.result (some (.unary "-" (.name ⟨"a", .origin⟩) .origin)) .origin] .origin) .origin,
  .expression (.binary "+" (.call (.name ⟨"f", .origin⟩) [.integer 10 .origin] .origin)
    (.boolean true .origin) .origin) .origin]⟩

/-- The application of a function is parsed from its rendering. -/
theorem parse_render_application :
    application.statements ≠ [] ∧ Stmt.ProperAll application.statements ∧
      (∀ statement ∈ application.statements, statement.nesting ≤ 100) ∧
      ∃ parsed, parse application.render = .ok parsed ∧
        parsed.program.same application = true ∧ parsed.diagnostics = [] := by
  have name : ∀ text ∈ ["f", "a"], Ident.Proper ⟨text, .origin⟩ := by decide
  have proper : Stmt.ProperAll application.statements := by
    refine ⟨⟨name "f" (by decide), ?_, ⟨by decide, name "a" (by decide)⟩, nofun, trivial⟩, ?_,
      ⟨by decide, ⟨name "f" (by decide), ⟨by decide, by decide⟩, trivial⟩, trivial⟩, nofun, trivial⟩
    · rintro parameter listed
      obtain rfl := List.mem_singleton.mp listed
      exact name "a" (by decide)
    · rintro _ ⟨⟩ merges
      exact merges
  have shallow : ∀ statement ∈ application.statements, statement.nesting ≤ 100 := by
    unfold application
    simp [Stmt.nesting, Expr.nesting, Expr.nestingAll, Stmt.nestingAll]
  exact ⟨List.cons_ne_nil _ _, proper, shallow,
    parse_render (List.cons_ne_nil _ _) proper shallow⟩

end Parser

end ExprLang
