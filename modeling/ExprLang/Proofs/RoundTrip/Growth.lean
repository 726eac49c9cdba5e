import ExprLang.Proofs.RoundTrip.Merge

/-!
# Parentheses that merging adds

A statement that is merged with the one in front of it gets a pair of parentheses, and nothing else
changes how many parentheses a text opens. So the texts of a tree and of its merged tree open as
many only where nothing is merged: where the tree is proper.
-/

namespace ExprLang

/-- How many parentheses a text opens. -/
def openings (text : String) : Nat := text.toList.count '('

/-- How many parentheses several texts open. -/
def openingsAll : List String → Nat
  | [] => 0
  | text :: texts => openings text + openingsAll texts

/-- Texts behind each other open the parentheses of both. -/
@[simp]
theorem openings_append (left right : String) :
    openings (left ++ right) = openings left + openings right := by
  simp [openings]

/-- Texts behind separators without a parenthesis open their own parentheses only. -/
theorem openings_intercalate {separator : String} (none_inside : openings separator = 0)
    (texts : List String) : openings (separator.intercalate texts) = openingsAll texts := by
  induction texts with
  | nil => simp [openings, openingsAll]
  | cons text texts ih =>
    cases texts with
    | nil => simp [openings, openingsAll]
    | cons next texts =>
      calc openings (separator.intercalate (text :: next :: texts))
          = openings text + openings separator +
              openings (separator.intercalate (next :: texts)) := by
            rw [String.intercalate_cons_cons, openings_append, openings_append]
        _ = openingsAll (text :: next :: texts) := by rw [none_inside, ih]; rfl

/-- Texts between braces open their own parentheses only. -/
@[simp]
theorem openings_renderBraced (texts : List String) :
    openings (renderBraced texts) = openingsAll texts := by
  cases texts with
  | nil => rfl
  | cons text texts =>
    have none_inside : openings " " = 0 := rfl
    have before : openings "\x7b " = 0 := rfl
    have behind : openings " \x7d" = 0 := rfl
    simp only [renderBraced, openings_append, openings_intercalate none_inside, before, behind]
    omega

namespace Expr

/-- The call that two expressions are merged to opens a parenthesis of its own. -/
theorem openings_graft (left : Expr) : (value : Expr) →
    openings (left.graft value).render = openings left.render + openings value.render + 1
  | .call callee arguments _ => by
    simp only [graft, render, openings_append, openings_graft left callee]
    omega
  | .name _ | .integer _ _ | .boolean _ _ | .unary _ _ _ | .binary _ _ _ _ | .function _ _ _
  | .missing _ => by
    have opened : openings "(" = 1 := rfl
    have closed : openings ")" = 0 := rfl
    simp only [graft, render, renderAll, openings_append, opened, closed,
      String.intercalate_singleton]
    omega

end Expr

namespace Stmt

/-- A statement in front of others stays on its own, or opens a parenthesis more. -/
theorem openings_before (statement : Stmt) (rest : List Stmt) :
    statement.before rest = statement :: rest ∨
      openingsAll (renderAll (statement.before rest)) =
        openings statement.render + openingsAll (renderAll rest) + 1 := by
  unfold before
  split
  · split
    · right
      simp only [renderAll, render, openingsAll, Expr.openings_graft]
      omega
    · exact .inl rfl
  · exact .inl rfl

/-- A statement that stays on its own in front of merged ones does not go on with the first of
those that were merged. -/
theorem apart_of_before {statement : Stmt} {rest : List Stmt} (writable : Stmt.WritableAll rest)
    (alone : statement.merged.before (mergedAll rest) = statement.merged :: mergedAll rest) :
    ∀ next ∈ rest.head?, ¬ statement.Merges next := by
  intro next found merges
  obtain ⟨rest, rfl⟩ := List.head?_eq_some_iff.mp found
  cases statement with
  | expression left position =>
    rw [merges_iff writable.1] at merges
    obtain ⟨first, behind, same, opens⟩ := next.merged.before_begins (mergedAll rest)
    rw [opens_merged, merges] at opens
    rw [mergedAll, same] at alone
    cases first with
    | expression value other =>
      have taken : value.opens = true := opens
      simp [merged, before, taken] at alone
    | _ => exact absurd opens Bool.false_ne_true
  | _ => exact merges

end Stmt

mutual

/-- Merging inside of an expression removes no parenthesis, and adds none only where it is
proper. -/
theorem Expr.merged_grows : (value : Expr) → value.Writable →
    openings value.render ≤ openings value.merged.render ∧
      (openings value.merged.render ≤ openings value.render → value.Proper)
  | .name _, writable => ⟨Nat.le_refl _, fun _ => writable⟩
  | .integer _ _, writable => ⟨Nat.le_refl _, fun _ => writable⟩
  | .boolean _ _, writable => ⟨Nat.le_refl _, fun _ => writable⟩
  | .unary _ operand _, ⟨listed, writable⟩ => by
    have inside := Expr.merged_grows operand writable
    simp only [Expr.merged, Expr.render, openings_append]
    exact ⟨by omega, fun kept => ⟨listed, inside.2 (by omega)⟩⟩
  | .binary _ left right _, ⟨listed, writable_left, writable_right⟩ => by
    have first := Expr.merged_grows left writable_left
    have second := Expr.merged_grows right writable_right
    simp only [Expr.merged, Expr.render, openings_append]
    exact ⟨by omega, fun kept => ⟨listed, first.2 (by omega), second.2 (by omega)⟩⟩
  | .call callee arguments _, ⟨writable_callee, writable⟩ => by
    have first := Expr.merged_grows callee writable_callee
    have others := Expr.mergedEach_grows arguments writable
    have comma : openings ", " = 0 := rfl
    simp only [Expr.merged, Expr.render, openings_append, openings_intercalate comma]
    exact ⟨by omega, fun kept => ⟨first.2 (by omega), others.2 (by omega)⟩⟩
  | .function _ body _, ⟨named, writable⟩ => by
    have inside := Stmt.mergedAll_grows body writable
    simp only [Expr.merged, Expr.render, openings_append, openings_renderBraced]
    exact ⟨by omega, fun kept => ⟨named, inside.2 (by omega)⟩⟩
  | .missing _, writable => absurd writable id

/-- Merging inside of expressions removes no parenthesis, and adds none only where they are
proper. -/
theorem Expr.mergedEach_grows : (values : List Expr) → Expr.WritableAll values →
    openingsAll (Expr.renderAll values) ≤ openingsAll (Expr.renderAll (Expr.mergedEach values)) ∧
      (openingsAll (Expr.renderAll (Expr.mergedEach values)) ≤
        openingsAll (Expr.renderAll values) → Expr.ProperAll values)
  | [], _ => ⟨Nat.le_refl _, fun _ => trivial⟩
  | value :: values, ⟨writable, writable_others⟩ => by
    have first := Expr.merged_grows value writable
    have others := Expr.mergedEach_grows values writable_others
    simp only [Expr.mergedEach, Expr.renderAll, openingsAll]
    exact ⟨by omega, fun kept => ⟨first.2 (by omega), others.2 (by omega)⟩⟩

/-- Merging inside of a statement removes no parenthesis, and adds none only where it is
proper. -/
theorem Stmt.merged_grows : (statement : Stmt) → statement.Writable →
    openings statement.render ≤ openings statement.merged.render ∧
      (openings statement.merged.render ≤ openings statement.render → statement.Proper)
  | .binding _ value _, ⟨named, writable⟩ => by
    have inside := Expr.merged_grows value writable
    simp only [Stmt.merged, Stmt.render, openings_append]
    exact ⟨by omega, fun kept => ⟨named, inside.2 (by omega)⟩⟩
  | .result none _, _ => ⟨Nat.le_refl _, fun _ => trivial⟩
  | .result (some value) _, writable => by
    have inside := Expr.merged_grows value writable
    simp only [Stmt.merged, Stmt.render, openings_append]
    exact ⟨by omega, fun kept => inside.2 (by omega)⟩
  | .expression value _, writable => Expr.merged_grows value writable
  | .condition test consequence none _, ⟨writable, writable_first⟩ => by
    have tested := Expr.merged_grows test writable
    have first := Stmt.mergedAll_grows consequence writable_first
    simp only [Stmt.merged, Stmt.render, openings_append, openings_renderBraced]
    exact ⟨by omega, fun kept => ⟨tested.2 (by omega), first.2 (by omega)⟩⟩
  | .condition test consequence (some alternative) _,
      ⟨writable, writable_first, writable_second⟩ => by
    have tested := Expr.merged_grows test writable
    have first := Stmt.mergedAll_grows consequence writable_first
    have second := Stmt.mergedAll_grows alternative writable_second
    simp only [Stmt.merged, Stmt.render, openings_append, openings_renderBraced]
    exact ⟨by omega, fun kept => ⟨tested.2 (by omega), first.2 (by omega), second.2 (by omega)⟩⟩

/-- Merging statements removes no parenthesis, and adds none only where they are proper. -/
theorem Stmt.mergedAll_grows : (statements : List Stmt) → Stmt.WritableAll statements →
    openingsAll (Stmt.renderAll statements) ≤
        openingsAll (Stmt.renderAll (Stmt.mergedAll statements)) ∧
      (openingsAll (Stmt.renderAll (Stmt.mergedAll statements)) ≤
        openingsAll (Stmt.renderAll statements) → Stmt.ProperAll statements)
  | [], _ => ⟨Nat.le_refl _, fun _ => trivial⟩
  | statement :: statements, ⟨writable, _, writable_others⟩ => by
    have first := Stmt.merged_grows statement writable
    have others := Stmt.mergedAll_grows statements writable_others
    rw [Stmt.mergedAll]
    rcases Stmt.openings_before statement.merged (Stmt.mergedAll statements) with alone | more
    · have apart := Stmt.apart_of_before writable_others alone
      rw [alone]
      simp only [Stmt.renderAll, openingsAll]
      exact ⟨by omega, fun kept => ⟨first.2 (by omega), apart, others.2 (by omega)⟩⟩
    · rw [more]
      simp only [Stmt.renderAll, openingsAll]
      exact ⟨by omega, fun kept => absurd kept (by omega)⟩

end

/-- A writable program is rendered as the program that its rendering is read as exactly when it is
proper. -/
theorem Program.render_merged_iff {program : Program}
    (writable : Stmt.WritableAll program.statements) :
    (Program.mk (Stmt.mergedAll program.statements)).render = program.render ↔
      Stmt.ProperAll program.statements := by
  constructor
  · intro same
    have lineBreak : openings "\n" = 0 := rfl
    have counted := congrArg openings same
    simp only [Program.render, openings_intercalate lineBreak] at counted
    exact (Stmt.mergedAll_grows program.statements writable).2 (Nat.le_of_eq counted)
  · intro proper
    rw [Stmt.ProperAll.mergedAll_eq program.statements proper]

end ExprLang
