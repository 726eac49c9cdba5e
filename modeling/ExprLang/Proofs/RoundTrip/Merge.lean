import ExprLang.Proofs.RoundTrip.Basic
import ExprLang.Tree.Same

/-!
# Statements that go on with the next

A statement that is an expression is written without a semicolon. Where the next one begins with a
parenthesis, the two are read as one: what stands in the parenthesis is the argument of a call of
the first expression (`Expr.graft`). A tree whose statements are merged in this way, at every depth
(`Stmt.mergedAll`), is what its rendering says. Proper statements are not merged.
-/

namespace ExprLang

/-! ## Merging two expressions -/

/-- Whether the text of an expression begins with a parenthesis. -/
def Expr.opens : Expr → Bool
  | .unary _ _ _ => true
  | .binary _ _ _ _ => true
  | .call callee _ _ => callee.opens
  | _ => false

/-- An expression with another one in front of it: what it begins with in parentheses is the
argument of a call of the other one. -/
def Expr.graft (left : Expr) : Expr → Expr
  | .call callee arguments position => .call (left.graft callee) arguments position
  | value => .call left [value] .origin

/-- Whether a statement is an expression whose text begins with a parenthesis. -/
def Stmt.opens : Stmt → Bool
  | .expression value _ => value.opens
  | _ => false

/-- A statement in front of others. An expression takes over the first of the others where that
begins with a parenthesis. -/
def Stmt.before : Stmt → List Stmt → List Stmt
  | .expression left position, .expression value other :: rest =>
    if value.opens then .expression (left.graft value) position :: rest
    else .expression left position :: .expression value other :: rest
  | statement, rest => statement :: rest

mutual

/-- The expression with the statements of its functions merged. -/
def Expr.merged : Expr → Expr
  | .name ident => .name ident
  | .integer value position => .integer value position
  | .boolean value position => .boolean value position
  | .unary operator operand position => .unary operator operand.merged position
  | .binary operator left right position => .binary operator left.merged right.merged position
  | .call callee arguments position => .call callee.merged (Expr.mergedEach arguments) position
  | .function parameters body position => .function parameters (Stmt.mergedAll body) position
  | .missing position => .missing position

/-- The expressions with the statements of their functions merged. -/
def Expr.mergedEach : List Expr → List Expr
  | [] => []
  | value :: rest => value.merged :: Expr.mergedEach rest

/-- The statement with the statements inside of it merged. -/
def Stmt.merged : Stmt → Stmt
  | .binding target value position => .binding target value.merged position
  | .result none position => .result none position
  | .result (some value) position => .result (some value.merged) position
  | .expression value position => .expression value.merged position
  | .condition test consequence none position =>
    .condition test.merged (Stmt.mergedAll consequence) none position
  | .condition test consequence (some alternative) position =>
    .condition test.merged (Stmt.mergedAll consequence) (some (Stmt.mergedAll alternative)) position

/-- The statements as their texts are read, one behind the other. -/
def Stmt.mergedAll : List Stmt → List Stmt
  | [] => []
  | statement :: rest => statement.merged.before (Stmt.mergedAll rest)

end

/-! ## Laws -/

namespace Expr

/-- An expression behind another one begins as the other one does. -/
@[simp]
theorem opens_graft (left : Expr) : (value : Expr) → (left.graft value).opens = left.opens
  | .call callee _ _ => opens_graft left callee
  | .name _ | .integer _ _ | .boolean _ _ | .unary _ _ _ | .binary _ _ _ _ | .function _ _ _
  | .missing _ => by simp [graft, opens]

/-- It does not matter which two of three expressions are merged first. -/
theorem graft_graft (left middle : Expr) :
    (value : Expr) → (left.graft middle).graft value = left.graft (middle.graft value)
  | .call callee arguments position => by simp [graft, graft_graft left middle callee]
  | .name _ | .integer _ _ | .boolean _ _ | .unary _ _ _ | .binary _ _ _ _ | .function _ _ _
  | .missing _ => by simp [graft]

/-- Positions play no part in merging two expressions. -/
@[simp]
theorem unplaced_graft (left : Expr) :
    (value : Expr) → (left.graft value).unplaced = left.unplaced.graft value.unplaced
  | .call callee arguments position => by simp [graft, unplaced, unplaced_graft left callee]
  | .name _ | .integer _ _ | .boolean _ _ | .unary _ _ _ | .binary _ _ _ _ | .function _ _ _
  | .missing _ => by simp [graft, unplaced, unplacedAll]

/-- Merging inside of an expression does not change what it begins with. -/
@[simp]
theorem opens_merged : (value : Expr) → value.merged.opens = value.opens
  | .call callee _ _ => opens_merged callee
  | .name _ | .integer _ _ | .boolean _ _ | .unary _ _ _ | .binary _ _ _ _ | .function _ _ _
  | .missing _ => by simp [merged, opens]

/-- Whether the text of a writable expression begins with a parenthesis. -/
theorem opens_iff : (value : Expr) → value.Writable →
    (value.opens = true ↔ value.render.toList.head? = some '(')
  | .unary _ _ _, _ => by simp [opens, render]
  | .binary _ _ _ _, _ => by simp [opens, render]
  | .call callee _ _, writable => by
    have first := opens_iff callee writable.1
    obtain ⟨c, behind, text⟩ : ∃ c behind, callee.render.toList = c :: behind := by
      rcases callee.begins writable.1 with ⟨text, -⟩ | ⟨c, -, text, -⟩
      · exact ⟨_, List.head?_eq_some_iff.mp text⟩
      · exact ⟨_, List.head?_eq_some_iff.mp text⟩
    rw [opens, first]
    simp [render, text]
  | .name ident, writable => by
    obtain ⟨c, text, letter⟩ := Ident.Proper.begins writable
    simp only [opens, render, text, Bool.false_eq_true, false_iff]
    rintro ⟨⟩
    exact absurd letter (by decide)
  | .integer value _, writable => by
    obtain ⟨number, -, text⟩ := nonneg_digits writable.1
    obtain ⟨some_digit, all_digits⟩ := Parser.repr_digits number
    obtain ⟨c, behind, digits⟩ := List.exists_cons_of_ne_nil some_digit
    have digit := all_digits c (by simp [digits])
    simp only [opens, render, text, digits, List.head?_cons, Bool.false_eq_true, false_iff]
    rintro ⟨⟩
    exact absurd digit (by decide)
  | .boolean true _, _ => by simp [opens, render]
  | .boolean false _, _ => by simp [opens, render]
  | .function _ _ _, _ => by simp [opens, render]
  | .missing _, writable => absurd writable id

end Expr

namespace Stmt

/-- Merging inside of a statement does not change what it begins with. -/
@[simp]
theorem opens_merged (statement : Stmt) : statement.merged.opens = statement.opens := by
  rcases statement with ⟨_, _, _⟩ | ⟨_ | _, _⟩ | ⟨_, _⟩ | ⟨_, _, _ | _, _⟩ <;> simp [merged, opens]

/-- An expression goes on with the next statement where that begins with a parenthesis. -/
theorem merges_iff {left : Expr} {position : Position} {next : Stmt} (writable : next.Writable) :
    (Stmt.expression left position).Merges next ↔ next.opens = true := by
  cases next with
  | expression value _ => exact (value.opens_iff writable).symm
  | _ => simp [Merges, opens]

/-- A statement stays on its own in front of one that does not begin with a parenthesis. -/
theorem before_of_closed (statement : Stmt) {rest : List Stmt}
    (closed : ∀ next ∈ rest.head?, next.opens = false) :
    statement.before rest = statement :: rest := by
  cases statement with
  | expression left position =>
    rcases rest with _ | ⟨⟨_, _, _⟩ | ⟨_, _⟩ | ⟨value, other⟩ | ⟨_, _, _, _⟩, rest⟩
    · rfl
    · rfl
    · rfl
    · have plain : value.opens = false := closed _ rfl
      simp [before, plain]
    · rfl
  | _ => rfl

/-- A statement that does not go on with the next one stays on its own. -/
theorem before_apart {statement : Stmt} {rest : List Stmt} (writable : Stmt.WritableAll rest)
    (apart : ∀ next ∈ rest.head?, ¬ statement.Merges next) :
    statement.before rest = statement :: rest := by
  cases statement with
  | expression left position =>
    refine before_of_closed _ fun next found => ?_
    obtain ⟨rest, rfl⟩ := List.head?_eq_some_iff.mp found
    have merges := apart next found
    rwa [merges_iff writable.1, Bool.not_eq_true] at merges
  | _ => rfl

/-- A statement that is no expression goes on with nothing. -/
theorem before_of_other {statement : Stmt}
    (other : ∀ value position, statement ≠ .expression value position) :
    (∀ next, ¬ statement.Merges next) ∧
      ∀ rest, statement.merged.before rest = statement.merged :: rest := by
  rcases statement with ⟨_, _, _⟩ | ⟨_ | _, _⟩ | ⟨value, position⟩ | ⟨_, _, _ | _, _⟩
  · exact ⟨fun _ => id, fun _ => rfl⟩
  · exact ⟨fun _ => id, fun _ => rfl⟩
  · exact ⟨fun _ => id, fun _ => rfl⟩
  · exact absurd rfl (other value position)
  · exact ⟨fun _ => id, fun _ => rfl⟩
  · exact ⟨fun _ => id, fun _ => rfl⟩

/-- A statement that takes over others still begins as before. -/
theorem before_begins (statement : Stmt) (rest : List Stmt) :
    ∃ first behind, statement.before rest = first :: behind ∧ first.opens = statement.opens := by
  unfold before
  split
  · split
    · exact ⟨_, _, rfl, by simp [opens]⟩
    · exact ⟨_, _, rfl, rfl⟩
  · exact ⟨_, _, rfl, rfl⟩

/-- The first of merged statements begins as the first statement does. -/
theorem mergedAll_begins {statements : List Stmt}
    (closed : ∀ next ∈ statements.head?, next.opens = false) :
    ∀ next ∈ (mergedAll statements).head?, next.opens = false := by
  cases statements with
  | nil => exact nofun
  | cons statement statements =>
    obtain ⟨first, behind, same, opens⟩ :=
      statement.merged.before_begins (mergedAll statements)
    rw [mergedAll, same]
    rintro _ ⟨⟩
    rw [opens, opens_merged]
    exact closed _ rfl

/-- Of some statements, some are left when they are merged. -/
theorem mergedAll_ne_nil {statements : List Stmt} (some_statement : statements ≠ []) :
    mergedAll statements ≠ [] := by
  obtain ⟨statement, rest, rfl⟩ := List.exists_cons_of_ne_nil some_statement
  obtain ⟨first, behind, same, -⟩ := statement.merged.before_begins (mergedAll rest)
  rw [mergedAll, same]
  exact List.cons_ne_nil _ _

/-- It does not matter which two of three statements are merged first. -/
theorem before_before {left value : Expr} (opens : value.opens = true) (position other : Position)
    (rest : List Stmt) :
    (Stmt.expression left position).before ((Stmt.expression value other).before rest) =
      (Stmt.expression (left.graft value) position).before rest := by
  rcases rest with _ | ⟨⟨_, _, _⟩ | ⟨_, _⟩ | ⟨further, _⟩ | ⟨_, _, _, _⟩, rest⟩
  · simp [before, opens]
  · simp [before, opens]
  · simp [before, opens]
  · by_cases more : further.opens = true
    · simp [before, opens, more, Expr.graft_graft]
    · simp [before, opens, more]
  · simp [before, opens]

end Stmt

/-! ## Proper trees -/

mutual

/-- In a proper expression nothing is merged. -/
theorem Expr.Proper.merged_eq : (value : Expr) → value.Proper → value.merged = value
  | .name _, _ => rfl
  | .integer _ _, _ => rfl
  | .boolean _ _, _ => rfl
  | .unary _ operand _, proper => by rw [Expr.merged, Expr.Proper.merged_eq operand proper.2]
  | .binary _ left right _, proper => by
    rw [Expr.merged, Expr.Proper.merged_eq left proper.2.1,
      Expr.Proper.merged_eq right proper.2.2]
  | .call callee arguments _, proper => by
    rw [Expr.merged, Expr.Proper.merged_eq callee proper.1,
      Expr.ProperAll.mergedEach_eq arguments proper.2]
  | .function _ body _, proper => by rw [Expr.merged, Stmt.ProperAll.mergedAll_eq body proper.2]
  | .missing _, _ => rfl

/-- In proper expressions nothing is merged. -/
theorem Expr.ProperAll.mergedEach_eq : (values : List Expr) → Expr.ProperAll values →
    Expr.mergedEach values = values
  | [], _ => rfl
  | value :: values, proper => by
    rw [Expr.mergedEach, Expr.Proper.merged_eq value proper.1,
      Expr.ProperAll.mergedEach_eq values proper.2]

/-- In a proper statement nothing is merged. -/
theorem Stmt.Proper.merged_eq : (statement : Stmt) → statement.Proper →
    statement.merged = statement
  | .binding _ value _, proper => by rw [Stmt.merged, Expr.Proper.merged_eq value proper.2]
  | .result none _, _ => rfl
  | .result (some value) _, proper => by rw [Stmt.merged, Expr.Proper.merged_eq value proper]
  | .expression value _, proper => by rw [Stmt.merged, Expr.Proper.merged_eq value proper]
  | .condition test consequence none _, proper => by
    rw [Stmt.merged, Expr.Proper.merged_eq test proper.1,
      Stmt.ProperAll.mergedAll_eq consequence proper.2]
  | .condition test consequence (some alternative) _, proper => by
    rw [Stmt.merged, Expr.Proper.merged_eq test proper.1,
      Stmt.ProperAll.mergedAll_eq consequence proper.2.1,
      Stmt.ProperAll.mergedAll_eq alternative proper.2.2]

/-- Proper statements are not merged. -/
theorem Stmt.ProperAll.mergedAll_eq : (statements : List Stmt) → Stmt.ProperAll statements →
    Stmt.mergedAll statements = statements
  | [], _ => rfl
  | statement :: statements, ⟨first, apart, others⟩ => by
    rw [Stmt.mergedAll, Stmt.Proper.merged_eq statement first,
      Stmt.ProperAll.mergedAll_eq statements others]
    exact Stmt.before_apart (Stmt.MeetsAll.weaken Demands.proper_entails statements others) apart

end

end ExprLang
