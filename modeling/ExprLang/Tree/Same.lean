import ExprLang.Tree.Basic

/-!
# Trees without their positions

Two trees are the same when they differ in positions only. `unplaced` moves every node to
one fixed place, `same` compares two trees node by node, and `same_iff` says that both
describe the same relation.
-/

namespace ExprLang

/-- The place of every node of an unplaced tree. -/
def Position.origin : Position := ⟨0, 0⟩

/-- The name at the fixed place. -/
def Ident.unplaced (ident : Ident) : Ident := ⟨ident.name, .origin⟩

mutual

/-- The expression with every node at the fixed place. -/
def Expr.unplaced : Expr → Expr
  | .name ident => .name ident.unplaced
  | .integer value _ => .integer value .origin
  | .boolean value _ => .boolean value .origin
  | .unary operator operand _ => .unary operator operand.unplaced .origin
  | .binary operator left right _ => .binary operator left.unplaced right.unplaced .origin
  | .call callee arguments _ => .call callee.unplaced (Expr.unplacedAll arguments) .origin
  | .function parameters body _ =>
    .function (parameters.map Ident.unplaced) (Stmt.unplacedAll body) .origin
  | .missing _ => .missing .origin

/-- The expressions with every node at the fixed place. -/
def Expr.unplacedAll : List Expr → List Expr
  | [] => []
  | value :: rest => value.unplaced :: Expr.unplacedAll rest

/-- The statement with every node at the fixed place. -/
def Stmt.unplaced : Stmt → Stmt
  | .binding target value _ => .binding target.unplaced value.unplaced .origin
  | .result none _ => .result none .origin
  | .result (some value) _ => .result (some value.unplaced) .origin
  | .expression value _ => .expression value.unplaced .origin
  | .condition test consequence none _ =>
    .condition test.unplaced (Stmt.unplacedAll consequence) none .origin
  | .condition test consequence (some alternative) _ =>
    .condition test.unplaced (Stmt.unplacedAll consequence) (some (Stmt.unplacedAll alternative))
      .origin

/-- The statements with every node at the fixed place. -/
def Stmt.unplacedAll : List Stmt → List Stmt
  | [] => []
  | statement :: rest => statement.unplaced :: Stmt.unplacedAll rest

end

/-- The program with every node at the fixed place. -/
def Program.unplaced (program : Program) : Program := ⟨Stmt.unplacedAll program.statements⟩

/-- Whether two lists of parameters have the same names. -/
def Ident.sameAll (left right : List Ident) : Bool :=
  decide (left.map Ident.unplaced = right.map Ident.unplaced)

mutual

/-- Whether two expressions differ in positions only. -/
def Expr.same : Expr → Expr → Bool
  | .name left, .name right => left.name = right.name
  | .integer left _, .integer right _ => left = right
  | .boolean left _, .boolean right _ => left = right
  | .unary operator operand _, .unary operator' operand' _ =>
    operator = operator' && operand.same operand'
  | .binary operator left right _, .binary operator' left' right' _ =>
    operator = operator' && (left.same left' && right.same right')
  | .call callee arguments _, .call callee' arguments' _ =>
    callee.same callee' && Expr.sameAll arguments arguments'
  | .function parameters body _, .function parameters' body' _ =>
    Ident.sameAll parameters parameters' && Stmt.sameAll body body'
  | .missing _, .missing _ => true
  | _, _ => false

/-- Whether two lists of expressions differ in positions only. -/
def Expr.sameAll : List Expr → List Expr → Bool
  | [], [] => true
  | value :: rest, value' :: rest' => value.same value' && Expr.sameAll rest rest'
  | _, _ => false

/-- Whether two statements differ in positions only. -/
def Stmt.same : Stmt → Stmt → Bool
  | .binding target value _, .binding target' value' _ =>
    target.name = target'.name && value.same value'
  | .result none _, .result none _ => true
  | .result (some value) _, .result (some value') _ => value.same value'
  | .expression value _, .expression value' _ => value.same value'
  | .condition test consequence none _, .condition test' consequence' none _ =>
    test.same test' && Stmt.sameAll consequence consequence'
  | .condition test consequence (some alternative) _,
      .condition test' consequence' (some alternative') _ =>
    test.same test' &&
      (Stmt.sameAll consequence consequence' && Stmt.sameAll alternative alternative')
  | _, _ => false

/-- Whether two lists of statements differ in positions only. -/
def Stmt.sameAll : List Stmt → List Stmt → Bool
  | [], [] => true
  | statement :: rest, statement' :: rest' => statement.same statement' && Stmt.sameAll rest rest'
  | _, _ => false

end

/-- Whether two programs differ in positions only. -/
def Program.same (left right : Program) : Bool := Stmt.sameAll left.statements right.statements

/-- Whether two parts of trees are of one sort and differ in positions only. -/
def Node.same : Node → Node → Bool
  | .expression left, .expression right => left.same right
  | .statement left, .statement right => left.same right
  | .program left, .program right => left.same right
  | _, _ => false

mutual

/-- The comparison of expressions ignores exactly the positions. -/
theorem Expr.same_iff : (left right : Expr) →
    (left.same right = true ↔ left.unplaced = right.unplaced)
  | .name ident, right => by
    cases right <;> simp [Expr.same, Expr.unplaced, Ident.unplaced]
  | .integer value _, right => by cases right <;> simp [Expr.same, Expr.unplaced]
  | .boolean value _, right => by cases right <;> simp [Expr.same, Expr.unplaced]
  | .unary _ operand _, right => by
    cases right <;> simp [Expr.same, Expr.unplaced, Expr.same_iff operand]
  | .binary _ first second _, right => by
    cases right <;> simp [Expr.same, Expr.unplaced, Expr.same_iff first, Expr.same_iff second]
  | .call callee arguments _, right => by
    cases right <;>
      simp [Expr.same, Expr.unplaced, Expr.same_iff callee, Expr.sameAll_iff arguments]
  | .function parameters body _, right => by
    cases right <;> simp [Expr.same, Expr.unplaced, Ident.sameAll, Stmt.sameAll_iff body]
  | .missing _, right => by cases right <;> simp [Expr.same, Expr.unplaced]

/-- The comparison of lists of expressions ignores exactly the positions. -/
theorem Expr.sameAll_iff : (left right : List Expr) →
    (Expr.sameAll left right = true ↔ Expr.unplacedAll left = Expr.unplacedAll right)
  | [], right => by cases right <;> simp [Expr.sameAll, Expr.unplacedAll]
  | value :: rest, right => by
    cases right <;>
      simp [Expr.sameAll, Expr.unplacedAll, Expr.same_iff value, Expr.sameAll_iff rest]

/-- The comparison of statements ignores exactly the positions. -/
theorem Stmt.same_iff : (left right : Stmt) →
    (left.same right = true ↔ left.unplaced = right.unplaced)
  | .binding _ value _, right => by
    rcases right with _ | ⟨_ | _, _⟩ | _ | ⟨_, _, _ | _, _⟩ <;>
      simp [Stmt.same, Stmt.unplaced, Ident.unplaced, Expr.same_iff value]
  | .result none _, right => by
    rcases right with _ | ⟨_ | _, _⟩ | _ | ⟨_, _, _ | _, _⟩ <;> simp [Stmt.same, Stmt.unplaced]
  | .result (some value) _, right => by
    rcases right with _ | ⟨_ | _, _⟩ | _ | ⟨_, _, _ | _, _⟩ <;>
      simp [Stmt.same, Stmt.unplaced, Expr.same_iff value]
  | .expression value _, right => by
    rcases right with _ | ⟨_ | _, _⟩ | _ | ⟨_, _, _ | _, _⟩ <;>
      simp [Stmt.same, Stmt.unplaced, Expr.same_iff value]
  | .condition test consequence none _, right => by
    rcases right with _ | ⟨_ | _, _⟩ | _ | ⟨_, _, _ | _, _⟩ <;>
      simp [Stmt.same, Stmt.unplaced, Expr.same_iff test, Stmt.sameAll_iff consequence]
  | .condition test consequence (some alternative) _, right => by
    rcases right with _ | ⟨_ | _, _⟩ | _ | ⟨_, _, _ | _, _⟩ <;>
      simp [Stmt.same, Stmt.unplaced, Expr.same_iff test, Stmt.sameAll_iff consequence,
        Stmt.sameAll_iff alternative]

/-- The comparison of lists of statements ignores exactly the positions. -/
theorem Stmt.sameAll_iff : (left right : List Stmt) →
    (Stmt.sameAll left right = true ↔ Stmt.unplacedAll left = Stmt.unplacedAll right)
  | [], right => by cases right <;> simp [Stmt.sameAll, Stmt.unplacedAll]
  | statement :: rest, right => by
    cases right <;>
      simp [Stmt.sameAll, Stmt.unplacedAll, Stmt.same_iff statement, Stmt.sameAll_iff rest]

end

mutual

/-- An expression without positions stays as it is. -/
theorem Expr.unplaced_unplaced : (value : Expr) → value.unplaced.unplaced = value.unplaced
  | .name ident => by simp [Expr.unplaced, Ident.unplaced]
  | .integer _ _ => by simp [Expr.unplaced]
  | .boolean _ _ => by simp [Expr.unplaced]
  | .unary _ operand _ => by simp [Expr.unplaced, Expr.unplaced_unplaced operand]
  | .binary _ left right _ => by
    simp [Expr.unplaced, Expr.unplaced_unplaced left, Expr.unplaced_unplaced right]
  | .call callee arguments _ => by
    simp [Expr.unplaced, Expr.unplaced_unplaced callee, Expr.unplacedAll_unplacedAll arguments]
  | .function parameters body _ => by
    simp [Expr.unplaced, Ident.unplaced, Stmt.unplacedAll_unplacedAll body]
  | .missing _ => by simp [Expr.unplaced]

/-- Expressions without positions stay as they are. -/
theorem Expr.unplacedAll_unplacedAll : (values : List Expr) →
    Expr.unplacedAll (Expr.unplacedAll values) = Expr.unplacedAll values
  | [] => by simp [Expr.unplacedAll]
  | value :: rest => by
    simp [Expr.unplacedAll, Expr.unplaced_unplaced value, Expr.unplacedAll_unplacedAll rest]

/-- A statement without positions stays as it is. -/
theorem Stmt.unplaced_unplaced : (statement : Stmt) →
    statement.unplaced.unplaced = statement.unplaced
  | .binding _ value _ => by
    simp [Stmt.unplaced, Ident.unplaced, Expr.unplaced_unplaced value]
  | .result none _ => by simp [Stmt.unplaced]
  | .result (some value) _ => by simp [Stmt.unplaced, Expr.unplaced_unplaced value]
  | .expression value _ => by simp [Stmt.unplaced, Expr.unplaced_unplaced value]
  | .condition test consequence none _ => by
    simp [Stmt.unplaced, Expr.unplaced_unplaced test, Stmt.unplacedAll_unplacedAll consequence]
  | .condition test consequence (some alternative) _ => by
    simp [Stmt.unplaced, Expr.unplaced_unplaced test, Stmt.unplacedAll_unplacedAll consequence,
      Stmt.unplacedAll_unplacedAll alternative]

/-- Statements without positions stay as they are. -/
theorem Stmt.unplacedAll_unplacedAll : (statements : List Stmt) →
    Stmt.unplacedAll (Stmt.unplacedAll statements) = Stmt.unplacedAll statements
  | [] => by simp [Stmt.unplacedAll]
  | statement :: rest => by
    simp [Stmt.unplacedAll, Stmt.unplaced_unplaced statement, Stmt.unplacedAll_unplacedAll rest]

end

/-- Expressions lose their positions one by one. -/
theorem Expr.unplacedAll_eq_map (values : List Expr) :
    Expr.unplacedAll values = values.map Expr.unplaced := by
  induction values with
  | nil => rfl
  | cons value values ih => rw [Expr.unplacedAll, ih, List.map_cons]

/-- Statements lose their positions one by one. -/
theorem Stmt.unplacedAll_eq_map (statements : List Stmt) :
    Stmt.unplacedAll statements = statements.map Stmt.unplaced := by
  induction statements with
  | nil => rfl
  | cons statement statements ih => rw [Stmt.unplacedAll, ih, List.map_cons]

/-- The comparison of programs ignores exactly the positions. -/
theorem Program.same_iff (left right : Program) :
    left.same right = true ↔ left.unplaced = right.unplaced := by
  simp [Program.same, Program.unplaced, Stmt.sameAll_iff]

end ExprLang
