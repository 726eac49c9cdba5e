import ExprLang.Proofs.Reading.View
import ExprLang.Tree.Same

/-!
# Moved positions

A function on positions moves every value that has positions in it: tokens, trees and diagnostics
(`Movable`). A state mirrors another one when it looks at the moved tokens of the other, with the
same counters and the moved diagnostics (`State.Mirrors`). This module owns the moved values and
the steps of states that keep mirroring.
-/

namespace ExprLang

/-- Values whose positions can be moved. -/
class Movable (α : Type) where
  /-- The value with every position moved. -/
  moved : (Position → Position) → α → α

open Movable (moved)

/-! ## Moved values -/

/-- The name at the moved position. -/
def Ident.moved (move : Position → Position) (ident : Ident) : Ident :=
  ⟨ident.name, move ident.position⟩

mutual

/-- The expression with every position moved. -/
def Expr.moved (move : Position → Position) : Expr → Expr
  | .name ident => .name (ident.moved move)
  | .integer value position => .integer value (move position)
  | .boolean value position => .boolean value (move position)
  | .unary operator operand position => .unary operator (operand.moved move) (move position)
  | .binary operator left right position =>
    .binary operator (left.moved move) (right.moved move) (move position)
  | .call callee arguments position =>
    .call (callee.moved move) (Expr.movedAll move arguments) (move position)
  | .function parameters body position =>
    .function (parameters.map (Ident.moved move)) (Stmt.movedAll move body) (move position)
  | .missing position => .missing (move position)

/-- The expressions with every position moved. -/
def Expr.movedAll (move : Position → Position) : List Expr → List Expr
  | [] => []
  | value :: rest => value.moved move :: Expr.movedAll move rest

/-- The statement with every position moved. -/
def Stmt.moved (move : Position → Position) : Stmt → Stmt
  | .binding target value position =>
    .binding (target.moved move) (value.moved move) (move position)
  | .result none position => .result none (move position)
  | .result (some value) position => .result (some (value.moved move)) (move position)
  | .expression value position => .expression (value.moved move) (move position)
  | .condition test consequence none position =>
    .condition (test.moved move) (Stmt.movedAll move consequence) none (move position)
  | .condition test consequence (some alternative) position =>
    .condition (test.moved move) (Stmt.movedAll move consequence)
      (some (Stmt.movedAll move alternative)) (move position)

/-- The statements with every position moved. -/
def Stmt.movedAll (move : Position → Position) : List Stmt → List Stmt
  | [] => []
  | statement :: rest => statement.moved move :: Stmt.movedAll move rest

end

/-- Moving expressions moves each of them. -/
theorem Expr.movedAll_eq (move : Position → Position) (values : List Expr) :
    Expr.movedAll move values = values.map (Expr.moved move) := by
  induction values with
  | nil => simp [Expr.movedAll]
  | cons value rest ih => simp [Expr.movedAll, ih]

/-- Moving statements moves each of them. -/
theorem Stmt.movedAll_eq (move : Position → Position) (values : List Stmt) :
    Stmt.movedAll move values = values.map (Stmt.moved move) := by
  induction values with
  | nil => simp [Stmt.movedAll]
  | cons value rest ih => simp [Stmt.movedAll, ih]

mutual

/-- Moving an expression changes its positions only. -/
theorem Expr.unplaced_moved (move : Position → Position) : (value : Expr) →
    (value.moved move).unplaced = value.unplaced
  | .name ident => by simp [Expr.moved, Expr.unplaced, Ident.moved, Ident.unplaced]
  | .integer _ _ => by simp [Expr.moved, Expr.unplaced]
  | .boolean _ _ => by simp [Expr.moved, Expr.unplaced]
  | .unary _ operand _ => by simp [Expr.moved, Expr.unplaced, Expr.unplaced_moved move operand]
  | .binary _ left right _ => by
    simp [Expr.moved, Expr.unplaced, Expr.unplaced_moved move left, Expr.unplaced_moved move right]
  | .call callee arguments _ => by
    simp [Expr.moved, Expr.unplaced, Expr.unplaced_moved move callee,
      Expr.unplacedAll_movedAll move arguments]
  | .function parameters body _ => by
    simp [Expr.moved, Expr.unplaced, Ident.moved, Ident.unplaced,
      Stmt.unplacedAll_movedAll move body]
  | .missing _ => by simp [Expr.moved, Expr.unplaced]

/-- Moving expressions changes their positions only. -/
theorem Expr.unplacedAll_movedAll (move : Position → Position) : (values : List Expr) →
    Expr.unplacedAll (Expr.movedAll move values) = Expr.unplacedAll values
  | [] => by simp [Expr.movedAll, Expr.unplacedAll]
  | value :: rest => by
    simp [Expr.movedAll, Expr.unplacedAll, Expr.unplaced_moved move value,
      Expr.unplacedAll_movedAll move rest]

/-- Moving a statement changes its positions only. -/
theorem Stmt.unplaced_moved (move : Position → Position) : (statement : Stmt) →
    (statement.moved move).unplaced = statement.unplaced
  | .binding _ value _ => by
    simp [Stmt.moved, Stmt.unplaced, Ident.moved, Ident.unplaced, Expr.unplaced_moved move value]
  | .result none _ => by simp [Stmt.moved, Stmt.unplaced]
  | .result (some value) _ => by simp [Stmt.moved, Stmt.unplaced, Expr.unplaced_moved move value]
  | .expression value _ => by simp [Stmt.moved, Stmt.unplaced, Expr.unplaced_moved move value]
  | .condition test consequence none _ => by
    simp [Stmt.moved, Stmt.unplaced, Expr.unplaced_moved move test,
      Stmt.unplacedAll_movedAll move consequence]
  | .condition test consequence (some alternative) _ => by
    simp [Stmt.moved, Stmt.unplaced, Expr.unplaced_moved move test,
      Stmt.unplacedAll_movedAll move consequence, Stmt.unplacedAll_movedAll move alternative]

/-- Moving statements changes their positions only. -/
theorem Stmt.unplacedAll_movedAll (move : Position → Position) : (statements : List Stmt) →
    Stmt.unplacedAll (Stmt.movedAll move statements) = Stmt.unplacedAll statements
  | [] => by simp [Stmt.movedAll, Stmt.unplacedAll]
  | statement :: rest => by
    simp [Stmt.movedAll, Stmt.unplacedAll, Stmt.unplaced_moved move statement,
      Stmt.unplacedAll_movedAll move rest]

end

section

variable {α β : Type} [Movable α] [Movable β]

instance : Movable Ident := ⟨Ident.moved⟩

instance : Movable Expr := ⟨Expr.moved⟩

instance : Movable Stmt := ⟨Stmt.moved⟩

instance : Movable Token := ⟨fun move token => ⟨token.toLexeme, move token.position⟩⟩

instance : Movable Diagnostic :=
  ⟨fun move diagnostic => ⟨diagnostic.cause, move diagnostic.position⟩⟩

-- Values without a position stay as they are.
instance : Movable Unit := ⟨fun _ value => value⟩

instance : Movable Bool := ⟨fun _ value => value⟩

instance : Movable Kind := ⟨fun _ kind => kind⟩

instance : Movable Precedence := ⟨fun _ level => level⟩

instance : Movable (List α) := ⟨fun move => List.map (moved move)⟩

instance : Movable (Array α) := ⟨fun move => Array.map (moved move)⟩

instance : Movable (Option α) := ⟨fun move => Option.map (moved move)⟩

instance : Movable (α × β) := ⟨fun move pair => (moved move pair.1, moved move pair.2)⟩

end

/-- Moved tokens begin with the same kind. -/
theorem Parser.headKind_moved (move : Position → Position) (tokens : List Token) :
    Parser.headKind (tokens.map (moved move)) = Parser.headKind tokens := by
  cases tokens <;> rfl

namespace Parser.State

/-! ## Mirrored states -/

variable {move : Position → Position} {state image : State}

/-- One state mirrors another: it looks at the moved tokens, has the same counters, and has
recorded the moved diagnostics. -/
structure Mirrors (move : Position → Position) (state image : State) : Prop where
  /-- The tokens in view are moved. -/
  window : ∀ index, image.token index = moved move (state.token index)
  /-- The number of blocks around the current token is the same. -/
  depth : image.depth = state.depth
  /-- The number of constructs around the current token is the same. -/
  nesting : image.nesting = state.nesting
  /-- The diagnostics are moved. -/
  diagnostics : image.diagnostics = moved move state.diagnostics
  /-- The stream ends. -/
  ended : state.stream.ending.kind = .endOfInput
  /-- The stream of the image ends. -/
  image_ended : image.stream.ending.kind = .endOfInput

namespace Mirrors

variable (mirrors : Mirrors move state image)

include mirrors

/-- The current token is moved. -/
theorem current : image.current = moved move state.current := mirrors.window 0

/-- The next token is moved. -/
theorem peek : image.peek = moved move state.peek := mirrors.window 1

/-- The kind of the current token is the same. -/
theorem current_kind : image.current.kind = state.current.kind := by
  rw [mirrors.current]
  rfl

/-- The kind of the next token is the same. -/
theorem peek_kind : image.peek.kind = state.peek.kind := by
  rw [mirrors.peek]
  rfl

/-- Advancing keeps mirroring. -/
theorem advance : Mirrors move state.advance image.advance where
  window index := by
    rw [advance_token, advance_token]
    exact mirrors.window (index + 1)
  depth := by simpa using mirrors.depth
  nesting := by simpa using mirrors.nesting
  diagnostics := by simpa using mirrors.diagnostics
  ended := by simpa using mirrors.ended
  image_ended := by simpa using mirrors.image_ended

/-- Recording a moved diagnostic keeps mirroring. -/
theorem record (diagnostic : Diagnostic) :
    Mirrors move (state.record diagnostic) (image.record (moved move diagnostic)) where
  window index := by
    rw [token_record, token_record]
    exact mirrors.window index
  depth := mirrors.depth
  nesting := mirrors.nesting
  diagnostics := by
    have pushed : moved move (state.diagnostics.push diagnostic) =
        (moved move state.diagnostics).push (moved move diagnostic) := Array.map_push
    change image.diagnostics.push _ = _
    rw [mirrors.diagnostics]
    exact pushed.symm
  ended := mirrors.ended
  image_ended := mirrors.image_ended

/-- Noting events keeps mirroring. -/
theorem note (event other : Event) : Mirrors move (state.note event) (image.note other) where
  window index := by
    rw [token_note, token_note]
    exact mirrors.window index
  depth := mirrors.depth
  nesting := mirrors.nesting
  diagnostics := mirrors.diagnostics
  ended := mirrors.ended
  image_ended := mirrors.image_ended

/-- The counters may change alike. -/
theorem counters (depth nesting : Int) :
    Mirrors move { state with depth, nesting } { image with depth, nesting } where
  window index := by
    rw [token_counters, token_counters]
    exact mirrors.window index
  depth := rfl
  nesting := rfl
  diagnostics := mirrors.diagnostics
  ended := mirrors.ended
  image_ended := mirrors.image_ended

/-- Going back to a moved token keeps mirroring. -/
theorem stepBack {before : Token} (known : state.previous = some before)
    (image_known : image.previous = some (moved move before)) :
    Mirrors move state.stepBack image.stepBack := by
  have kept := state.stepBack_framed
  have image_kept := image.stepBack_framed
  have back := state.stepBack_token known
  have image_back := image.stepBack_token image_known
  refine ⟨fun index => ?_, ?_, ?_, ?_, ?_, ?_⟩
  · cases index with
    | zero => rw [back.1, image_back.1]
    | succ index =>
      rw [back.2, image_back.2]
      exact mirrors.window index
  · rw [image_kept.depth, kept.depth]
    exact mirrors.depth
  · rw [image_kept.nesting, kept.nesting]
    exact mirrors.nesting
  · have same : state.stepBack.diagnostics = state.diagnostics := by
      unfold State.stepBack
      rw [known]
    have image_same : image.stepBack.diagnostics = image.diagnostics := by
      unfold State.stepBack
      rw [image_known]
    rw [same, image_same]
    exact mirrors.diagnostics
  · rw [kept.ending]
    exact mirrors.ended
  · rw [image_kept.ending]
    exact mirrors.image_ended

end Mirrors

end Parser.State

end ExprLang
