import ExprLang.Proofs.Building.Basic

/-!
# Placeholders and their diagnostics

A placeholder stands in a tree only where an operand was blamed as missing. A statement with a fault
is dropped and takes its placeholders along, but their diagnostics stay, and one token can be blamed
twice: so the places of the placeholders are, in the order of the source, some of the places that
were blamed (`parse_gaps_blamed`).
-/

namespace ExprLang

/-! ## The gaps of a tree -/

mutual

/-- Where an expression has placeholders, in the order of the source. -/
def Expr.gaps : Expr → List Position
  | .name _ | .integer .. | .boolean .. => []
  | .unary _ operand _ => operand.gaps
  | .binary _ left right _ => left.gaps ++ right.gaps
  | .call callee arguments _ => callee.gaps ++ Expr.gapsAll arguments
  | .function _ body _ => Stmt.gapsAll body
  | .missing position => [position]

/-- Where expressions have placeholders, one after the other. -/
def Expr.gapsAll : List Expr → List Position
  | [] => []
  | value :: rest => value.gaps ++ Expr.gapsAll rest

/-- Where a statement has placeholders, in the order of the source. -/
def Stmt.gaps : Stmt → List Position
  | .binding _ value _ | .result (some value) _ | .expression value _ => value.gaps
  | .result none _ => []
  | .condition test consequence none _ => test.gaps ++ Stmt.gapsAll consequence
  | .condition test consequence (some alternative) _ =>
    test.gaps ++ (Stmt.gapsAll consequence ++ Stmt.gapsAll alternative)

/-- Where statements have placeholders, one after the other. -/
def Stmt.gapsAll : List Stmt → List Position
  | [] => []
  | statement :: rest => statement.gaps ++ Stmt.gapsAll rest

end

/-- Where a program has placeholders, in the order of the source. -/
def Program.gaps (program : Program) : List Position := Stmt.gapsAll program.statements

/-- The gaps of expressions behind others. -/
theorem Expr.gapsAll_append (left right : List Expr) :
    Expr.gapsAll (left ++ right) = Expr.gapsAll left ++ Expr.gapsAll right := by
  induction left with
  | nil => rfl
  | cons value left ih => simp [Expr.gapsAll, ih]

/-- The gaps of statements behind others. -/
theorem Stmt.gapsAll_append (left right : List Stmt) :
    Stmt.gapsAll (left ++ right) = Stmt.gapsAll left ++ Stmt.gapsAll right := by
  induction left with
  | nil => rfl
  | cons statement left ih => simp [Stmt.gapsAll, ih]

/-! ## What is blamed as missing -/

/-- Whether an operand is missing. -/
def Cause.isMissing : Cause → Bool
  | .missingOperand _ => true
  | _ => false

/-- Where operands are missing, in the order in which this was found. -/
def blamed (diagnostics : List Diagnostic) : List Position :=
  (diagnostics.filter (·.cause.isMissing)).map (·.position)

/-- What is blamed by diagnostics behind others. -/
theorem blamed_append (left right : List Diagnostic) :
    blamed (left ++ right) = blamed left ++ blamed right := by
  simp [blamed]

namespace Parser

/-- Gaps lie at places that are blamed on the way from one state to another, in order and each
blamed on its own account. -/
def State.Blames (before : State) (gaps : List Position) (after : State) : Prop :=
  ∃ new, after.diagnostics.toList = before.diagnostics.toList ++ new ∧ gaps.Sublist (blamed new)

namespace State.Blames

variable {before middle after : State} {gaps more : List Position}

/-- No gap needs blame. -/
theorem of_grows (grows : Grows before after) : Blames before [] after := by
  obtain ⟨new, same⟩ := grows
  exact ⟨new, same.symm, List.nil_sublist _⟩

/-- No gap lies between a state and itself. -/
theorem refl (state : State) : Blames state [] state := of_grows (.of_eq rfl)

/-- The gaps of two parts, one behind the other. -/
theorem trans (left : Blames before gaps middle) (right : Blames middle more after) :
    Blames before (gaps ++ more) after := by
  obtain ⟨near, near_same, near_sublist⟩ := left
  obtain ⟨far, far_same, far_sublist⟩ := right
  refine ⟨near ++ far, by rw [far_same, near_same, List.append_assoc], ?_⟩
  rw [blamed_append]
  exact near_sublist.append far_sublist

/-- The gap of a placeholder is blamed where it stands. -/
theorem missing {found : Lexeme} {position : Position}
    (recorded : after.diagnostics = before.diagnostics.push ⟨.missingOperand found, position⟩) :
    Blames before [position] after := by
  refine ⟨[⟨.missingOperand found, position⟩], by rw [recorded, Array.toList_push], ?_⟩
  exact List.Sublist.refl _

end State.Blames

/-- Where a part has placeholders, in the order of the source. -/
def Part.gaps : Part → List Position
  | .expression value => value.gaps
  | .arguments values => Expr.gapsAll values
  | .statement value => value.gaps
  | .block values | .statements values => Stmt.gapsAll values

/-- The gaps of what a run builds are blamed in this run. -/
theorem Builds.blames {room : Nat} {before after : State} {part : Part}
    (builds : Builds room before part after) : State.Blames before part.gaps after := by
  induction builds with
  | wider front _ behind inside =>
    have opened := (State.Blames.of_grows front).trans inside
    have whole := opened.trans (.of_grows behind)
    rwa [List.append_nil, List.nil_append] at whole
  | name | integer | boolean | noArgument | noStatement | bareResult => exact .refl _
  | missing recorded => exact .missing recorded
  | unary _ _ _ operand => exact operand
  | grouped _ inside | function _ _ _ inside | block _ inside | binding _ _ _ inside
  | result _ _ inside | expression _ _ inside => exact inside
  | binary _ _ _ _ first second | call _ _ _ first second | condition _ _ _ first second =>
    exact first.trans second
  | argument _ _ first second =>
    have both := first.trans second
    simpa [Part.gaps, Expr.gapsAll_append, Expr.gapsAll] using both
  | next _ _ first second =>
    have both := first.trans second
    simpa [Part.gaps, Stmt.gapsAll_append, Stmt.gapsAll] using both
  | alternative _ _ _ _ tested first second => exact tested.trans (first.trans second)

/-! ## The placeholders of a source -/

/-- Every placeholder has a diagnostic of its own. In the order of the source, the places of the
placeholders of a program are some of those where an operand is blamed as missing. So there is no
placeholder where there is no diagnostic. -/
theorem parse_gaps_blamed {source : String} (nonempty : source ≠ "") :
    ∃ parsed, parse source = .ok parsed ∧
      parsed.program.gaps.Sublist (blamed parsed.diagnostics) ∧
      (parsed.diagnostics = [] → parsed.program.gaps = []) := by
  have ran := parse_eq nonempty
  obtain ⟨last, builds, recorded⟩ := parse_builds nonempty ran
  obtain ⟨new, same, sublist⟩ := builds.blames
  have none_before : (State.ofText source).diagnostics = #[] := State.ofStream_diagnostics _
  rw [none_before, List.nil_append] at same
  rw [← same, ← recorded] at sublist
  refine ⟨_, ran, sublist, fun clean => ?_⟩
  rw [clean] at sublist
  exact List.sublist_nil.mp sublist

/-- A source where one token is blamed twice, in two statements that stay, and another one in a
statement that is dropped. -/
theorem parse_gaps_blamed_broken :
    "-) let y = );" ≠ "" ∧ ∃ parsed, parse "-) let y = );" = .ok parsed ∧
      parsed.program.gaps.Sublist (blamed parsed.diagnostics) ∧
      (parsed.diagnostics = [] → parsed.program.gaps = []) :=
  ⟨by decide, parse_gaps_blamed (by decide)⟩

end Parser

end ExprLang
