import Mathlib.Data.List.Forall2
import ExprLang.Proofs.Progress

/-!
# Marks

Every node of a tree but a missing expression and a statement that is an expression has a mark: what
the node is, and where. In the order of the source the marks of a tree stand on tokens
(`Mark.Stands`). This module owns the marks and what it means that the marks of a part account for
the tokens which a run passes (`State.Accounts`): they stand on some of these tokens, in order.
-/

namespace ExprLang

/-! ## The marks of a tree -/

/-- What a node is, without its parts. -/
inductive Role where
  /-- A name. -/
  | name (text : String)
  /-- An integer. -/
  | integer (value : Int)
  /-- A truth value. -/
  | boolean (value : Bool)
  /-- An operator before its operand. -/
  | unary (operator : String)
  /-- An operator between its operands. -/
  | binary (operator : String)
  /-- A call. -/
  | call
  /-- A function literal. -/
  | function
  /-- A binding. -/
  | binding
  /-- The end of a function. -/
  | result
  /-- A condition. -/
  | condition

/-- A node at its place. -/
structure Mark where
  /-- What the node is. -/
  role : Role
  /-- Where the node stands. -/
  position : Position

/-- The mark of a name. -/
def Ident.mark (ident : Ident) : Mark := ⟨.name ident.name, ident.position⟩

mutual

/-- The marks of an expression in the order of the source: an operator stands between its operands,
and the parenthesis of a call behind what is called. -/
def Expr.marks : Expr → List Mark
  | .name ident => [ident.mark]
  | .integer value position => [⟨.integer value, position⟩]
  | .boolean value position => [⟨.boolean value, position⟩]
  | .unary operator operand position => ⟨.unary operator, position⟩ :: operand.marks
  | .binary operator left right position =>
    left.marks ++ ⟨.binary operator, position⟩ :: right.marks
  | .call callee arguments position =>
    callee.marks ++ ⟨.call, position⟩ :: Expr.marksAll arguments
  | .function parameters body position =>
    ⟨.function, position⟩ :: (parameters.map Ident.mark ++ Stmt.marksAll body)
  | .missing _ => []

/-- The marks of expressions, one after the other. -/
def Expr.marksAll : List Expr → List Mark
  | [] => []
  | value :: rest => value.marks ++ Expr.marksAll rest

/-- The marks of a statement in the order of the source. -/
def Stmt.marks : Stmt → List Mark
  | .binding target value position => ⟨.binding, position⟩ :: target.mark :: value.marks
  | .result none position => [⟨.result, position⟩]
  | .result (some value) position => ⟨.result, position⟩ :: value.marks
  | .expression value _ => value.marks
  | .condition test consequence none position =>
    ⟨.condition, position⟩ :: (test.marks ++ Stmt.marksAll consequence)
  | .condition test consequence (some alternative) position =>
    ⟨.condition, position⟩ ::
      (test.marks ++ (Stmt.marksAll consequence ++ Stmt.marksAll alternative))

/-- The marks of statements, one after the other. -/
def Stmt.marksAll : List Stmt → List Mark
  | [] => []
  | statement :: rest => statement.marks ++ Stmt.marksAll rest

end

/-- The marks of a program. -/
def Program.marks (program : Program) : List Mark := Stmt.marksAll program.statements

/-- The marks of expressions behind others. -/
theorem Expr.marksAll_append (left right : List Expr) :
    Expr.marksAll (left ++ right) = Expr.marksAll left ++ Expr.marksAll right := by
  induction left with
  | nil => rfl
  | cons value left ih => simp [Expr.marksAll, ih]

/-- The marks of statements behind others. -/
theorem Stmt.marksAll_append (left right : List Stmt) :
    Stmt.marksAll (left ++ right) = Stmt.marksAll left ++ Stmt.marksAll right := by
  induction left with
  | nil => rfl
  | cons statement left ih => simp [Stmt.marksAll, ih]

/-! ## Tokens under marks -/

/-- Whether a token of a kind is an operator between two operands. -/
def Kind.isInfix : Kind → Bool
  | .equal | .notEqual | .less | .greater | .plus | .minus | .asterisk | .slash => true
  | _ => false

/-- Only an operator between operands and the parenthesis of a call bind tighter than something. -/
theorem Kind.isInfix_of_tighter {above : Precedence} {kind : Kind} (tighter : above < .ofKind kind)
    (plain : kind ≠ .leftParen) : kind.isInfix = true := by
  cases above <;> cases kind <;> first | rfl | contradiction

/-- Whether a token of a kind is under a mark wherever it is read. -/
def Kind.isMarked : Kind → Bool
  | .identifier | .integer | .trueWord | .falseWord | .functionWord | .letWord | .returnWord
  | .ifWord | .bang => true
  | kind => kind.isInfix

/-- What a node is agrees with a lexeme. -/
def Role.Fits (lexeme : Lexeme) : Role → Prop
  | .name text => lexeme.kind = .identifier ∧ lexeme.text = text
  | .integer value =>
    lexeme.kind = .integer ∧ value = Int.ofNat (Nat.ofDigitChars 10 lexeme.text.toList 0)
  | .boolean true => lexeme.kind = .trueWord
  | .boolean false => lexeme.kind = .falseWord
  | .unary operator => (lexeme.kind = .bang ∨ lexeme.kind = .minus) ∧ lexeme.text = operator
  | .binary operator => lexeme.kind.isInfix = true ∧ lexeme.text = operator
  | .call => lexeme.kind = .leftParen
  | .function => lexeme.kind = .functionWord
  | .binding => lexeme.kind = .letWord
  | .result => lexeme.kind = .returnWord
  | .condition => lexeme.kind = .ifWord

/-- A mark stands on a token. -/
structure Mark.Stands (mark : Mark) (token : Token) : Prop where
  /-- The node agrees with the lexeme. -/
  fits : mark.role.Fits token.toLexeme
  /-- The node is where the token is. -/
  place : mark.position = token.position

/-- No mark stands on the end of input. -/
theorem Mark.Stands.solid {mark : Mark} {token : Token} (stands : mark.Stands token) :
    token.kind ≠ .endOfInput := by
  obtain ⟨role, position⟩ := mark
  have fits := stands.fits
  intro ended
  cases role with
  | boolean value => cases value <;> simp_all [Role.Fits]
  | binary operator => simp_all [Role.Fits, Kind.isInfix]
  | _ => simp_all [Role.Fits]

/-- Marks stand on some of a list of tokens, in order and each on a token of its own. -/
def Stand (marks : List Mark) (tokens : List Token) : Prop :=
  ∃ under : List Token, under.Sublist tokens ∧ List.Forall₂ Mark.Stands marks under

/-- No mark stands anywhere. -/
theorem Stand.nil (tokens : List Token) : Stand [] tokens :=
  ⟨[], List.nil_sublist tokens, .nil⟩

/-- Marks behind others stand on tokens behind others. -/
theorem Stand.append {marks more : List Mark} {tokens behind : List Token}
    (left : Stand marks tokens) (right : Stand more behind) :
    Stand (marks ++ more) (tokens ++ behind) := by
  obtain ⟨under, sublist, stands⟩ := left
  obtain ⟨further, behind_sublist, behind_stands⟩ := right
  exact ⟨under ++ further, sublist.append behind_sublist, List.rel_append stands behind_stands⟩

/-- The text of an integer is a row of digits. -/
def Token.Digital (token : Token) : Prop :=
  token.kind = .integer → token.text.toList ≠ [] ∧ ∀ c ∈ token.text.toList, isDigit c = true

namespace Parser.State

/-! ## Tokens passed -/

variable {before middle after : State} {marks more : List Mark}

/-- The tokens from one state up to another. -/
structure Spans (before : State) (tokens : List Token) (after : State) : Prop where
  /-- So many tokens are passed. -/
  passes : Passes tokens.length before after
  /-- They are the tokens in view. -/
  along : ∀ index (inside : index < tokens.length), tokens[index] = before.token index

/-- Between a state and one behind it lie tokens. -/
theorem Passes.spans {count : Nat} (passes : Passes count before after) :
    ∃ tokens, Spans before tokens after := by
  refine ⟨(List.range count).map before.token, ?_, fun index inside => by simp⟩
  rwa [List.length_map, List.length_range]

/-- Tokens passed one after the other. -/
theorem Spans.trans {near far : List Token} (left : Spans before near middle)
    (right : Spans middle far after) : Spans before (near ++ far) after := by
  refine ⟨?_, fun index inside => ?_⟩
  · rw [List.length_append]
    exact left.passes.trans right.passes
  · by_cases first : index < near.length
    · rw [List.getElem_append_left first]
      exact left.along index first
    · have second : near.length ≤ index := Nat.le_of_not_lt first
      rw [List.length_append] at inside
      rw [List.getElem_append_right second, right.along _ (by omega), left.passes]
      congr 1
      omega

/-- The marks of a part account for the tokens that a run passes: as far as integers are rows of
digits, the marks stand on some of these tokens. -/
def Accounts (before : State) (marks : List Mark) (after : State) : Prop :=
  ∃ tokens, Spans before tokens after ∧ ((∀ token ∈ tokens, token.Digital) → Stand marks tokens)

/-- No marks account for tokens that leave none. -/
theorem Reaches.accounts (reaches : Reaches before after) : Accounts before [] after := by
  obtain ⟨count, passes⟩ := reaches
  obtain ⟨tokens, spans⟩ := passes.spans
  exact ⟨tokens, spans, fun _ => .nil tokens⟩

/-- Nothing is passed between a state and itself. -/
theorem Accounts.refl (state : State) : Accounts state [] state :=
  Reaches.accounts ⟨0, .refl state⟩

/-- A token that is passed without a mark. -/
theorem Accounts.step (state : State) : Accounts state [] state.advance :=
  Reaches.accounts ⟨1, .advance state⟩

/-- A token that is passed with its mark. -/
theorem Accounts.token {state : State} {role : Role}
    (fits : state.current.Digital → role.Fits state.current.toLexeme) :
    Accounts state [⟨role, state.current.position⟩] state.advance := by
  refine ⟨[state.current], ⟨.advance state, fun index inside => ?_⟩, fun digital => ?_⟩
  · match index with
    | 0 => rfl
  · have stands : Mark.Stands ⟨role, state.current.position⟩ state.current :=
      ⟨fits (digital _ List.mem_cons_self), rfl⟩
    exact ⟨[state.current], .refl _, .cons stands .nil⟩

/-- The marks of two parts, one behind the other. -/
theorem Accounts.trans (left : Accounts before marks middle)
    (right : Accounts middle more after) : Accounts before (marks ++ more) after := by
  obtain ⟨near, spans, stand⟩ := left
  obtain ⟨far, behind_spans, behind_stand⟩ := right
  refine ⟨near ++ far, spans.trans behind_spans, fun digital => ?_⟩
  exact (stand fun token found => digital token (List.mem_append_left _ found)).append
    (behind_stand fun token found => digital token (List.mem_append_right _ found))

/-- What is passed in front of a part leaves no marks. -/
theorem Accounts.behind (reaches : Reaches before middle) (right : Accounts middle marks after) :
    Accounts before marks after := reaches.accounts.trans right

/-- What is passed behind a part leaves no marks. -/
theorem Accounts.then (left : Accounts before marks middle) (reaches : Reaches middle after) :
    Accounts before marks after := by
  have whole := left.trans reaches.accounts
  rwa [List.append_nil] at whole

end Parser.State

end ExprLang
