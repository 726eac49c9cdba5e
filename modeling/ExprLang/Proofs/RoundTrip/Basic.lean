import ExprLang.Proofs.Digits
import ExprLang.Proofs.Reading.Basic
import ExprLang.Tree.Render

/-!
# Trees that a source can have

Trees can hold anything: names that are no words, negative integers, unknown operators, and lists
of statements that would be read as fewer statements. The rendering of a tree is a source of this
tree only without these (`Expr.Proper`), and parsing it succeeds only up to the limit of nesting,
which the parentheses of the rendering count against (`Expr.nesting`). The lexemes of a tree are
those of its rendering.
-/

namespace ExprLang

/-- The name is a word that is not reserved. -/
def Ident.Proper (ident : Ident) : Prop :=
  ident.name ≠ "" ∧ (∀ c ∈ ident.name.toList, isLetter c = true) ∧
    ∀ entry ∈ keywords, ident.name ≠ entry.1

instance : DecidablePred Ident.Proper := fun ident =>
  decidable_of_iff (ident.name ≠ "" ∧ ident.name.toList.all isLetter = true ∧
    ∀ entry ∈ keywords, ident.name ≠ entry.1) (by rw [List.all_eq_true]; rfl)

/-- An expression on its own would go on with the next one, which begins with a parenthesis. -/
def Stmt.Merges : Stmt → Stmt → Prop
  | .expression _ _, .expression next _ => next.render.toList.head? = some '('
  | _, _ => False

/-- What is asked of a tree, besides that its names and operators are those of the language and that
nothing is missing in it. -/
structure Demands where
  /-- What is asked of an integer. -/
  integer : Int → Prop
  /-- What is asked of a statement and the next one. -/
  beside : Stmt → Stmt → Prop

/-- The integers that a source can have. -/
def Demands.shortInteger (value : Int) : Prop := 0 ≤ value ∧ (toString value).length ≤ 4300

/-- What is asked of a tree that is to be read back from its rendering. -/
def Demands.proper : Demands := ⟨shortInteger, fun statement next => ¬ statement.Merges next⟩

/-- What is asked of a tree whose rendering is to be read, whether a statement goes on with the next
one or not. -/
def Demands.writable : Demands := ⟨shortInteger, fun _ _ => True⟩

/-- What is asked of a tree that is to be known by its rendering. It can have integers that are too
long for a source. -/
def Demands.legible : Demands := ⟨fun value => 0 ≤ value, fun _ _ => True⟩

mutual

/-- The expression meets the demands. -/
def Expr.Meets (demands : Demands) : Expr → Prop
  | .name ident => ident.Proper
  | .integer value _ => demands.integer value
  | .boolean _ _ => True
  | .unary operator operand _ => operator ∈ ["-", "!"] ∧ operand.Meets demands
  | .binary operator left right _ =>
    operator ∈ ["+", "-", "*", "/", "<", ">", "==", "!="] ∧ left.Meets demands ∧
      right.Meets demands
  | .call callee arguments _ => callee.Meets demands ∧ Expr.MeetsAll demands arguments
  | .function parameters body _ =>
    (∀ parameter ∈ parameters, parameter.Proper) ∧ Stmt.MeetsAll demands body
  | .missing _ => False

/-- All expressions meet the demands. -/
def Expr.MeetsAll (demands : Demands) : List Expr → Prop
  | [] => True
  | value :: rest => value.Meets demands ∧ Expr.MeetsAll demands rest

/-- The statement meets the demands. -/
def Stmt.Meets (demands : Demands) : Stmt → Prop
  | .binding target value _ => target.Proper ∧ value.Meets demands
  | .result none _ => True
  | .result (some value) _ => value.Meets demands
  | .expression value _ => value.Meets demands
  | .condition test consequence none _ =>
    test.Meets demands ∧ Stmt.MeetsAll demands consequence
  | .condition test consequence (some alternative) _ =>
    test.Meets demands ∧ Stmt.MeetsAll demands consequence ∧ Stmt.MeetsAll demands alternative

/-- All statements meet the demands, one behind the other. -/
def Stmt.MeetsAll (demands : Demands) : List Stmt → Prop
  | [] => True
  | statement :: rest =>
    statement.Meets demands ∧ (∀ next ∈ rest.head?, demands.beside statement next) ∧
      Stmt.MeetsAll demands rest

end

/-- The expression can stand in a source. -/
abbrev Expr.Proper (value : Expr) : Prop := value.Meets .proper

/-- All expressions can stand in a source. -/
abbrev Expr.ProperAll (values : List Expr) : Prop := Expr.MeetsAll .proper values

/-- The statement can stand in a source. -/
abbrev Stmt.Proper (statement : Stmt) : Prop := statement.Meets .proper

/-- All statements can stand in a source, one behind the other. -/
abbrev Stmt.ProperAll (statements : List Stmt) : Prop := Stmt.MeetsAll .proper statements

/-- The names, integers and operators of the expression can stand in a source, and nothing is
missing in it. -/
abbrev Expr.Writable (value : Expr) : Prop := value.Meets .writable

/-- All expressions are writable. -/
abbrev Expr.WritableAll (values : List Expr) : Prop := Expr.MeetsAll .writable values

/-- The expressions and names of the statement are writable. -/
abbrev Stmt.Writable (statement : Stmt) : Prop := statement.Meets .writable

/-- All statements are writable, whether one goes on with the next or not. -/
abbrev Stmt.WritableAll (statements : List Stmt) : Prop := Stmt.MeetsAll .writable statements

/-- Demands that ask for no more than others. -/
structure Demands.Entails (strong weak : Demands) : Prop where
  /-- The integers are among theirs. -/
  integer : ∀ value, strong.integer value → weak.integer value
  /-- The neighbours are among theirs. -/
  beside : ∀ statement next, strong.beside statement next → weak.beside statement next

section

variable {strong weak : Demands}

mutual

/-- An expression that meets demands meets weaker ones. -/
theorem Expr.Meets.weaken (entails : strong.Entails weak) : (value : Expr) →
    value.Meets strong → value.Meets weak
  | .name _, meets => meets
  | .integer value _, meets => entails.integer value meets
  | .boolean _ _, meets => meets
  | .unary _ operand _, ⟨listed, meets⟩ => ⟨listed, Expr.Meets.weaken entails operand meets⟩
  | .binary _ left right _, ⟨listed, first, second⟩ =>
    ⟨listed, Expr.Meets.weaken entails left first, Expr.Meets.weaken entails right second⟩
  | .call callee arguments _, ⟨first, others⟩ =>
    ⟨Expr.Meets.weaken entails callee first, Expr.MeetsAll.weaken entails arguments others⟩
  | .function _ body _, ⟨named, meets⟩ => ⟨named, Stmt.MeetsAll.weaken entails body meets⟩
  | .missing _, meets => meets

/-- Expressions that meet demands meet weaker ones. -/
theorem Expr.MeetsAll.weaken (entails : strong.Entails weak) : (values : List Expr) →
    Expr.MeetsAll strong values → Expr.MeetsAll weak values
  | [], _ => trivial
  | value :: values, ⟨first, others⟩ =>
    ⟨Expr.Meets.weaken entails value first, Expr.MeetsAll.weaken entails values others⟩

/-- A statement that meets demands meets weaker ones. -/
theorem Stmt.Meets.weaken (entails : strong.Entails weak) : (statement : Stmt) →
    statement.Meets strong → statement.Meets weak
  | .binding _ value _, ⟨named, meets⟩ => ⟨named, Expr.Meets.weaken entails value meets⟩
  | .result none _, _ => trivial
  | .result (some value) _, meets => Expr.Meets.weaken entails value meets
  | .expression value _, meets => Expr.Meets.weaken entails value meets
  | .condition test consequence none _, ⟨meets, first⟩ =>
    ⟨Expr.Meets.weaken entails test meets, Stmt.MeetsAll.weaken entails consequence first⟩
  | .condition test consequence (some alternative) _, ⟨meets, first, second⟩ =>
    ⟨Expr.Meets.weaken entails test meets, Stmt.MeetsAll.weaken entails consequence first,
      Stmt.MeetsAll.weaken entails alternative second⟩

/-- Statements that meet demands meet weaker ones. -/
theorem Stmt.MeetsAll.weaken (entails : strong.Entails weak) : (statements : List Stmt) →
    Stmt.MeetsAll strong statements → Stmt.MeetsAll weak statements
  | [], _ => trivial
  | statement :: statements, ⟨first, beside, others⟩ =>
    ⟨Stmt.Meets.weaken entails statement first,
      fun next found => entails.beside statement next (beside next found),
      Stmt.MeetsAll.weaken entails statements others⟩

end

end

/-- Proper trees are writable. -/
theorem Demands.proper_entails : proper.Entails writable where
  integer _ short := short
  beside _ _ _ := trivial

mutual

/-- How many levels the rendering of an expression opens. Two of them are for the parentheses
around an operation and for its right operand. -/
def Expr.nesting : Expr → Nat
  | .name _ => 1
  | .integer _ _ => 1
  | .boolean _ _ => 1
  | .unary _ operand _ => 2 + operand.nesting
  | .binary _ left right _ => max (1 + left.nesting) (2 + right.nesting)
  | .call callee arguments _ => max callee.nesting (1 + Expr.nestingAll arguments)
  | .function _ body _ => 1 + (1 + Stmt.nestingAll body)
  | .missing _ => 1

/-- How many levels the renderings of expressions open, one beside the other. -/
def Expr.nestingAll : List Expr → Nat
  | [] => 0
  | value :: rest => max value.nesting (Expr.nestingAll rest)

/-- How many levels the rendering of a statement opens. -/
def Stmt.nesting : Stmt → Nat
  | .binding _ value _ => value.nesting
  | .result none _ => 0
  | .result (some value) _ => value.nesting
  | .expression value _ => value.nesting
  | .condition test consequence none _ => max test.nesting (1 + Stmt.nestingAll consequence)
  | .condition test consequence (some alternative) _ =>
    max test.nesting (max (1 + Stmt.nestingAll consequence) (1 + Stmt.nestingAll alternative))

/-- How many levels the renderings of statements open, one beside the other. -/
def Stmt.nestingAll : List Stmt → Nat
  | [] => 0
  | statement :: rest => max statement.nesting (Stmt.nestingAll rest)

end

/-! ## Lexemes of a rendering -/

/-- Groups of lexemes with commas between. -/
def Lexeme.commas : List (List Lexeme) → List Lexeme
  | [] => []
  | first :: others => first ++ others.flatMap (.ofSingle ',' :: ·)

/-- The lexemes of names with commas between. -/
def Ident.lexemesAll (idents : List Ident) : List Lexeme :=
  Lexeme.commas (idents.map fun ident => [.ofWord ident.name])

mutual

/-- The lexemes of an expression. -/
def Expr.lexemes : Expr → List Lexeme
  | .name ident => [.ofWord ident.name]
  | .integer value _ => [⟨.integer, toString value⟩]
  | .boolean value _ => [.ofWord (if value then "true" else "false")]
  | .unary operator operand _ =>
    .ofSingle '(' :: .front operator.toList :: (operand.lexemes ++ [.ofSingle ')'])
  | .binary operator left right _ =>
    .ofSingle '(' :: (left.lexemes ++ .front operator.toList :: (right.lexemes ++ [.ofSingle ')']))
  | .call callee arguments _ =>
    callee.lexemes ++
      .ofSingle '(' :: (Lexeme.commas (Expr.lexemesEach arguments) ++ [.ofSingle ')'])
  | .function parameters body _ =>
    .ofWord "fn" :: .ofSingle '(' :: (Ident.lexemesAll parameters ++
      .ofSingle ')' :: .ofSingle '{' :: (Stmt.lexemesAll body ++ [.ofSingle '}']))
  | .missing _ => []

/-- The lexemes of each of several expressions. -/
def Expr.lexemesEach : List Expr → List (List Lexeme)
  | [] => []
  | value :: rest => value.lexemes :: Expr.lexemesEach rest

/-- The lexemes of a statement. -/
def Stmt.lexemes : Stmt → List Lexeme
  | .binding target value _ =>
    .ofWord "let" :: .ofWord target.name :: .ofSingle '=' :: (value.lexemes ++ [.ofSingle ';'])
  | .result none _ => [.ofWord "return", .ofSingle ';']
  | .result (some value) _ => .ofWord "return" :: (value.lexemes ++ [.ofSingle ';'])
  | .expression value _ => value.lexemes
  | .condition test consequence none _ =>
    .ofWord "if" :: .ofSingle '(' :: (test.lexemes ++
      .ofSingle ')' :: .ofSingle '{' :: (Stmt.lexemesAll consequence ++ [.ofSingle '}']))
  | .condition test consequence (some alternative) _ =>
    .ofWord "if" :: .ofSingle '(' :: (test.lexemes ++
      .ofSingle ')' :: .ofSingle '{' :: (Stmt.lexemesAll consequence ++
        .ofSingle '}' :: .ofWord "else" :: .ofSingle '{' ::
          (Stmt.lexemesAll alternative ++ [.ofSingle '}'])))

/-- The lexemes of statements. -/
def Stmt.lexemesAll : List Stmt → List Lexeme
  | [] => []
  | statement :: rest => statement.lexemes ++ Stmt.lexemesAll rest

end

/-! ## First characters -/

/-- The lexeme of a name is an identifier. -/
theorem Ident.Proper.lexeme {ident : Ident} (proper : ident.Proper) :
    Lexeme.ofWord ident.name = ⟨.identifier, ident.name⟩ := by
  rcases Lexeme.ofWord_kind ident.name with kind | listed
  · exact congrArg (Lexeme.mk · ident.name) kind
  · exact absurd rfl (proper.2.2 _ listed)

/-- A name begins with a letter. -/
theorem Ident.Proper.begins {ident : Ident} (proper : ident.Proper) :
    ∃ c, ident.name.toList.head? = some c ∧ isLetter c = true := by
  cases found : ident.name.toList with
  | nil => exact absurd (String.toList_eq_nil_iff.mp found) proper.1
  | cons c behind => exact ⟨c, rfl, proper.2.1 c (by simp [found])⟩

/-- A number that is not negative is written with digits. -/
theorem nonneg_digits {value : Int} (nonneg : 0 ≤ value) :
    ∃ number : Nat, value = number ∧ toString value = number.repr := by
  obtain ⟨number, rfl⟩ := Int.eq_ofNat_of_zero_le nonneg
  exact ⟨number, rfl, rfl⟩

/-- What the rendering of an expression begins with: a parenthesis, or the first character of a
word or a number. The first lexeme tells which. -/
def Expr.Begins (value : Expr) : Prop :=
  (value.render.toList.head? = some '(' ∧ value.lexemes.head? = some (.ofSingle '(')) ∨
    ∃ c lexeme, value.render.toList.head? = some c ∧ value.lexemes.head? = some lexeme ∧
      (isLetter c = true ∨ isDigit c = true) ∧ lexeme.kind.startsOperand = true ∧
      lexeme.kind ≠ .leftParen ∧ lexeme.kind ≠ .minus

/-- An expression begins with a parenthesis, a word or a number. -/
theorem Expr.begins : (value : Expr) → value.Writable → value.Begins
  | .name ident, writable => by
    obtain ⟨c, text, letter⟩ := Ident.Proper.begins writable
    refine .inr ⟨c, _, text, rfl, .inl letter, ?_⟩
    rw [Ident.Proper.lexeme writable]
    exact ⟨rfl, nofun, nofun⟩
  | .integer value _, writable => by
    obtain ⟨number, -, text⟩ := nonneg_digits writable.1
    obtain ⟨some_digit, all_digits⟩ := Parser.repr_digits number
    obtain ⟨c, behind, digits⟩ := List.exists_cons_of_ne_nil some_digit
    refine .inr ⟨c, _, ?_, rfl, .inr (all_digits c (by simp [digits])), rfl, nofun, nofun⟩
    rw [Expr.render, text, digits]
    rfl
  | .boolean true _, _ =>
    .inr ⟨'t', _, by simp [Expr.render], rfl, by decide, by decide, by decide, by decide⟩
  | .boolean false _, _ =>
    .inr ⟨'f', _, by simp [Expr.render], rfl, by decide, by decide, by decide, by decide⟩
  | .unary _ _ _, _ => .inl ⟨by simp [Expr.render], rfl⟩
  | .binary _ _ _ _, _ => .inl ⟨by simp [Expr.render], rfl⟩
  | .call callee _ _, writable => by
    rcases Expr.begins callee writable.1 with ⟨rendered, lexemes⟩ |
      ⟨c, lexeme, rendered, lexemes, plain⟩
    · exact .inl ⟨by simp [Expr.render, rendered], by simp [Expr.lexemes, lexemes]⟩
    · exact .inr ⟨c, lexeme, by simp [Expr.render, rendered], by simp [Expr.lexemes, lexemes],
        plain⟩
  | .function _ _ _, _ =>
    .inr ⟨'f', _, by simp [Expr.render], rfl, by decide, by decide, by decide, by decide⟩

end ExprLang
