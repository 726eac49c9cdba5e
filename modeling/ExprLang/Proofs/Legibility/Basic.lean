import ExprLang.Proofs.Legibility.Script

/-!
# Legible trees

A tree is legible when nothing is missing in it, its names are words that are not reserved, its
integers are not negative and its operators are those of the language. It can be as large as it
likes, with integers that are too long for a source, and statements can stand side by side that a
source would not keep apart. The text of a legible tree begins with a lexeme that shows what the
tree is (`Expr.lead`, `Stmt.lead`).
-/

namespace ExprLang

/-- The names, integers and operators of the expression are those of the language. -/
abbrev Expr.Legible (value : Expr) : Prop := value.Meets .legible

/-- All expressions are legible. -/
abbrev Expr.LegibleAll (values : List Expr) : Prop := Expr.MeetsAll .legible values

/-- The expressions and names of the statement are legible. -/
abbrev Stmt.Legible (statement : Stmt) : Prop := statement.Meets .legible

/-- All statements are legible. -/
abbrev Stmt.LegibleAll (statements : List Stmt) : Prop := Stmt.MeetsAll .legible statements

/-! ## Lists of trees -/

/-- Expressions are legible when each of them is. -/
theorem Expr.legibleAll_iff {values : List Expr} :
    Expr.LegibleAll values ↔ ∀ value ∈ values, value.Legible := by
  induction values with
  | nil => simp [Expr.MeetsAll]
  | cons value values ih => simp [Expr.MeetsAll, ih]

/-- Statements are legible when each of them is. -/
theorem Stmt.legibleAll_iff {statements : List Stmt} :
    Stmt.LegibleAll statements ↔ ∀ statement ∈ statements, statement.Legible := by
  induction statements with
  | nil => simp [Stmt.MeetsAll]
  | cons statement statements ih =>
    rw [List.forall_mem_cons, ← ih]
    exact ⟨fun meets => ⟨meets.1, meets.2.2⟩, fun each => ⟨each.1, fun _ _ => trivial, each.2⟩⟩

/-- Expressions are rendered one by one. -/
theorem Expr.renderAll_eq_map (values : List Expr) :
    Expr.renderAll values = values.map Expr.render := by
  induction values with
  | nil => rfl
  | cons value values ih => rw [Expr.renderAll, ih, List.map_cons]

/-- Statements are rendered one by one. -/
theorem Stmt.renderAll_eq_map (statements : List Stmt) :
    Stmt.renderAll statements = statements.map Stmt.render := by
  induction statements with
  | nil => rfl
  | cons statement statements ih => rw [Stmt.renderAll, ih, List.map_cons]

/-! ## First lexemes -/

/-- A text in front of which there is a reserved word. -/
theorem Lexeme.front_keyword {word : String} {kind : Kind} {rest : List Char}
    (listed : (word, kind) ∈ keywords) (apart : Apart rest) :
    front (word.toList ++ rest) = ⟨kind, word⟩ := by
  have words : ∀ entry ∈ keywords, entry.1.toList ≠ [] ∧ entry.1.toList.all isLetter = true ∧
      ofWord entry.1 = ⟨entry.2, entry.1⟩ := by decide
  obtain ⟨some_letter, letters, reserved⟩ := words _ listed
  rw [front_word some_letter (List.all_eq_true.mp letters) fun c found => (apart c found).1,
    String.ofList_toList, reserved]

/-- A text in front of which there is a sign that no sign of two characters begins with. -/
theorem Lexeme.front_plain {c : Char}
    (single : (singleSigns.lookup c).isSome = true ∧ c ≠ '=' ∧ c ≠ '!') (rest : List Char) :
    front (c :: rest) = ofSingle c :=
  front_sign single.1 rest fun double => absurd double (not_or.mpr single.2)

/-- The lexeme that the text of an expression begins with. -/
def Expr.lead : Expr → Lexeme
  | .name ident => ⟨.identifier, ident.name⟩
  | .integer value _ => ⟨.integer, toString value⟩
  | .boolean true _ => ⟨.trueWord, "true"⟩
  | .boolean false _ => ⟨.falseWord, "false"⟩
  | .unary _ _ _ => ⟨.leftParen, "("⟩
  | .binary _ _ _ _ => ⟨.leftParen, "("⟩
  | .call callee _ _ => callee.lead
  | .function _ _ _ => ⟨.functionWord, "fn"⟩
  | .missing _ => ⟨.endOfInput, ""⟩

/-- The lexeme that the text of a statement begins with. -/
def Stmt.lead : Stmt → Lexeme
  | .binding _ _ _ => ⟨.letWord, "let"⟩
  | .result _ _ => ⟨.returnWord, "return"⟩
  | .expression value _ => value.lead
  | .condition _ _ _ _ => ⟨.ifWord, "if"⟩

/-- What the texts of expressions begin with. -/
def Expr.leads : List Kind :=
  [.identifier, .integer, .trueWord, .falseWord, .leftParen, .functionWord]

/-- What the texts of statements begin with. -/
def Stmt.leads : List Kind := .letWord :: .returnWord :: .ifWord :: Expr.leads

/-- A legible expression begins with a word, a number or a parenthesis. -/
theorem Expr.lead_kind : (value : Expr) → value.Legible → value.lead.kind ∈ Expr.leads
  | .name _, _ => by simp [Expr.lead, Expr.leads]
  | .integer _ _, _ => by simp [Expr.lead, Expr.leads]
  | .boolean true _, _ => by simp [Expr.lead, Expr.leads]
  | .boolean false _, _ => by simp [Expr.lead, Expr.leads]
  | .unary _ _ _, _ => by simp [Expr.lead, Expr.leads]
  | .binary _ _ _ _, _ => by simp [Expr.lead, Expr.leads]
  | .call callee _ _, legible => Expr.lead_kind callee legible.1
  | .function _ _ _, _ => by simp [Expr.lead, Expr.leads]
  | .missing _, legible => absurd legible id

/-- A legible statement begins as an expression, or with a word of its own. -/
theorem Stmt.lead_kind {statement : Stmt} (legible : statement.Legible) :
    statement.lead.kind ∈ Stmt.leads := by
  cases statement with
  | binding => simp [Stmt.lead, Stmt.leads]
  | result => simp [Stmt.lead, Stmt.leads]
  | expression value =>
    have lead := value.lead_kind legible
    exact List.mem_append_right [.letWord, .returnWord, .ifWord] lead
  | condition => simp [Stmt.lead, Stmt.leads]

/-- The text of an expression begins with its first lexeme, whatever stands behind it. -/
theorem Expr.front_text : (value : Expr) → value.Legible → ∀ {rest : List Char}, Apart rest →
    Lexeme.front (value.render.toList ++ rest) = value.lead
  | .name ident, legible, rest, apart => by
    have proper : ident.Proper := legible
    have letters := proper.2.1
    have some_letter : ident.name.toList ≠ [] :=
      fun none_left => proper.1 (String.toList_eq_nil_iff.mp none_left)
    rw [Expr.render, Lexeme.front_word some_letter letters fun c found => (apart c found).1,
      String.ofList_toList, proper.lexeme, Expr.lead]
  | .integer value _, legible, rest, apart => by
    obtain ⟨number, -, text⟩ := nonneg_digits legible
    obtain ⟨some_digit, all_digits⟩ := Parser.repr_digits number
    rw [Expr.render, Expr.lead, text,
      Lexeme.front_number some_digit all_digits fun c found => (apart c found).2.1,
      String.ofList_toList]
  | .boolean true _, _, _, apart =>
    Lexeme.front_keyword (show ("true", Kind.trueWord) ∈ keywords by decide) apart
  | .boolean false _, _, _, apart =>
    Lexeme.front_keyword (show ("false", Kind.falseWord) ∈ keywords by decide) apart
  | .unary operator operand position, _, rest, _ => by
    have text : (Expr.unary operator operand position).render.toList ++ rest =
        '(' :: (operator.toList ++ operand.render.toList ++ ')' :: rest) := by simp [Expr.render]
    rw [text]
    exact Lexeme.front_plain (by decide) _
  | .binary operator left right position, _, rest, _ => by
    have text : (Expr.binary operator left right position).render.toList ++ rest =
        '(' :: (left.render.toList ++ " ".toList ++ operator.toList ++ " ".toList ++
          right.render.toList ++ ')' :: rest) := by simp [Expr.render]
    rw [text]
    exact Lexeme.front_plain (by decide) _
  | .call callee arguments position, legible, rest, _ => by
    have text : (Expr.call callee arguments position).render.toList ++ rest =
        callee.render.toList ++ '(' :: ((", ".intercalate (Expr.renderAll arguments)).toList ++
          ')' :: rest) := by simp [Expr.render]
    rw [text]
    exact Expr.front_text callee legible.1 (.cons (by decide) _)
  | .function parameters body position, _, rest, _ => by
    have text : (Expr.function parameters body position).render.toList ++ rest =
        "fn".toList ++ '(' :: ((", ".intercalate (parameters.map (·.name))).toList ++
          ')' :: ' ' :: ((renderBraced (Stmt.renderAll body)).toList ++ rest)) := by
      simp [Expr.render]
    rw [text]
    exact Lexeme.front_keyword (by decide) (.cons (by decide) _)
  | .missing _, legible, _, _ => absurd legible id

/-- The text of a statement begins with its first lexeme, whatever stands behind it. -/
theorem Stmt.front_text {statement : Stmt} (legible : statement.Legible) {rest : List Char}
    (apart : Apart rest) : Lexeme.front (statement.render.toList ++ rest) = statement.lead := by
  have word : ∀ {word : String} {kind : Kind} {c : Char} {behind : List Char},
      (word, kind) ∈ keywords → (isLetter c = false ∧ isDigit c = false ∧ c ≠ '=') →
      statement.render.toList ++ rest = word.toList ++ c :: behind →
      Lexeme.front (statement.render.toList ++ rest) = ⟨kind, word⟩ := by
    intro word kind c behind listed plain text
    rw [text]
    exact Lexeme.front_keyword listed (.cons plain _)
  cases statement with
  | binding target value position =>
    have text : (Stmt.binding target value position).render.toList ++ rest = "let".toList ++ ' ' ::
        (target.name.toList ++ " = ".toList ++ value.render.toList ++ ';' :: rest) := by
      simp [Stmt.render]
    exact word (by decide) (by decide) text
  | result value position =>
    cases value with
    | none =>
      have text : (Stmt.result none position).render.toList ++ rest =
          "return".toList ++ ';' :: rest := by
        simp [Stmt.render]
      exact word (by decide) (by decide) text
    | some value =>
      have text : (Stmt.result (some value) position).render.toList ++ rest =
          "return".toList ++ ' ' :: (value.render.toList ++ ';' :: rest) := by
        simp [Stmt.render]
      exact word (by decide) (by decide) text
  | expression value => exact value.front_text legible apart
  | condition test consequence alternative position =>
    have text : ∃ behind,
        (Stmt.condition test consequence alternative position).render.toList ++ rest =
          "if".toList ++ ' ' :: behind := by
      cases alternative <;> simp [Stmt.render]
    obtain ⟨behind, text⟩ := text
    exact word (by decide) (by decide) text

end ExprLang
