import ExprLang.Proofs.RoundTrip.Basic
import ExprLang.Proofs.Spelling
import Mathlib.Data.List.Forall2

/-!
# Rendered lexemes

The rendering of a tree spells the lexemes of the tree: no two neighbours in it read as one
lexeme (`Expr.writes`). Every piece of a rendering is taken in front of an arbitrary text that
does not go on with a word, a number or an equality sign.
-/

namespace ExprLang

/-! ## Trees -/

/-- A separator keeps what is behind a list of texts apart. -/
theorem Apart.separated {separator : List Char} {rest : List Char} (first : Apart separator)
    (some_character : separator ≠ []) (apart : Apart rest) (texts : List String) :
    Apart (texts.flatMap (fun text => separator ++ text.toList) ++ rest) := by
  cases texts with
  | nil => exact apart
  | cons text texts =>
    obtain ⟨c, behind, rfl⟩ := List.exists_cons_of_ne_nil some_character
    exact .cons (first c rfl) _

/-- Texts with a separator between them are the first one and the others behind separators. -/
theorem toList_intercalate_cons (separator text : String) (texts : List String) :
    (separator.intercalate (text :: texts)).toList =
      text.toList ++ texts.flatMap (fun text => separator.toList ++ text.toList) := by
  induction texts generalizing text with
  | nil => simp
  | cons next texts ih =>
    rw [String.intercalate_cons_cons, String.toList_append, String.toList_append, ih next]
    simp

/-- Statements between braces stand behind spaces. -/
theorem toList_renderBraced (texts : List String) :
    (renderBraced texts).toList =
      '{' :: (texts.flatMap (fun text => " ".toList ++ text.toList) ++ [' ', '}']) := by
  cases texts with
  | nil => simp [renderBraced]
  | cons text texts =>
    simp only [renderBraced, String.toList_append, toList_intercalate_cons]
    simp

/-- Statements that are spelled behind spaces are spelled between braces. -/
theorem Spells.braced {texts : List String} {lexemes : List Lexeme}
    (inside : ∀ {rest : List Char} {more : List Lexeme}, Apart rest → Spells rest more →
      Spells (texts.flatMap (fun text => " ".toList ++ text.toList) ++ rest) (lexemes ++ more))
    {rest : List Char} {more : List Lexeme} (behind : Spells rest more) :
    Spells ((renderBraced texts).toList ++ rest)
      (.ofSingle '{' :: (lexemes ++ .ofSingle '}' :: more)) := by
  have text : (renderBraced texts).toList ++ rest =
      '{' :: (texts.flatMap (fun text => " ".toList ++ text.toList) ++ ' ' :: '}' :: rest) := by
    rw [toList_renderBraced]
    simp
  have closed : Spells (' ' :: '}' :: rest) (.ofSingle '}' :: more) :=
    .space (.sign (by decide) behind)
  rw [text]
  exact .sign (by decide) (inside (.cons (by decide) _) closed)

/-- A text writes some lexemes in front of every text that is kept apart. -/
def Writes (text : String) (lexemes : List Lexeme) : Prop :=
  ∀ {rest : List Char} {more : List Lexeme}, Apart rest → Spells rest more →
    Spells (text.toList ++ rest) (lexemes ++ more)

/-- Texts behind commas write their lexemes behind commas. -/
theorem Writes.more {texts : List String} {groups : List (List Lexeme)}
    (each : List.Forall₂ Writes texts groups) {rest : List Char} {more : List Lexeme}
    (apart : Apart rest) (behind : Spells rest more) :
    Spells (texts.flatMap (fun text => ", ".toList ++ text.toList) ++ rest)
      (groups.flatMap (.ofSingle ',' :: ·) ++ more) := by
  induction each with
  | nil => exact behind
  | @cons text lexemes texts groups writes _ ih =>
    have separated : Apart (texts.flatMap (fun text => ", ".toList ++ text.toList) ++ rest) :=
      .separated (.cons (by decide) _) (by decide) apart _
    have whole : Spells (',' :: ' ' :: (text.toList ++
        (texts.flatMap (fun text => ", ".toList ++ text.toList) ++ rest))) _ :=
      .sign (by decide) (.space (writes separated ih))
    simpa using whole

/-- Texts with commas between write their lexemes with commas between. -/
theorem Writes.commas {texts : List String} {groups : List (List Lexeme)}
    (each : List.Forall₂ Writes texts groups) :
    Writes (", ".intercalate texts) (Lexeme.commas groups) := by
  intro rest more apart behind
  cases each with
  | nil => simpa [Lexeme.commas] using behind
  | @cons text lexemes texts groups writes others =>
    have separated : Apart (texts.flatMap (fun text => ", ".toList ++ text.toList) ++ rest) :=
      .separated (.cons (by decide) _) (by decide) apart _
    rw [toList_intercalate_cons, Lexeme.commas, List.append_assoc, List.append_assoc]
    exact writes separated (Writes.more others apart behind)

/-- The text of a name writes its lexeme. -/
theorem Ident.Proper.writes {ident : Ident} (proper : ident.Proper) :
    Writes ident.name [.ofWord ident.name] :=
  fun apart behind => .word proper.1 proper.2.1 apart behind

/-- Names with commas between are spelled. -/
theorem Ident.writesAll {idents : List Ident} (proper : ∀ ident ∈ idents, ident.Proper) :
    Writes (", ".intercalate (idents.map (·.name))) (Ident.lexemesAll idents) := by
  refine Writes.commas ?_
  rw [List.forall₂_map_left_iff, List.forall₂_map_right_iff, List.forall₂_same]
  exact fun ident found => (proper ident found).writes

/-- The rendering of an expression does not go on with a sign. -/
theorem Expr.render_head {value : Expr} (writable : value.Writable) (rest : List Char) :
    ∀ c ∈ (value.render.toList ++ rest).head?, c ≠ '=' := by
  rcases value.begins writable with ⟨rendered, -⟩ | ⟨first, _, rendered, -, plain, -⟩
  · rw [List.head?_append, rendered]
    rintro _ ⟨⟩
    decide
  · rw [List.head?_append, rendered]
    rintro _ ⟨⟩ rfl
    exact absurd plain (by decide)

mutual

/-- The rendering of an expression writes its lexemes. -/
theorem Expr.writes : (value : Expr) → value.Writable → Writes value.render value.lexemes
  | .name ident, writable, _, _, apart, behind => by
    have named : ident.Proper := writable
    exact .word named.1 named.2.1 apart behind
  | .integer value _, writable, _, _, apart, behind => by
    obtain ⟨number, -, text⟩ := nonneg_digits writable.1
    obtain ⟨some_digit, all_digits⟩ := Parser.repr_digits number
    rw [Expr.render, Expr.lexemes, text]
    exact .number some_digit all_digits apart behind
  | .boolean true _, _, _, _, apart, behind => by
    rw [Expr.render, if_pos rfl]
    exact .reserved (by decide) apart behind
  | .boolean false _, _, _, _, apart, behind => by
    rw [Expr.render, if_neg Bool.false_ne_true]
    exact .reserved (by decide) apart behind
  | .unary operator operand position, ⟨listed, writable⟩, rest, more, apart, behind => by
    have text : (Expr.unary operator operand position).render.toList ++ rest =
        '(' :: (operator.toList ++ (operand.render.toList ++ ')' :: rest)) := by
      simp [Expr.render]
    have lexemes : (Expr.unary operator operand position).lexemes ++ more = .ofSingle '(' ::
        .front operator.toList :: (operand.lexemes ++ .ofSingle ')' :: more) := by
      simp [Expr.lexemes]
    have closed : Spells (')' :: rest) (.ofSingle ')' :: more) := .sign (by decide) behind
    have inside := Expr.writes operand writable (.cons (by decide) _) closed
    have signed := Spells.operator (.inl listed) (operand.render_head writable _) inside
    rw [text, lexemes]
    exact .sign (by decide) signed
  | .binary operator left right position, ⟨listed, writable_left, writable_right⟩, rest, more,
      apart, behind => by
    have text : (Expr.binary operator left right position).render.toList ++ rest =
        '(' :: (left.render.toList ++ ' ' :: (operator.toList ++
          ' ' :: (right.render.toList ++ ')' :: rest))) := by
      simp [Expr.render]
    have lexemes : (Expr.binary operator left right position).lexemes ++ more = .ofSingle '(' ::
        (left.lexemes ++ .front operator.toList :: (right.lexemes ++ .ofSingle ')' :: more)) := by
      simp [Expr.lexemes]
    have closed : Spells (')' :: rest) (.ofSingle ')' :: more) := .sign (by decide) behind
    have second := Expr.writes right writable_right (.cons (by decide) _) closed
    have space : ∀ c ∈ (' ' :: (right.render.toList ++ ')' :: rest)).head?, c ≠ '=' := by
      rintro _ ⟨⟩
      decide
    have operation := Spells.operator (.inr listed) space (.space second)
    have first := Expr.writes left writable_left (.cons (by decide) _) (.space operation)
    rw [text, lexemes]
    exact .sign (by decide) first
  | .call callee arguments position, ⟨writable_callee, writable⟩, rest, more, apart, behind => by
    have text : (Expr.call callee arguments position).render.toList ++ rest =
        callee.render.toList ++ '(' :: ((", ".intercalate (Expr.renderAll arguments)).toList ++
          ')' :: rest) := by
      simp [Expr.render]
    have lexemes : (Expr.call callee arguments position).lexemes ++ more = callee.lexemes ++
        .ofSingle '(' :: (Lexeme.commas (Expr.lexemesEach arguments) ++ .ofSingle ')' :: more) := by
      simp [Expr.lexemes]
    have closed : Spells (')' :: rest) (.ofSingle ')' :: more) := .sign (by decide) behind
    have inside := Writes.commas (Expr.writesEach arguments writable) (.cons (by decide) _) closed
    have opened : Spells ('(' :: ((", ".intercalate (Expr.renderAll arguments)).toList ++
        ')' :: rest)) _ := .sign (by decide) inside
    rw [text, lexemes]
    exact Expr.writes callee writable_callee (.cons (by decide) _) opened
  | .function parameters body position, ⟨named, writable⟩, rest, more, apart, behind => by
    have text : (Expr.function parameters body position).render.toList ++ rest =
        "fn".toList ++ '(' :: ((", ".intercalate (parameters.map (·.name))).toList ++
          ')' :: ' ' :: ((renderBraced (Stmt.renderAll body)).toList ++ rest)) := by
      simp [Expr.render]
    have lexemes : (Expr.function parameters body position).lexemes ++ more = .ofWord "fn" ::
        .ofSingle '(' :: (Ident.lexemesAll parameters ++ .ofSingle ')' :: (.ofSingle '{' ::
          (Stmt.lexemesAll body ++ .ofSingle '}' :: more))) := by
      simp [Expr.lexemes]
    have block := Spells.braced (Stmt.writesAll body writable (.inl rfl)) behind
    have closed : Spells (')' :: ' ' :: ((renderBraced (Stmt.renderAll body)).toList ++ rest)) _ :=
      .sign (by decide) (.space block)
    have names := Ident.writesAll named (.cons (by decide) _) closed
    rw [text, lexemes]
    exact .reserved (by decide) (.cons (by decide) _) (.sign (by decide) names)
  | .missing _, writable, _, _, _, _ => absurd writable id

/-- The rendering of each of several expressions writes its lexemes. -/
theorem Expr.writesEach : (values : List Expr) → Expr.WritableAll values →
    List.Forall₂ Writes (Expr.renderAll values) (Expr.lexemesEach values)
  | [], _ => .nil
  | value :: values, ⟨first, others⟩ =>
    .cons (Expr.writes value first) (Expr.writesEach values others)

/-- The rendering of a statement writes its lexemes. -/
theorem Stmt.writes : (statement : Stmt) → statement.Writable →
    Writes statement.render statement.lexemes
  | .binding target value position, ⟨named, writable⟩, rest, more, apart, behind => by
    have text : (Stmt.binding target value position).render.toList ++ rest =
        "let".toList ++ ' ' :: (target.name.toList ++ ' ' :: '=' :: ' ' ::
          (value.render.toList ++ ';' :: rest)) := by
      simp [Stmt.render]
    have lexemes : (Stmt.binding target value position).lexemes ++ more = .ofWord "let" ::
        .ofWord target.name :: .ofSingle '=' :: (value.lexemes ++ .ofSingle ';' :: more) := by
      simp [Stmt.lexemes]
    have closed : Spells (';' :: rest) (.ofSingle ';' :: more) := .sign (by decide) behind
    have inside := Expr.writes value writable (.cons (by decide) _) closed
    have bound : Spells (target.name.toList ++ ' ' :: '=' :: ' ' ::
        (value.render.toList ++ ';' :: rest)) _ :=
      .word named.1 named.2.1 (.cons (by decide) _) (.space (.assign (.space inside)))
    rw [text, lexemes]
    exact .reserved (by decide) (.cons (by decide) _) (.space bound)
  | .result none position, _, rest, more, apart, behind => by
    have text : (Stmt.result none position).render.toList ++ rest =
        "return".toList ++ ';' :: rest := by
      simp [Stmt.render]
    rw [text]
    exact .reserved (by decide) (.cons (by decide) _) (.sign (by decide) behind)
  | .result (some value) position, writable, rest, more, apart, behind => by
    have text : (Stmt.result (some value) position).render.toList ++ rest =
        "return".toList ++ ' ' :: (value.render.toList ++ ';' :: rest) := by
      simp [Stmt.render]
    have lexemes : (Stmt.result (some value) position).lexemes ++ more =
        .ofWord "return" :: (value.lexemes ++ .ofSingle ';' :: more) := by
      simp [Stmt.lexemes]
    have closed : Spells (';' :: rest) (.ofSingle ';' :: more) := .sign (by decide) behind
    have inside := Expr.writes value writable (.cons (by decide) _) closed
    rw [text, lexemes]
    exact .reserved (by decide) (.cons (by decide) _) (.space inside)
  | .expression value _, writable, _, _, apart, behind => Expr.writes value writable apart behind
  | .condition test consequence none position, ⟨writable, writable_first⟩, rest, more, apart,
      behind => by
    have text : (Stmt.condition test consequence none position).render.toList ++ rest =
        "if".toList ++ ' ' :: '(' :: (test.render.toList ++ ')' :: ' ' ::
          ((renderBraced (Stmt.renderAll consequence)).toList ++ rest)) := by
      simp [Stmt.render]
    have lexemes : (Stmt.condition test consequence none position).lexemes ++ more =
        .ofWord "if" :: .ofSingle '(' :: (test.lexemes ++ .ofSingle ')' :: (.ofSingle '{' ::
          (Stmt.lexemesAll consequence ++ .ofSingle '}' :: more))) := by
      simp [Stmt.lexemes]
    have block := Spells.braced (Stmt.writesAll consequence writable_first (.inl rfl)) behind
    have closed : Spells (')' :: ' ' ::
        ((renderBraced (Stmt.renderAll consequence)).toList ++ rest)) _ :=
      .sign (by decide) (.space block)
    have tested := Expr.writes test writable (.cons (by decide) _) closed
    rw [text, lexemes]
    exact .reserved (by decide) (.cons (by decide) _) (.space (.sign (by decide) tested))
  | .condition test consequence (some alternative) position,
      ⟨writable, writable_first, writable_second⟩, rest, more, apart, behind => by
    have text : (Stmt.condition test consequence (some alternative) position).render.toList ++
        rest = "if".toList ++ ' ' :: '(' :: (test.render.toList ++ ')' :: ' ' ::
          ((renderBraced (Stmt.renderAll consequence)).toList ++ ' ' :: ("else".toList ++ ' ' ::
            ((renderBraced (Stmt.renderAll alternative)).toList ++ rest)))) := by
      simp [Stmt.render]
    have lexemes : (Stmt.condition test consequence (some alternative) position).lexemes ++
        more = .ofWord "if" :: .ofSingle '(' :: (test.lexemes ++ .ofSingle ')' ::
          (.ofSingle '{' :: (Stmt.lexemesAll consequence ++ .ofSingle '}' :: (.ofWord "else" ::
            (.ofSingle '{' :: (Stmt.lexemesAll alternative ++ .ofSingle '}' :: more)))))) := by
      simp [Stmt.lexemes]
    have second := Spells.braced (Stmt.writesAll alternative writable_second (.inl rfl)) behind
    have other : Spells ("else".toList ++ ' ' ::
        ((renderBraced (Stmt.renderAll alternative)).toList ++ rest)) _ :=
      .reserved (by decide) (.cons (by decide) _) (.space second)
    have block :=
      Spells.braced (Stmt.writesAll consequence writable_first (.inl rfl)) (.space other)
    have closed : Spells (')' :: ' ' :: ((renderBraced (Stmt.renderAll consequence)).toList ++
        ' ' :: ("else".toList ++ ' ' ::
          ((renderBraced (Stmt.renderAll alternative)).toList ++ rest)))) _ :=
      .sign (by decide) (.space block)
    have tested := Expr.writes test writable (.cons (by decide) _) closed
    rw [text, lexemes]
    exact .reserved (by decide) (.cons (by decide) _) (.space (.sign (by decide) tested))

/-- The renderings of statements behind a blank or a line break each spell their lexemes. -/
theorem Stmt.writesAll : (statements : List Stmt) → Stmt.WritableAll statements →
    ∀ {separator : String}, separator = " " ∨ separator = "\n" →
    ∀ {rest : List Char} {more : List Lexeme}, Apart rest → Spells rest more →
      Spells ((Stmt.renderAll statements).flatMap (fun text => separator.toList ++ text.toList) ++
        rest) (Stmt.lexemesAll statements ++ more)
  | [], _, _, _, _, _, _, behind => behind
  | statement :: statements, ⟨first, _, others⟩, separator, blank, rest, more, apart, behind => by
    have text : (Stmt.renderAll (statement :: statements)).flatMap
        (fun text => separator.toList ++ text.toList) ++ rest = separator.toList ++
          (statement.render.toList ++ ((Stmt.renderAll statements).flatMap
            (fun text => separator.toList ++ text.toList) ++ rest)) := by
      simp [Stmt.renderAll]
    rw [text, Stmt.lexemesAll, List.append_assoc]
    have onward := Stmt.writesAll statements others blank apart behind
    rcases blank with rfl | rfl
    · exact .space (Stmt.writes statement first
        (.separated (.cons (by decide) _) (by decide) apart _) onward)
    · exact .gap (.inr (.inr rfl)) (Stmt.writes statement first
        (.separated (.cons (by decide) _) (by decide) apart _) onward)

end

end ExprLang
