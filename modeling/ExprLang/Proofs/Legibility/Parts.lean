import ExprLang.Proofs.Legibility.Basic

/-!
# The parts of a tree and their texts

How names, expressions, the arguments of a call, statements and blocks are written, each in front of
what can stand behind it in a tree. A call is the expression in front of it with one more
parenthesis behind, so an expression is taken as one that is no call with the arguments of all its
calls behind it (`Expr.applied`). Every sequence in a tree has a separator that is not taken for its
end.
-/

namespace ExprLang

/-- A text that goes on with no word, number or sign, and with no call. -/
def Shut (text : List Char) : Prop := Apart text ∧ ∀ behind, text ≠ '(' :: behind

/-- A character that shuts an expression off. -/
theorem Shut.cons {c : Char}
    (plain : (isLetter c = false ∧ isDigit c = false ∧ c ≠ '=') ∧ c ≠ '(') (rest : List Char) :
    Shut (c :: rest) := by
  refine ⟨.cons plain.1 rest, fun behind same => plain.2 ?_⟩
  exact (List.cons.inj same).1

/-! ## Calls behind an expression -/

/-- An expression with calls behind it, one on the other, each with its arguments and its place. -/
def Expr.applied (value : Expr) (groups : List (List Expr × Position)) : Expr :=
  groups.foldl (fun callee group => .call callee group.1 group.2) value

/-- Whether an expression is no call. -/
def Expr.IsHead : Expr → Prop
  | .call _ _ _ => False
  | _ => True

/-! ## The parts of a tree -/

/-- Names as they are written in a tree. -/
def Ident.script : Script Ident where
  text ident := ident.name.toList
  bare := Ident.unplaced
  legible := Ident.Proper
  ends := Apart

/-- Expressions as they are written in a tree. -/
def Expr.script : Script Expr where
  text value := value.render.toList
  bare := Expr.unplaced
  legible := Expr.Legible
  ends := Shut

/-- Expressions that are no calls, in front of calls as well. -/
def Expr.headScript : Script Expr where
  text value := value.render.toList
  bare := Expr.unplaced
  legible value := value.Legible ∧ value.IsHead
  ends := Apart

/-- The arguments of a call behind its opening parenthesis. -/
def Expr.groupScript : Script (List Expr × Position) where
  text group := Expr.script.joined [',', ' '] group.1 ++ [')']
  bare group := (group.1.map Expr.unplaced, .origin)
  legible group := ∀ value ∈ group.1, value.Legible
  ends _ := True

/-- Statements as they are written in a tree. -/
def Stmt.script : Script Stmt where
  text statement := statement.render.toList
  bare := Stmt.unplaced
  legible := Stmt.Legible
  ends rest := Shut rest ∧ ∀ behind, rest ≠ " else ".toList ++ behind

/-- Statements between braces. -/
def Stmt.blockScript : Script (List Stmt) where
  text statements := '{' :: (Stmt.script.strung [' '] statements ++ [' ', '}'])
  bare := List.map Stmt.unplaced
  legible statements := ∀ statement ∈ statements, statement.Legible
  ends _ := True

/-! ## Texts of the parts -/

/-- Texts with separators between are joined. -/
theorem Script.toList_intercalate {α : Type} (script : Script α) (separator : String)
    {text : α → String} (same : ∀ value, script.text value = (text value).toList)
    (values : List α) :
    (separator.intercalate (values.map text)).toList = script.joined separator.toList values := by
  cases values with
  | nil => simp [Script.joined]
  | cons value values =>
    rw [List.map_cons, toList_intercalate_cons, List.flatMap_map]
    simp only [Script.joined, Script.strung, same]

/-- The text of a block. -/
theorem Stmt.toList_block (statements : List Stmt) :
    (renderBraced (Stmt.renderAll statements)).toList = Stmt.blockScript.text statements := by
  rw [toList_renderBraced, Stmt.renderAll_eq_map]
  simp [Stmt.blockScript, Script.strung, Stmt.script, List.flatMap_map]

/-- The text of a call. -/
theorem Expr.toList_call (callee : Expr) (arguments : List Expr) (position : Position) :
    (Expr.call callee arguments position).render.toList =
      callee.render.toList ++ '(' :: Expr.groupScript.text (arguments, position) := by
  have inside := Expr.script.toList_intercalate ", " (fun _ => rfl) arguments
  simp only [Expr.render, String.toList_append, Expr.renderAll_eq_map, inside, Expr.groupScript]
  simp

/-- The text of an expression with calls behind it. -/
theorem Expr.toList_applied (value : Expr) (groups : List (List Expr × Position)) :
    (value.applied groups).render.toList =
      value.render.toList ++ Expr.groupScript.strung ['('] groups := by
  induction groups generalizing value with
  | nil => simp [Expr.applied, Script.strung]
  | cons group groups ih =>
    have onward := ih (.call value group.1 group.2)
    rw [Expr.toList_call] at onward
    simpa [Expr.applied, Script.strung] using onward

/-- Calls behind an expression lose their positions one by one. -/
theorem Expr.unplaced_applied (value : Expr) (groups : List (List Expr × Position)) :
    (value.applied groups).unplaced =
      value.unplaced.applied (groups.map Expr.groupScript.bare) := by
  induction groups generalizing value with
  | nil => rfl
  | cons group groups ih =>
    have onward := ih (.call value group.1 group.2)
    rw [Expr.unplaced, Expr.unplacedAll_eq_map] at onward
    exact onward

/-- Every expression is one that is no call, with calls behind it. -/
theorem Expr.exists_applied : (value : Expr) → value.Legible →
    ∃ head groups, Expr.headScript.legible head ∧
      (∀ group ∈ groups, Expr.groupScript.legible group) ∧ value = head.applied groups
  | .call callee arguments position, ⟨legible, legible_arguments⟩ => by
    obtain ⟨head, groups, legible_head, legible_groups, same⟩ :=
      Expr.exists_applied callee legible
    refine ⟨head, groups ++ [(arguments, position)], legible_head, ?_, ?_⟩
    · intro group found
      rcases List.mem_append.mp found with inside | last
      · exact legible_groups group inside
      · obtain rfl := List.mem_singleton.mp last
        exact Expr.legibleAll_iff.mp legible_arguments
    · rw [same]
      simp [Expr.applied]
  | .name ident, legible => ⟨_, [], ⟨legible, trivial⟩, nofun, rfl⟩
  | .integer _ _, legible => ⟨_, [], ⟨legible, trivial⟩, nofun, rfl⟩
  | .boolean _ _, legible => ⟨_, [], ⟨legible, trivial⟩, nofun, rfl⟩
  | .unary _ _ _, legible => ⟨_, [], ⟨legible, trivial⟩, nofun, rfl⟩
  | .binary _ _ _ _, legible => ⟨_, [], ⟨legible, trivial⟩, nofun, rfl⟩
  | .function _ _ _, legible => ⟨_, [], ⟨legible, trivial⟩, nofun, rfl⟩
  | .missing _, legible => absurd legible id

/-! ## Sequences -/

/-- A text does not begin with a sign of a kind that its first lexeme cannot have. -/
theorem Lexeme.text_ne_sign {text : List Char} {kinds : List Kind}
    (first : (front text).kind ∈ kinds) {c : Char}
    (sign : ((singleSigns.lookup c).isSome = true ∧ c ≠ '=' ∧ c ≠ '!') ∧
      (ofSingle c).kind ∉ kinds) (behind : List Char) : text ≠ c :: behind := by
  intro same
  rw [same, front_plain sign.1] at first
  exact sign.2 first

/-- The first lexeme of a legible expression has a kind that expressions begin with. -/
theorem Expr.front_kind {value : Expr} (legible : value.Legible) {rest : List Char}
    (apart : Apart rest) : (Lexeme.front (value.render.toList ++ rest)).kind ∈ Expr.leads := by
  rw [value.front_text legible apart]
  exact value.lead_kind legible

/-- The first lexeme of a legible statement has a kind that statements begin with. -/
theorem Stmt.front_kind {statement : Stmt} (legible : statement.Legible) {rest : List Char}
    (apart : Apart rest) :
    (Lexeme.front (statement.render.toList ++ rest)).kind ∈ Stmt.leads := by
  rw [Stmt.front_text legible apart]
  exact Stmt.lead_kind legible

/-- What closes parentheses. -/
def EndsGroup (rest : List Char) : Prop := ∃ behind, rest = ')' :: behind

/-- Names with commas between. -/
theorem Ident.strings : Ident.script.Strings [',', ' '] EndsGroup where
  apart := by
    rintro ident _ rest _ ⟨behind, same⟩
    cases same
  follows := by
    rintro idents _ rest ⟨behind, rfl⟩
    cases idents with
    | nil => exact .cons (by decide) behind
    | cons ident idents => exact .cons (by decide) _

/-- Expressions with commas between. -/
theorem Expr.strings : Expr.script.Strings [',', ' '] EndsGroup where
  apart := by
    rintro value _ rest _ ⟨behind, same⟩
    cases same
  follows := by
    rintro values _ rest ⟨behind, rfl⟩
    cases values with
    | nil => exact .cons (by decide) behind
    | cons value values => exact .cons (by decide) _

/-- Arguments of calls behind opening parentheses. -/
theorem Expr.groupStrings : Expr.groupScript.Strings ['('] Shut where
  apart _ _ _ _ shut := shut.2 _ rfl
  follows _ _ _ _ := trivial

/-- A blank or a line break in front of a statement begins no other branch of a condition. -/
theorem Stmt.not_else {statement : Stmt} (legible : statement.Legible) {rest : List Char}
    (apart : Apart rest) (c : Char) (behind : List Char) :
    c :: (statement.render.toList ++ rest) ≠ " else ".toList ++ behind := by
  intro same
  have text : statement.render.toList ++ rest = "else".toList ++ ' ' :: behind :=
    (List.cons.inj same).2
  have kind := Stmt.front_kind legible apart
  rw [text, Lexeme.front_keyword (show ("else", Kind.elseWord) ∈ keywords by decide)
    (.cons (by decide) behind)] at kind
  exact absurd kind (by decide)

/-- Statements may stand behind a statement after a blank or a line break. -/
theorem Stmt.follows {c : Char} (blank : c = ' ' ∨ c = '\n') (statements : List Stmt)
    (legible : ∀ statement ∈ statements, statement.Legible) (rest : List Char)
    (ended : Stmt.script.ends rest) :
    Stmt.script.ends (Stmt.script.strung [c] statements ++ rest) := by
  induction statements with
  | nil => exact ended
  | cons statement statements ih =>
    obtain ⟨first, behind⟩ := List.forall_mem_cons.mp legible
    have apart := (ih behind).1.1
    rw [Script.strung_cons]
    refine ⟨.cons ?_ _, Stmt.not_else first apart c⟩
    rcases blank with rfl | rfl <;> decide

/-- Statements behind blanks. -/
theorem Stmt.blockStrings :
    Stmt.script.Strings [' '] fun rest => ∃ behind, rest = ' ' :: '}' :: behind where
  apart := by
    rintro statement legible rest ended ⟨behind, same⟩
    have first := Stmt.front_kind legible ended.1.1
    exact Lexeme.text_ne_sign first (by decide) behind (List.cons.inj same).2
  follows := by
    rintro statements legible rest ⟨behind, rfl⟩
    refine Stmt.follows (.inl rfl) statements legible _ ⟨.cons (by decide) _, ?_⟩
    intro other same
    cases same

/-- Statements on lines of their own. -/
theorem Stmt.lineStrings : Stmt.script.Strings ['\n'] fun rest => rest = [] where
  apart _ _ _ _ := nofun
  follows := by
    rintro statements legible _ rfl
    exact Stmt.follows (.inr rfl) statements legible _ ⟨⟨nofun, nofun⟩, nofun⟩

end ExprLang
