import ExprLang.Host
import ExprLang.Session.Basic
import ExprLang.Tree.Same

/-!
# Room for calls

How many calls lie in each other while a tree is written can be told from the tree
(`Stmt.reach`, `Json.reach`), and so it is known on each host which programs it has room for: those
are listed as they are rendered, and no others (`Host.list_of_fits`, `Host.list_of_cut`). Where a
tree stands in its source does not matter for the room.
-/

namespace ExprLang

mutual

/-- How many calls lie in each other inside the call that writes an expression. -/
def Expr.reach (host : Host) : Expr → Nat
  | .name _ => 0
  | .integer _ _ => host.cost .digits
  | .boolean _ _ => 0
  | .unary _ operand _ => host.cost .part + operand.reach host
  | .binary _ left right _ => host.cost .part + max (left.reach host) (right.reach host)
  | .call callee arguments _ =>
    max (host.cost .list + Expr.reachAll host arguments) (host.cost .part + callee.reach host)
  | .function parameters body _ =>
    max (host.cost .list + if parameters = [] then 0 else host.cost .whole)
      (host.cost .block + Stmt.reachAll host body)
  | .missing _ => 0

/-- How many calls lie in each other while expressions are written one by one. -/
def Expr.reachAll (host : Host) : List Expr → Nat
  | [] => 0
  | value :: rest => max (host.cost .whole + value.reach host) (Expr.reachAll host rest)

/-- How many calls lie in each other inside the call that writes a statement. -/
def Stmt.reach (host : Host) : Stmt → Nat
  | .binding _ value _ => host.cost .part + value.reach host
  | .result none _ => 0
  | .result (some value) _ => host.cost .part + value.reach host
  | .expression value _ => host.cost .whole + value.reach host
  | .condition test consequence none _ =>
    max (host.cost .part + test.reach host) (host.cost .block + Stmt.reachAll host consequence)
  | .condition test consequence (some alternative) _ =>
    max (host.cost .part + test.reach host) (max (host.cost .block + Stmt.reachAll host consequence)
      (host.cost .block + Stmt.reachAll host alternative))

/-- How many calls lie in each other while statements are written one by one. -/
def Stmt.reachAll (host : Host) : List Stmt → Nat
  | [] => 0
  | statement :: rest => max (host.cost .whole + statement.reach host) (Stmt.reachAll host rest)

end

mutual

/-- How many calls lie in each other while a JSON value is written. -/
def Json.reach (host : Host) : Json → Nat
  | .list items => host.cost .level + Json.reachItems host items
  | .object fields => host.cost .level + Json.reachFields host fields
  | _ => 0

/-- How many calls lie in each other while items are written one by one. -/
def Json.reachItems (host : Host) : List Json → Nat
  | [] => 0
  | item :: rest => max (item.reach host) (Json.reachItems host rest)

/-- How many calls lie in each other while fields are written one by one. -/
def Json.reachFields (host : Host) : List (String × Json) → Nat
  | [] => 0
  | (_, value) :: rest => max (value.reach host) (Json.reachFields host rest)

end

/-- There is room on the host for the line of the statement. -/
def Stmt.Fits (host : Host) (statement : Stmt) : Prop :=
  host.cost .part + statement.reach host ≤ host.places

instance (host : Host) : DecidablePred (Stmt.Fits host) := fun _ => Nat.decLe _ _

/-- There is room on the host for the program, as JSON or as one line for each statement. -/
def Program.Fits (host : Host) (asJson : Bool) (program : Program) : Prop :=
  if asJson then host.cost .document + program.toJson.reach host ≤ host.places
  else ∀ statement ∈ program.statements, statement.Fits host

/-- The lines of a program in a listing. -/
def programLines (asJson : Bool) (program : Program) : List String :=
  if asJson then [program.jsonText (some 2)]
  else program.statements.map fun statement =>
    "[" ++ statement.className ++ "] >>> " ++ statement.render

/-- What is listed of a program that does not fit: the statements in front of the first for which
there is no room. As JSON a program is written at once or not at all. -/
inductive Host.Cut (host : Host) (program : Program) : Bool → List Stmt → Prop where
  /-- There is no room for the JSON text. -/
  | json (exceeds : ¬ program.Fits host true) : Host.Cut host program true []
  /-- There is room for the first statements, and none for the next one. -/
  | text {first rest : List Stmt} {next : Stmt} (split : program.statements = first ++ next :: rest)
      (fits : ∀ statement ∈ first, statement.Fits host) (exceeds : ¬ next.Fits host) :
      Host.Cut host program false first

/-! ## Positions -/

mutual

/-- An expression needs the same room wherever it stands. -/
theorem Expr.reach_unplaced (host : Host) : (value : Expr) →
    value.unplaced.reach host = value.reach host
  | .name _ => rfl
  | .integer _ _ => rfl
  | .boolean _ _ => rfl
  | .unary _ operand _ => by
    rw [Expr.unplaced, Expr.reach, Expr.reach, Expr.reach_unplaced host operand]
  | .binary _ left right _ => by
    rw [Expr.unplaced, Expr.reach, Expr.reach, Expr.reach_unplaced host left,
      Expr.reach_unplaced host right]
  | .call callee arguments _ => by
    rw [Expr.unplaced, Expr.reach, Expr.reach, Expr.reach_unplaced host callee,
      Expr.reachAll_unplacedAll host arguments]
  | .function _ body _ => by
    simp only [Expr.unplaced, Expr.reach, List.map_eq_nil_iff, Stmt.reachAll_unplacedAll host body]
  | .missing _ => rfl

/-- Expressions need the same room wherever they stand. -/
theorem Expr.reachAll_unplacedAll (host : Host) : (values : List Expr) →
    Expr.reachAll host (Expr.unplacedAll values) = Expr.reachAll host values
  | [] => rfl
  | value :: rest => by
    rw [Expr.unplacedAll, Expr.reachAll, Expr.reachAll, Expr.reach_unplaced host value,
      Expr.reachAll_unplacedAll host rest]

/-- A statement needs the same room wherever it stands. -/
theorem Stmt.reach_unplaced (host : Host) : (statement : Stmt) →
    statement.unplaced.reach host = statement.reach host
  | .binding _ value _ => by
    rw [Stmt.unplaced, Stmt.reach, Stmt.reach, Expr.reach_unplaced host value]
  | .result none _ => rfl
  | .result (some value) _ => by
    rw [Stmt.unplaced, Stmt.reach, Stmt.reach, Expr.reach_unplaced host value]
  | .expression value _ => by
    rw [Stmt.unplaced, Stmt.reach, Stmt.reach, Expr.reach_unplaced host value]
  | .condition test consequence none _ => by
    rw [Stmt.unplaced, Stmt.reach, Stmt.reach, Expr.reach_unplaced host test,
      Stmt.reachAll_unplacedAll host consequence]
  | .condition test consequence (some alternative) _ => by
    rw [Stmt.unplaced, Stmt.reach, Stmt.reach, Expr.reach_unplaced host test,
      Stmt.reachAll_unplacedAll host consequence, Stmt.reachAll_unplacedAll host alternative]

/-- Statements need the same room wherever they stand. -/
theorem Stmt.reachAll_unplacedAll (host : Host) : (statements : List Stmt) →
    Stmt.reachAll host (Stmt.unplacedAll statements) = Stmt.reachAll host statements
  | [] => rfl
  | statement :: rest => by
    rw [Stmt.unplacedAll, Stmt.reachAll, Stmt.reachAll, Stmt.reach_unplaced host statement,
      Stmt.reachAll_unplacedAll host rest]

end

/-- A statement fits wherever it stands. -/
theorem Stmt.fits_unplaced {host : Host} {statement : Stmt} :
    statement.unplaced.Fits host ↔ statement.Fits host := by
  rw [Fits, Fits, reach_unplaced]

/-- Programs that differ in positions only fit the same hosts. -/
theorem Program.fits_of_unplaced {host : Host} {found values : List Stmt}
    (same : Stmt.unplacedAll found = Stmt.unplacedAll values)
    (fits : ∀ value ∈ values, value.Fits host) : ∀ value ∈ found, value.Fits host := by
  rw [Stmt.unplacedAll_eq_map, Stmt.unplacedAll_eq_map] at same
  intro value member
  obtain ⟨other, inside, alike⟩ := List.mem_map.mp (same ▸ List.mem_map_of_mem member)
  rw [← Stmt.fits_unplaced, ← alike, Stmt.fits_unplaced]
  exact fits other inside

namespace Host

section

variable {α β : Type}

/-- A text that is written where there are places enough for it. -/
def given (reach places : Nat) (text : α) : Option α := if reach ≤ places then some text else none

/-- What is made of a text needs no more room. -/
theorem given_map (reach places : Nat) (text : α) (next : α → β) :
    (given reach places text >>= fun text => pure (next text)) =
      given reach places (next text) := by
  unfold given
  split <;> rfl

/-- Two texts that are written one after the other need the room of the one that needs more. -/
theorem given_given (first second places : Nat) (text : α) (next : α → β) :
    (given first places text >>= fun text => given second places (next text)) =
      given (max first second) places (next text) := by
  have room : max first second ≤ places ↔ first ≤ places ∧ second ≤ places := Nat.max_le
  unfold given
  by_cases fits : first ≤ places
  · simp only [room, fits, true_and, if_true, Option.bind_eq_bind, Option.bind_some]
  · simp only [room, fits, false_and, if_false, Option.bind_eq_bind, Option.bind_none]

/-- A text that is written inside a call needs the room of both. -/
theorem enter_given (host : Host) (frame : Frame) (places reach : Nat) (text : α) :
    (host.enter frame places >>= fun inside => given reach inside text) =
      given (host.cost frame + reach) places text := by
  unfold enter given
  by_cases fits : host.cost frame ≤ places
  · have inside : reach ≤ places - host.cost frame ↔ host.cost frame + reach ≤ places := by omega
    simp [fits, inside]
  · have exceeds : ¬ host.cost frame + reach ≤ places := by omega
    simp [fits, exceeds]

/-- A text that is written inside a call, and what is made of it behind the call. -/
theorem enter_given_bind (host : Host) (frame : Frame) (places reach : Nat) (text : α)
    (next : α → Option β) :
    (host.enter frame places >>= fun inside => given reach inside text >>= next) =
      given (host.cost frame + reach) places text >>= next := by
  rw [← bind_assoc, enter_given]

end

/-- The room for names. -/
theorem names_eq (host : Host) (places : Nat) (idents : List Ident) :
    host.names places idents =
      given (if idents = [] then 0 else host.cost .whole) places (idents.map (·.name)) := by
  induction idents with
  | nil => rfl
  | cons ident rest ih =>
    have entered := host.enter_given_bind .whole places 0 () fun _ =>
      given (if rest = [] then 0 else host.cost .whole) places (ident.name :: rest.map (·.name))
    have room : max (host.cost .whole) (if rest = [] then 0 else host.cost .whole) =
        host.cost .whole := by split <;> simp
    rw [given_given, Nat.add_zero, room] at entered
    simp only [names, ih, given_map, List.map_cons, reduceCtorEq, if_false]
    exact entered

mutual

/-- An expression is written as it is rendered, or there is no room for it. -/
theorem expression_eq (host : Host) : (value : Expr) → (places : Nat) →
    host.expression places value = given (value.reach host) places value.render
  | .name _, _ => rfl
  | .integer value _, places => host.enter_given .digits places 0 (toString value)
  | .boolean _ _, _ => rfl
  | .unary _ operand _, _ => by
    simp only [expression, expression_eq host operand, given_map, enter_given, Expr.reach,
      Expr.render]
  | .binary _ left right _, _ => by
    simp only [expression, expression_eq host left, expression_eq host right, given_map,
      given_given, enter_given, Expr.reach, Expr.render]
  | .call callee arguments _, _ => by
    simp only [expression, expression_eq host callee, expressions_eq host arguments, given_map,
      enter_given, enter_given_bind, given_given, Expr.reach, Expr.render]
  | .function _ body _, _ => by
    simp only [expression, names_eq, statements_eq host body, given_map, enter_given,
      enter_given_bind, given_given, Expr.reach, Expr.render]
  | .missing _, _ => rfl

/-- Expressions are written as they are rendered, or there is no room for one of them. -/
theorem expressions_eq (host : Host) : (values : List Expr) → (places : Nat) →
    host.expressions places values =
      given (Expr.reachAll host values) places (Expr.renderAll values)
  | [], _ => rfl
  | value :: rest, _ => by
    simp only [expressions, expression_eq host value, expressions_eq host rest, given_map,
      given_given, enter_given_bind, Expr.reachAll, Expr.renderAll]

/-- A statement is written as it is rendered, or there is no room for it. -/
theorem statement_eq (host : Host) : (statement : Stmt) → (places : Nat) →
    host.statement places statement = given (statement.reach host) places statement.render
  | .binding _ value _, _ => by
    simp only [statement, expression_eq host value, given_map, enter_given, Stmt.reach,
      Stmt.render]
  | .result none _, _ => rfl
  | .result (some value) _, _ => by
    simp only [statement, expression_eq host value, given_map, enter_given, Stmt.reach,
      Stmt.render]
  | .expression value _, _ => by
    simp only [statement, expression_eq host value, enter_given, Stmt.reach, Stmt.render]
  | .condition test consequence none _, _ => by
    simp only [statement, expression_eq host test, statements_eq host consequence, given_map,
      enter_given, enter_given_bind, given_given, Stmt.reach, Stmt.render]
  | .condition test consequence (some alternative) _, _ => by
    simp only [statement, expression_eq host test, statements_eq host consequence,
      statements_eq host alternative, given_map, enter_given, enter_given_bind, given_given,
      Stmt.reach, Stmt.render]

/-- Statements are written as they are rendered, or there is no room for one of them. -/
theorem statements_eq (host : Host) : (statements : List Stmt) → (places : Nat) →
    host.statements places statements =
      given (Stmt.reachAll host statements) places (Stmt.renderAll statements)
  | [], _ => rfl
  | statement :: rest, _ => by
    simp only [statements, statement_eq host statement, statements_eq host rest, given_map,
      given_given, enter_given_bind, Stmt.reachAll, Stmt.renderAll]

end

mutual

/-- A JSON value is written as it is, or there is no room for it. -/
theorem value_eq (host : Host) (indent : Option Int) : (json : Json) → (places level : Nat) →
    host.value indent places level json =
      given (json.reach host) places (json.writeAt indent level)
  | .null, _, _ => rfl
  | .bool _, _, _ => rfl
  | .number _, _, _ => rfl
  | .text _, _, _ => rfl
  | .list items, _, _ => by
    simp only [value, items_eq host indent items, given_map, enter_given, Json.reach, Json.writeAt]
  | .object fields, _, _ => by
    simp only [value, fields_eq host indent fields, given_map, enter_given, Json.reach,
      Json.writeAt]

/-- Items are written as they are, or there is no room for one of them. -/
theorem items_eq (host : Host) (indent : Option Int) : (items : List Json) →
    (places level : Nat) → host.items indent places level items =
      given (Json.reachItems host items) places (Json.writeItems indent level items)
  | [], _, _ => rfl
  | item :: rest, _, _ => by
    simp only [items, value_eq host indent item, items_eq host indent rest, given_map,
      given_given, Json.reachItems, Json.writeItems]

/-- Fields are written as they are, or there is no room for one of them. -/
theorem fields_eq (host : Host) (indent : Option Int) : (fields : List (String × Json)) →
    (places level : Nat) → host.fields indent places level fields =
      given (Json.reachFields host fields) places (Json.writeFields indent level fields)
  | [], _, _ => rfl
  | (_, value) :: rest, _, _ => by
    simp only [fields, value_eq host indent value, fields_eq host indent rest, given_map,
      given_given, Json.reachFields, Json.writeFields]

end

/-! ## Lines -/

/-- A statement is listed as it is rendered, or there is no room for it. -/
theorem line_eq (host : Host) (statement : Stmt) :
    host.line statement =
      if statement.Fits host then some (statement.listed statement.render) else none := by
  have written : host.line statement = given (host.cost .part + statement.reach host) host.places
      (statement.listed statement.render) := by
    simp only [line, statement_eq, given_map, enter_given]
  exact written

/-- A program is written as its JSON text, or there is no room for it. -/
theorem document_eq (host : Host) (indent : Option Int) (program : Program) :
    host.document indent program =
      if host.cost .document + program.toJson.reach host ≤ host.places
      then some (program.jsonText indent) else none := by
  have written : host.document indent program =
      given (host.cost .document + program.toJson.reach host) host.places
        (program.jsonText indent) := by
    simp only [document, value_eq, enter_given, Program.jsonText, Json.write]
  exact written

/-- Where there is no room for a line, those in front of it are listed. -/
theorem upToOverflow_none (lines : List String) (rest : List (Option String)) :
    upToOverflow (lines.map some ++ none :: rest) = (lines, true) := by
  induction lines with
  | nil => rfl
  | cons line lines ih => rw [List.map_cons, List.cons_append, upToOverflow, ih]

/-- A program that fits is written line by line. -/
theorem lines_of_fits {host : Host} {asJson : Bool} {program : Program}
    (fits : program.Fits host asJson) :
    host.lines asJson program = (programLines asJson program).map some := by
  cases asJson with
  | true => simp [lines, programLines, document_eq, show _ ≤ host.places from fits]
  | false =>
    have each : ∀ statement ∈ program.statements, statement.Fits host := fits
    simp only [lines, programLines, Bool.false_eq_true, if_false, List.map_map]
    refine List.map_congr_left fun statement found => ?_
    rw [line_eq, if_pos (each statement found)]
    rfl

/-- A program that does not fit has statements in front of the first for which there is no room. -/
theorem cut_of_not_fits {host : Host} {asJson : Bool} {program : Program}
    (exceeds : ¬ program.Fits host asJson) : ∃ first, host.Cut program asJson first := by
  cases asJson with
  | true => exact ⟨[], .json exceeds⟩
  | false =>
    have some_over : ∃ next ∈ program.statements, ¬ next.Fits host := by
      simpa [Program.Fits] using exceeds
    have found : (program.statements.find? fun next => ¬ next.Fits host).isSome = true := by
      simpa using some_over
    obtain ⟨next, found⟩ := Option.isSome_iff_exists.mp found
    obtain ⟨exceeds, first, rest, split, fits⟩ := List.find?_eq_some_iff_append.mp found
    exact ⟨first, .text split (by simpa using fits) (by simpa using exceeds)⟩

/-- A program that is cut off does not fit. -/
theorem Cut.not_fits {host : Host} {asJson : Bool} {program : Program} {first : List Stmt}
    (cut : host.Cut program asJson first) : ¬ program.Fits host asJson := by
  cases cut with
  | json exceeds => exact exceeds
  | text split _ exceeds =>
    intro fits
    have each : ∀ statement ∈ program.statements, statement.Fits host := fits
    exact exceeds (each _ (by simp [split]))

/-- Of a program that does not fit the statements in front of the first for which there is no room
are listed, and then the host reports its overflow. -/
theorem list_of_cut {host : Host} {asJson : Bool} {parsed : Parsed} {first : List Stmt}
    (cut : host.Cut parsed.program asJson first) :
    host.list asJson parsed =
      ⟨⟨unlines (programLines false ⟨first⟩), parsed.events⟩, some host.overflow⟩ := by
  have lines : ∃ rest, host.lines asJson parsed.program =
      (programLines false ⟨first⟩).map some ++ none :: rest := by
    cases cut with
    | json exceeds =>
      have none_written := (host.document_eq (some 2) parsed.program).trans (if_neg exceeds)
      exact ⟨[], by simp [Host.lines, programLines, none_written]⟩
    | @text _ rest next split fits exceeds =>
      have written : host.lines false ⟨first⟩ = (programLines false ⟨first⟩).map some :=
        lines_of_fits fits
      have none_written := (host.line_eq next).trans (if_neg exceeds)
      refine ⟨rest.map host.line, ?_⟩
      rw [← written]
      simp [Host.lines, split, none_written]
  obtain ⟨rest, lines⟩ := lines
  rw [list, lines, upToOverflow_none]
  rfl

end Host

end ExprLang
