import ExprLang.Proofs.JsonText.Reader
import ExprLang.Tree.Json

/-!
# Reading trees from JSON

A program is read from JSON from the inside out: when the parts of an object are read, its kind and
the names of its fields say which node it is (`Decoded.ofNode?`). Reading undoes writing, with all
positions and for every indent (`Program.ofJsonText?_jsonText`), so that programs that differ
anywhere have different JSON texts.
-/

namespace ExprLang

/-- What a JSON value in a tree stands for. -/
inductive Decoded where
  /-- An absent part. -/
  | nothing
  /-- A truth value. -/
  | truth (value : Bool)
  /-- An integer or a coordinate. -/
  | number (value : Int)
  /-- A name, an operator or a kind. -/
  | text (value : String)
  /-- Several parts. -/
  | list (pieces : List Decoded)
  /-- A name at its place. -/
  | ident (value : Ident)
  /-- An expression that is no name. -/
  | expression (value : Expr)
  /-- A statement. -/
  | statement (value : Stmt)
  /-- A program. -/
  | program (value : Program)

namespace Decoded

/-- The name that a part is. -/
def ident? : Decoded → Option Ident
  | .ident value => some value
  | _ => none

/-- The expression that a part is. -/
def expression? : Decoded → Option Expr
  | .ident value => some (.name value)
  | .expression value => some value
  | _ => none

/-- The statement that a part is. -/
def statement? : Decoded → Option Stmt
  | .statement value => some value
  | _ => none

/-- The expressions that a part is made of. -/
def expressions? : Decoded → Option (List Expr)
  | .list pieces => pieces.mapM expression?
  | _ => none

/-- The names that a part is made of. -/
def idents? : Decoded → Option (List Ident)
  | .list pieces => pieces.mapM ident?
  | _ => none

/-- The statements that a part is made of. -/
def statements? : Decoded → Option (List Stmt)
  | .list pieces => pieces.mapM statement?
  | _ => none

/-- The value of the end of a function, which can be absent. -/
def outcome? : Decoded → Option (Option Expr)
  | .nothing => some none
  | piece => piece.expression?.map some

/-- The second branch of a condition, which can be absent. -/
def alternative? : Decoded → Option (Option (List Stmt))
  | .nothing => some none
  | piece => piece.statements?.map some

/-- The node of a kind with the parts in some fields, at a place. -/
def ofParts? (kind : String) (position : Position) (parts : List (String × Decoded)) :
    Option Decoded :=
  match kind, parts with
  | "identifier", [("name", .text name)] => some (.ident ⟨name, position⟩)
  | "integer", [("value", .number value)] => some (.expression (.integer value position))
  | "boolean", [("value", .truth value)] => some (.expression (.boolean value position))
  | "prefix", [("operator", .text operator), ("operand", operand)] => do
    some (.expression (.unary operator (← operand.expression?) position))
  | "infix", [("operator", .text operator), ("left", left), ("right", right)] => do
    some (.expression (.binary operator (← left.expression?) (← right.expression?) position))
  | "call", [("callee", callee), ("arguments", arguments)] => do
    some (.expression (.call (← callee.expression?) (← arguments.expressions?) position))
  | "function", [("parameters", parameters), ("body", body)] => do
    some (.expression (.function (← parameters.idents?) (← body.statements?) position))
  | "empty", [] => some (.expression (.missing position))
  | "let", [("identifier", target), ("expression", value)] => do
    some (.statement (.binding (← target.ident?) (← value.expression?) position))
  | "return", [("expression", value)] => do
    some (.statement (.result (← value.outcome?) position))
  | "expression", [("expression", value)] => do
    some (.statement (.expression (← value.expression?) position))
  | "if", [("condition", test), ("consequence", consequence), ("alternative", alternative)] => do
    some (.statement (.condition (← test.expression?) (← consequence.statements?)
      (← alternative.alternative?) position))
  | _, _ => none

/-- The place that the last two fields of a node name, and the fields in front of them. -/
def splitPosition? : List (String × Decoded) → Option (List (String × Decoded) × Position)
  | [("line", .number line), ("col", .number column)] => some ([], ⟨line, column⟩)
  | field :: fields =>
    (splitPosition? fields).map fun (parts, position) => (field :: parts, position)
  | [] => none

/-- The program that the fields of an object are. -/
def ofProgram? : List (String × Decoded) → Option Decoded
  | [("statements", statements)] => do some (.program ⟨← statements.statements?⟩)
  | _ => none

/-- The node that the fields of an object are. A program has no place. -/
def ofFields? : List (String × Decoded) → Option Decoded
  | ("kind", .text kind) :: fields =>
    if kind = "program" then ofProgram? fields
    else (splitPosition? fields).bind fun (parts, position) => ofParts? kind position parts
  | _ => none

end Decoded

mutual

/-- What a JSON value stands for. -/
def Json.decoded? : Json → Option Decoded
  | .null => some .nothing
  | .bool value => some (.truth value)
  | .number value => some (.number value)
  | .text value => some (.text value)
  | .list items => (Json.decodedAll? items).map .list
  | .object fields => (Json.decodedFields? fields).bind Decoded.ofFields?

/-- What the items of a list stand for. -/
def Json.decodedAll? : List Json → Option (List Decoded)
  | [] => some []
  | item :: items => do some ((← item.decoded?) :: (← Json.decodedAll? items))

/-- What the fields of an object stand for. -/
def Json.decodedFields? : List (String × Json) → Option (List (String × Decoded))
  | [] => some []
  | (key, value) :: fields => do some ((key, ← value.decoded?) :: (← Json.decodedFields? fields))

end

/-- The program that a JSON text writes. -/
def Program.ofJsonText? (text : String) : Option Program :=
  match (Json.read? text).bind Json.decoded? with
  | some (.program program) => some program
  | _ => none

/-! ## Reading back -/

/-- The place of a node is read behind its parts. -/
theorem Decoded.splitPosition?_append (parts : List (String × Decoded)) (position : Position) :
    splitPosition? (parts ++ [("line", .number position.line), ("col", .number position.column)]) =
      some (parts, position) := by
  induction parts with
  | nil => rfl
  | cons part parts ih =>
    have longer : ∀ line column, part = ("line", .number line) →
        parts ++ [("line", .number position.line), ("col", .number position.column)] ≠
          [("col", .number column)] := by
      intro line column _ same
      have lengths := congrArg List.length same
      rw [List.length_append] at lengths
      simp at lengths
    rw [List.cons_append, splitPosition?, ih]
    · rfl
    · exact longer

/-- Fields behind each other stand for the pieces of both. -/
theorem Json.decodedFields?_append {fields others : List (String × Json)}
    {pieces more : List (String × Decoded)} (first : decodedFields? fields = some pieces)
    (second : decodedFields? others = some more) :
    decodedFields? (fields ++ others) = some (pieces ++ more) := by
  induction fields generalizing pieces with
  | nil =>
    obtain rfl : [] = pieces := Option.some.inj first
    exact second
  | cons field fields ih =>
    obtain ⟨key, value⟩ := field
    cases read : value.decoded? with
    | none => simp [decodedFields?, read] at first
    | some piece =>
      cases others_read : decodedFields? fields with
      | none => simp [decodedFields?, read, others_read] at first
      | some others_pieces =>
        obtain rfl : (key, piece) :: others_pieces = pieces := by
          simpa [decodedFields?, read, others_read] using first
        simp [decodedFields?, read, ih others_read]

/-- The object of a node stands for the node with what its parts stand for. -/
theorem Json.decoded?_ofNode {kind : String} (other : kind ≠ "program")
    {parts : List (String × Json)} {pieces : List (String × Decoded)}
    (read : decodedFields? parts = some pieces) (position : Position) :
    (Json.ofNode kind parts position).decoded? = Decoded.ofParts? kind position pieces := by
  have place : decodedFields? [("line", .number position.line), ("col", .number position.column)] =
      some [("line", .number position.line), ("col", .number position.column)] := rfl
  have fields : decodedFields? (("kind", .text kind) :: (parts ++
      [("line", .number position.line), ("col", .number position.column)])) =
        some (("kind", .text kind) :: (pieces ++
          [("line", .number position.line), ("col", .number position.column)])) := by
    simp [decodedFields?, decoded?, decodedFields?_append read place]
  rw [ofNode, decoded?, List.cons_append, fields, Option.bind_some, Decoded.ofFields?, if_neg other,
    Decoded.splitPosition?_append]
  rfl

/-- A name is read back. -/
theorem Ident.decoded?_toJson (ident : Ident) : ident.toJson.decoded? = some (.ident ident) := by
  rw [Ident.toJson, Json.decoded?_ofNode (by decide) (show Json.decodedFields? _ = some _ from rfl)]
  rfl

/-- Names are read back. -/
theorem Ident.decodedAll?_toJson (idents : List Ident) :
    ∃ pieces, Json.decodedAll? (idents.map Ident.toJson) = some pieces ∧
      pieces.mapM Decoded.ident? = some idents := by
  induction idents with
  | nil => exact ⟨[], rfl, rfl⟩
  | cons ident idents ih =>
    obtain ⟨pieces, read, parts⟩ := ih
    refine ⟨.ident ident :: pieces, ?_, ?_⟩
    · simp [Json.decodedAll?, ident.decoded?_toJson, read]
    · simp [Decoded.ident?, parts]

/-- An expression as an outcome. -/
theorem Decoded.outcome?_of_expression {piece : Decoded} {value : Expr}
    (read : piece.expression? = some value) : piece.outcome? = some (some value) := by
  cases piece with
  | ident => cases read; rfl
  | expression => cases read; rfl
  | _ => cases read

mutual

/-- An expression is read back. -/
theorem Expr.decoded?_toJson : (value : Expr) →
    ∃ piece, value.toJson.decoded? = some piece ∧ piece.expression? = some value
  | .name ident => ⟨.ident ident, ident.decoded?_toJson, rfl⟩
  | .integer value position => by
    refine ⟨.expression (.integer value position), ?_, rfl⟩
    rw [Expr.toJson,
      Json.decoded?_ofNode (by decide) (show Json.decodedFields? _ = some _ from rfl)]
    rfl
  | .boolean value position => by
    refine ⟨.expression (.boolean value position), ?_, rfl⟩
    rw [Expr.toJson,
      Json.decoded?_ofNode (by decide) (show Json.decodedFields? _ = some _ from rfl)]
    rfl
  | .unary operator operand position => by
    obtain ⟨piece, read, part⟩ := Expr.decoded?_toJson operand
    have fields : Json.decodedFields? [("operator", .text operator), ("operand", operand.toJson)] =
        some [("operator", .text operator), ("operand", piece)] := by
      simp [Json.decodedFields?, Json.decoded?, read]
    refine ⟨.expression (.unary operator operand position), ?_, rfl⟩
    rw [Expr.toJson, Json.decoded?_ofNode (by decide) fields, Decoded.ofParts?, part]
    rfl
  | .binary operator left right position => by
    obtain ⟨first, read_first, part_first⟩ := Expr.decoded?_toJson left
    obtain ⟨second, read_second, part_second⟩ := Expr.decoded?_toJson right
    have fields : Json.decodedFields? [("operator", .text operator), ("left", left.toJson),
          ("right", right.toJson)] =
        some [("operator", .text operator), ("left", first), ("right", second)] := by
      simp [Json.decodedFields?, Json.decoded?, read_first, read_second]
    refine ⟨.expression (.binary operator left right position), ?_, rfl⟩
    rw [Expr.toJson, Json.decoded?_ofNode (by decide) fields, Decoded.ofParts?, part_first,
      part_second]
    rfl
  | .call callee arguments position => by
    obtain ⟨first, read_first, part_first⟩ := Expr.decoded?_toJson callee
    obtain ⟨pieces, read_others, parts⟩ := Expr.decodedAll?_toJsonAll arguments
    have fields : Json.decodedFields? [("callee", callee.toJson),
          ("arguments", .list (Expr.toJsonAll arguments))] =
        some [("callee", first), ("arguments", .list pieces)] := by
      simp [Json.decodedFields?, Json.decoded?, read_first, read_others]
    refine ⟨.expression (.call callee arguments position), ?_, rfl⟩
    rw [Expr.toJson, Json.decoded?_ofNode (by decide) fields, Decoded.ofParts?, part_first,
      Decoded.expressions?, parts]
    rfl
  | .function parameters body position => by
    obtain ⟨names, read_names, parts_names⟩ := Ident.decodedAll?_toJson parameters
    obtain ⟨pieces, read_body, parts_body⟩ := Stmt.decodedAll?_toJsonAll body
    have fields : Json.decodedFields? [("parameters", .list (parameters.map Ident.toJson)),
          ("body", .list (Stmt.toJsonAll body))] =
        some [("parameters", .list names), ("body", .list pieces)] := by
      simp [Json.decodedFields?, Json.decoded?, read_names, read_body]
    refine ⟨.expression (.function parameters body position), ?_, rfl⟩
    rw [Expr.toJson, Json.decoded?_ofNode (by decide) fields, Decoded.ofParts?, Decoded.idents?,
      parts_names, Decoded.statements?, parts_body]
    rfl
  | .missing position => by
    refine ⟨.expression (.missing position), ?_, rfl⟩
    rw [Expr.toJson,
      Json.decoded?_ofNode (by decide) (show Json.decodedFields? [] = some [] from rfl)]
    rfl

/-- Expressions are read back. -/
theorem Expr.decodedAll?_toJsonAll : (values : List Expr) →
    ∃ pieces, Json.decodedAll? (Expr.toJsonAll values) = some pieces ∧
      pieces.mapM Decoded.expression? = some values
  | [] => ⟨[], rfl, rfl⟩
  | value :: values => by
    obtain ⟨piece, read, part⟩ := Expr.decoded?_toJson value
    obtain ⟨pieces, read_others, parts⟩ := Expr.decodedAll?_toJsonAll values
    refine ⟨piece :: pieces, ?_, ?_⟩
    · simp [Expr.toJsonAll, Json.decodedAll?, read, read_others]
    · simp [part, parts]

/-- A statement is read back. -/
theorem Stmt.decoded?_toJson : (statement : Stmt) →
    statement.toJson.decoded? = some (.statement statement)
  | .binding target value position => by
    obtain ⟨piece, read, part⟩ := Expr.decoded?_toJson value
    have fields : Json.decodedFields?
          [("identifier", target.toJson), ("expression", value.toJson)] =
        some [("identifier", .ident target), ("expression", piece)] := by
      simp [Json.decodedFields?, target.decoded?_toJson, read]
    rw [Stmt.toJson, Json.decoded?_ofNode (by decide) fields, Decoded.ofParts?, part]
    rfl
  | .result none position => by
    have fields : Json.decodedFields? [("expression", .null)] =
        some [("expression", .nothing)] := rfl
    rw [Stmt.toJson, Json.decoded?_ofNode (by decide) fields]
    rfl
  | .result (some value) position => by
    obtain ⟨piece, read, part⟩ := Expr.decoded?_toJson value
    have fields : Json.decodedFields? [("expression", value.toJson)] =
        some [("expression", piece)] := by
      simp [Json.decodedFields?, read]
    rw [Stmt.toJson, Json.decoded?_ofNode (by decide) fields, Decoded.ofParts?,
      Decoded.outcome?_of_expression part]
    rfl
  | .expression value position => by
    obtain ⟨piece, read, part⟩ := Expr.decoded?_toJson value
    have fields : Json.decodedFields? [("expression", value.toJson)] =
        some [("expression", piece)] := by
      simp [Json.decodedFields?, read]
    rw [Stmt.toJson, Json.decoded?_ofNode (by decide) fields, Decoded.ofParts?, part]
    rfl
  | .condition test consequence none position => by
    obtain ⟨piece, read, part⟩ := Expr.decoded?_toJson test
    obtain ⟨pieces, read_first, parts⟩ := Stmt.decodedAll?_toJsonAll consequence
    have fields : Json.decodedFields? [("condition", test.toJson),
          ("consequence", .list (Stmt.toJsonAll consequence)), ("alternative", .null)] =
        some [("condition", piece), ("consequence", .list pieces), ("alternative", .nothing)] := by
      simp [Json.decodedFields?, Json.decoded?, read, read_first]
    rw [Stmt.toJson, Json.decoded?_ofNode (by decide) fields, Decoded.ofParts?, part,
      Decoded.statements?, parts]
    rfl
  | .condition test consequence (some alternative) position => by
    obtain ⟨piece, read, part⟩ := Expr.decoded?_toJson test
    obtain ⟨pieces, read_first, parts⟩ := Stmt.decodedAll?_toJsonAll consequence
    obtain ⟨others, read_second, parts_second⟩ := Stmt.decodedAll?_toJsonAll alternative
    have fields : Json.decodedFields? [("condition", test.toJson),
          ("consequence", .list (Stmt.toJsonAll consequence)),
          ("alternative", .list (Stmt.toJsonAll alternative))] =
        some [("condition", piece), ("consequence", .list pieces),
          ("alternative", .list others)] := by
      simp [Json.decodedFields?, Json.decoded?, read, read_first, read_second]
    have branch : (Decoded.list others).alternative? = some (some alternative) := by
      rw [Decoded.alternative?, Decoded.statements?, parts_second, Option.map_some]
      exact nofun
    rw [Stmt.toJson, Json.decoded?_ofNode (by decide) fields, Decoded.ofParts?, part,
      Decoded.statements?, parts, branch]
    rfl

/-- Statements are read back. -/
theorem Stmt.decodedAll?_toJsonAll : (statements : List Stmt) →
    ∃ pieces, Json.decodedAll? (Stmt.toJsonAll statements) = some pieces ∧
      pieces.mapM Decoded.statement? = some statements
  | [] => ⟨[], rfl, rfl⟩
  | statement :: statements => by
    have read := Stmt.decoded?_toJson statement
    obtain ⟨pieces, read_others, parts⟩ := Stmt.decodedAll?_toJsonAll statements
    refine ⟨.statement statement :: pieces, ?_, ?_⟩
    · simp [Stmt.toJsonAll, Json.decodedAll?, read, read_others]
    · simp [Decoded.statement?, parts]

end

/-- A program is read back. -/
theorem Program.decoded?_toJson (program : Program) :
    program.toJson.decoded? = some (.program program) := by
  obtain ⟨pieces, read, parts⟩ := Stmt.decodedAll?_toJsonAll program.statements
  have fields : Json.decodedFields? [("kind", .text "program"),
        ("statements", .list (Stmt.toJsonAll program.statements))] =
      some [("kind", .text "program"), ("statements", .list pieces)] := by
    simp [Json.decodedFields?, Json.decoded?, read]
  rw [Program.toJson, Json.decoded?, fields, Option.bind_some, Decoded.ofFields?, if_pos rfl,
    Decoded.ofProgram?, Decoded.statements?, parts]
  rfl

/-- The JSON form loses nothing. One reader gives every program back from its JSON text with any
indent, positions included, so that two programs with one JSON text, whatever their indents are, are
the same in everything. -/
theorem Program.ofJsonText?_jsonText (indent : Option Int) (program : Program) :
    ofJsonText? (program.jsonText indent) = some program ∧
      ∀ indent' other, other.jsonText indent' = program.jsonText indent → other = program := by
  have reads : ∀ indent (program : Program),
      ofJsonText? (program.jsonText indent) = some program := by
    intro indent program
    rw [ofJsonText?, jsonText, Json.read?_write, Option.bind_some, Program.decoded?_toJson]
  refine ⟨reads indent program, ?_⟩
  intro indent' other same
  have read := reads indent' other
  rw [same, reads indent program] at read
  exact (Option.some.inj read).symm

end ExprLang
