import ExprLang.Tree.Json
import ExprLang.Tree.Render

/-!
# Hosts

A tree is written by calls that lie in each other as its parts do, and the machine that a program
runs on has room for so many of them. A source can have a tree of any depth: the parser bounds how
deep groups and blocks nest, but not how many operations or calls follow each other. So writing a
program can break down where reading it did not. Here a program is written on a host with a bounded
room for calls; a text for which there is no room is none.

What each call takes of the room differs from machine to machine, and is a part of the host. The
same goes for what a host reports where its room ends.
-/

namespace ExprLang

/-- A breakdown of a presenter. -/
structure Breakdown where
  /-- What broke down. -/
  kind : String
  /-- What it says about it. -/
  message : String
deriving DecidableEq, Repr

/-- What calls are made for while a program is written. -/
inductive Frame where
  /-- A part that is written into the text of its node. -/
  | part
  /-- A text on its own: an item of a list, or all that a node has. -/
  | whole
  /-- The items of a list. -/
  | list
  /-- The statements between braces. -/
  | block
  /-- The digits of an integer. -/
  | digits
  /-- A JSON text. -/
  | document
  /-- An object or a list in a JSON text. -/
  | level
deriving DecidableEq, Repr

/-- A machine, as far as it bounds what a session can write. -/
structure Host where
  /-- How many calls may lie in each other while an entry is listed. -/
  places : Nat
  /-- How many calls lie in each other for one thing that is written. -/
  cost : Frame → Nat
  /-- What the host reports where there is no room for a call. -/
  overflow : Breakdown

namespace Host

/-- The usual host, with room for a thousand calls. A part takes three of them: it is formatted,
turned into a text, and written by its node. -/
def usual : Host where
  places := 1000
  cost
    | .part | .block => 3
    | .whole | .list => 2
    | .digits | .level => 1
    | .document => 4
  overflow := ⟨"RecursionError", "maximum recursion depth exceeded"⟩

/-- The places that are left inside a call, if there is room for it. -/
def enter (host : Host) (frame : Frame) (places : Nat) : Option Nat :=
  if host.cost frame ≤ places then some (places - host.cost frame) else none

/-! ## Canonical text -/

/-- The names of parameters, written one by one. -/
def names (host : Host) (places : Nat) : List Ident → Option (List String)
  | [] => some []
  | ident :: rest => do
    let _ ← host.enter .whole places
    return ident.name :: (← host.names places rest)

mutual

/-- The canonical text of an expression, if there is room to write it. -/
def expression (host : Host) (places : Nat) : Expr → Option String
  | .name ident => some ident.name
  | .integer value _ => do
    let _ ← host.enter .digits places
    return toString value
  | .boolean value _ => some (if value then "true" else "false")
  | .unary operator operand _ => do
    let inside ← host.enter .part places
    return "(" ++ operator ++ (← host.expression inside operand) ++ ")"
  | .binary operator left right _ => do
    let inside ← host.enter .part places
    return "(" ++ (← host.expression inside left) ++ " " ++ operator ++ " " ++
      (← host.expression inside right) ++ ")"
  | .call callee arguments _ => do
    let items ← host.expressions (← host.enter .list places) arguments
    let inside ← host.enter .part places
    return (← host.expression inside callee) ++ "(" ++ ", ".intercalate items ++ ")"
  | .function parameters body _ => do
    let items ← host.names (← host.enter .list places) parameters
    let statements ← host.statements (← host.enter .block places) body
    return "fn(" ++ ", ".intercalate items ++ ") " ++ renderBraced statements
  | .missing _ => some ""

/-- The canonical texts of a list of expressions. -/
def expressions (host : Host) (places : Nat) : List Expr → Option (List String)
  | [] => some []
  | value :: rest => do
    let inside ← host.enter .whole places
    return (← host.expression inside value) :: (← host.expressions places rest)

/-- The canonical text of a statement, if there is room to write it. -/
def statement (host : Host) (places : Nat) : Stmt → Option String
  | .binding target value _ => do
    let inside ← host.enter .part places
    return "let " ++ target.name ++ " = " ++ (← host.expression inside value) ++ ";"
  | .result none _ => some "return;"
  | .result (some value) _ => do
    let inside ← host.enter .part places
    return "return " ++ (← host.expression inside value) ++ ";"
  | .expression value _ => do
    let inside ← host.enter .whole places
    host.expression inside value
  | .condition test consequence none _ => do
    let inside ← host.enter .part places
    let test ← host.expression inside test
    let first ← host.statements (← host.enter .block places) consequence
    return "if (" ++ test ++ ") " ++ renderBraced first
  | .condition test consequence (some alternative) _ => do
    let inside ← host.enter .part places
    let test ← host.expression inside test
    let first ← host.statements (← host.enter .block places) consequence
    let second ← host.statements (← host.enter .block places) alternative
    return "if (" ++ test ++ ") " ++ renderBraced first ++ " else " ++ renderBraced second

/-- The canonical texts of a list of statements. -/
def statements (host : Host) (places : Nat) : List Stmt → Option (List String)
  | [] => some []
  | statement :: rest => do
    let inside ← host.enter .whole places
    return (← host.statement inside statement) :: (← host.statements places rest)

end

/-! ## JSON -/

mutual

/-- The text of a JSON value, if there is room to write it. Turning a tree into the value takes no
more room: a node becomes an object, and a list of nodes a list. -/
def value (host : Host) (indent : Option Int) (places level : Nat) : Json → Option String
  | .list items => do
    let inside ← host.enter .level places
    return Json.bracketed indent level "[" "]" (← host.items indent inside (level + 1) items)
  | .object fields => do
    let inside ← host.enter .level places
    return Json.bracketed indent level "\x7b" "\x7d"
      (← host.fields indent inside (level + 1) fields)
  | flat => some (flat.writeAt indent level)

/-- The texts of the items of a list. -/
def items (host : Host) (indent : Option Int) (places level : Nat) :
    List Json → Option (List String)
  | [] => some []
  | item :: rest =>
    return (← host.value indent places level item) :: (← host.items indent places level rest)

/-- The texts of the fields of an object. -/
def fields (host : Host) (indent : Option Int) (places level : Nat) :
    List (String × Json) → Option (List String)
  | [] => some []
  | (key, value) :: rest =>
    return (Json.quoted key ++ ": " ++ (← host.value indent places level value)) ::
      (← host.fields indent places level rest)

end

/-- The JSON text of a program, if there is room to write it. -/
def document (host : Host) (indent : Option Int) (program : Program) : Option String := do
  host.value indent (← host.enter .document host.places) 0 program.toJson

end Host

end ExprLang
