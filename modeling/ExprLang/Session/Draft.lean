import ExprLang.Text.Blank

/-!
# Entries

A session is typed line by line. Lines make an entry: it ends with the first line at which
the lines have no more opening than closing braces. A word of farewell ends the session, but
only where an entry would begin; inside an entry it is text like any other.
-/

namespace ExprLang

/-- What a request for a line brings. -/
inductive Input where
  /-- A line without its line break. -/
  | line (text : String)
  /-- The user breaks off. -/
  | interrupt
  /-- There are no more lines. -/
  | ended
deriving DecidableEq, Repr

/-- The words that end a session. -/
def farewells : List String := ["exit()", "exit", "quit"]

/-- How many more opening than closing braces a line has. -/
def braceBalance (line : String) : Int :=
  (line.toList.count '{' : Int) - line.toList.count '}'

/-- The lines of an entry that is not complete. -/
structure Draft where
  /-- The lines so far, in order. -/
  lines : List String
  /-- How many more opening than closing braces they have. -/
  balance : Int
deriving DecidableEq, Repr

/-- What a line does to a draft. -/
inductive DraftStep where
  /-- The line ends the session. -/
  | leave
  /-- The entry goes on. -/
  | more (draft : Draft)
  /-- The entry is complete. -/
  | entry (text : String)
deriving DecidableEq, Repr

namespace Draft

/-- The draft before the first line. -/
def empty : Draft := ⟨[], 0⟩

/-- What the user is asked with. -/
def prompt (draft : Draft) : String := if draft.lines = [] then ">>> " else "... "

/-- Add a line. -/
def add (draft : Draft) (line : String) : DraftStep :=
  if draft.lines = [] ∧ Text.trimmed line ∈ farewells then .leave
  else
    let lines := draft.lines ++ [line]
    let balance := draft.balance + braceBalance line
    if balance ≤ 0 then .entry ("\n".intercalate lines) else .more ⟨lines, balance⟩

end Draft

/-- How reading an entry ends. -/
inductive EntryEnd where
  /-- The entry is complete. -/
  | entry (text : String)
  /-- A word of farewell stands in its place. -/
  | leave
  /-- The user broke off. -/
  | interrupted
  /-- The lines ended first. -/
  | ended
deriving DecidableEq, Repr

/-- An entry read from a list of inputs. -/
structure EntryReading where
  /-- How it ended. -/
  result : EntryEnd
  /-- What the user was asked with, line by line. -/
  prompts : List String
  /-- The inputs that are left. -/
  rest : List Input
deriving Repr

/-- Complete a draft from a list of inputs. Behind the list the lines have ended. -/
def Draft.read (draft : Draft) : List Input → EntryReading
  | [] => ⟨.ended, [draft.prompt], []⟩
  | .interrupt :: rest => ⟨.interrupted, [draft.prompt], rest⟩
  | .ended :: rest => ⟨.ended, [draft.prompt], rest⟩
  | .line line :: rest =>
    match draft.add line with
    | .leave => ⟨.leave, [draft.prompt], rest⟩
    | .entry text => ⟨.entry text, [draft.prompt], rest⟩
    | .more longer =>
      let reading := longer.read rest
      { reading with prompts := draft.prompt :: reading.prompts }

end ExprLang
