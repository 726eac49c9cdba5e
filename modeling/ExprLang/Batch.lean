import ExprLang.Listing
import ExprLang.Text.LineBreak

/-!
# Batch runs

A batch run reads one source text, given as text or as a file, lists it, and says by a
status whether it was sound. What is wrong with the source goes to a channel of its own.

A batch run is told for a host that has room for every program; what a bounded host does is told
for sessions, where a breakdown is reported and the session goes on.
-/

namespace ExprLang

/-- How a batch run treats its source. -/
structure BatchOptions where
  /-- Whether the source is given as text, not as the path of a file. -/
  isText : Bool
  /-- Whether tokens are listed, not the program. -/
  tokens : Bool
  /-- Whether the program is written as JSON. -/
  asJson : Bool
deriving DecidableEq, Repr

/-- The result of a batch run. -/
structure Report where
  /-- Zero for a sound source, one for a source with diagnostics. -/
  status : Nat
  /-- The listing. -/
  output : String
  /-- The diagnostics, one a line. -/
  complaints : String

/-- A result or a failure, with the events that came before it. -/
structure Attempt (α : Type) where
  /-- The events, in order. -/
  events : List Event
  /-- The result, or why there is none. -/
  result : Except Failure α

/-- How a file is read: its bytes, or why there are none. -/
abbrev FileReader := String → Except FileProblem (List UInt8)

namespace Batch

/-- The text of the file at a path. -/
def readFile (read : FileReader) (path : String) : Except Failure String :=
  if '\x00' ∈ path.toList then .error .nullInPath
  else
    match read path with
    | .error problem => .error (.file problem path)
    | .ok bytes =>
      match Text.Utf8.decode bytes with
      | .error fault => .error (.undecodable fault)
      | .ok text => .ok (String.ofList (Text.unifyBreaks text))

/-- Whether a path has the ending of source files. -/
def isSourcePath (path : String) : Bool := ".vv".toList.isSuffixOf path.toList

/-- The text that a run reads. -/
def sourceText (read : FileReader) (options : BatchOptions) (source : String) : Attempt String :=
  if options.isText then ⟨[], .ok source⟩
  else if isSourcePath source then ⟨[.reading source], readFile read source⟩
  else ⟨[], .error .unsupportedFile⟩

/-- The program as it is listed: as JSON, or as canonical text if it has any statement. -/
def programText (asJson : Bool) (program : Program) : String :=
  if asJson then unlines [program.jsonText (some 2)]
  else if program.statements.isEmpty then ""
  else unlines [program.render]

/-- Read a source text and list it. -/
def ofText (options : BatchOptions) (source : String) : Attempt Report :=
  if source = "" then ⟨[], .error .emptySource⟩
  else if options.tokens then
    let listing := Listing.ofTokens source
    ⟨listing.events, .ok ⟨0, listing.text, ""⟩⟩
  else
    let parsed := parseText source
    let status := if parsed.diagnostics.isEmpty then 0 else 1
    ⟨parsed.events ++ [.parsed parsed.program.statements.length parsed.diagnostics.length],
      .ok ⟨status, programText options.asJson parsed.program,
        unlines (parsed.diagnostics.map (·.listed))⟩⟩

/-- Run on a source, given as the options say. -/
def run (read : FileReader) (options : BatchOptions) (source : String) : Attempt Report :=
  let text := sourceText read options source
  match text.result with
  | .error failure => ⟨text.events, .error failure⟩
  | .ok content =>
    let report := ofText options content
    { report with events := text.events ++ report.events }

end Batch

end ExprLang
