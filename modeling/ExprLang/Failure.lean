import ExprLang.Text.Quoted
import ExprLang.Text.Utf8

/-!
# Failures

What makes a request fail as a whole. Faults inside a source text are no failures: they
are diagnostics of the result.
-/

namespace ExprLang

/-- Why a file could not be opened: the number and the wording of the operating system. -/
structure FileProblem where
  /-- The number of the problem. -/
  code : Nat
  /-- The wording of the problem. -/
  wording : String
deriving DecidableEq, Repr

namespace FileProblem

/-- The path leads to nothing. -/
def missing : FileProblem := ⟨2, "No such file or directory"⟩

/-- A part of the path other than the last is no directory. -/
def notDirectory : FileProblem := ⟨20, "Not a directory"⟩

/-- The path leads to a directory. -/
def directory : FileProblem := ⟨21, "Is a directory"⟩

/-- The path, or a part of it, is too long. -/
def nameTooLong : FileProblem := ⟨36, "File name too long"⟩

/-- The user may not read the file. -/
def denied : FileProblem := ⟨13, "Permission denied"⟩

/-- The problems with a wording of their own. -/
def known : List FileProblem := [missing, denied, notDirectory, directory, nameTooLong]

/-- The number and the wording together. -/
def message (problem : FileProblem) : String :=
  "[Errno " ++ toString problem.code ++ "] " ++ problem.wording

end FileProblem

/-- Why a request has no result. -/
inductive Failure where
  /-- The source text is empty. -/
  | emptySource
  /-- A session was asked for in a mode that does not exist. -/
  | unknownMode (name : String)
  /-- The name of a source file has the wrong ending. -/
  | unsupportedFile
  /-- The name of a source file has a null character. -/
  | nullInPath
  /-- A source file could not be opened. -/
  | file (problem : FileProblem) (path : String)
  /-- A source file is not UTF-8 text. -/
  | undecodable (fault : Text.Utf8.Fault)
  /-- A text serves as the level of the log, and names none. -/
  | unknownLevel (name : String)
  /-- Something other than a text serves as the level of the log. -/
  | unsuitableLevel (shown : String)
deriving DecidableEq, Repr

/-- The wording of a failure. -/
def Failure.message : Failure → String
  | emptySource => "No character found at position 0 in given text: ''"
  | unknownMode name => "Unknown REPL mode: " ++ name
  | unsupportedFile => "Only .vv files are supported."
  | nullInPath => "embedded null byte"
  | file problem path => problem.message ++ ": " ++ Text.quoted path
  | undecodable fault => fault.message
  | unknownLevel name => "Unknown level: " ++ Text.quoted name
  | unsuitableLevel shown => "Level not an integer or a valid string: " ++ shown

end ExprLang
