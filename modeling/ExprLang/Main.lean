import ExprLang.CommandLine.Basic

/-!
# The program

Arguments, the environment, files and the terminal are read here and nowhere else; what is
written is decided elsewhere.
-/

namespace ExprLang

/-- The number by which the operating system names an error. It may come as a negative
number in 32 bits; an error without a number counts as one of input and output. -/
def errorCode (error : IO.Error) : Nat :=
  let number (code : UInt32) : Nat := if code < 0x80000000 then code.toNat else (0 - code).toNat
  match error with
  | .noFileOrDirectory _ code _ | .inappropriateType _ code _ | .permissionDenied _ code _
  | .invalidArgument _ code _ | .resourceExhausted _ code _ | .interrupted _ code _
  | .illegalOperation code _ | .otherError code _ => number code
  | _ => 5

/-- Read a file, or say why it cannot be read. -/
def readBytes (path : String) : IO (Except FileProblem (List UInt8)) := do
  try
    return .ok (← IO.FS.readBinFile path).toList
  catch error =>
    let code := errorCode error
    return .error ((FileProblem.known.find? (·.code = code)).getD ⟨code, toString error⟩)

/-- Write what a run left behind, and return its status. -/
def finish (outcome : CommandLine.Outcome) : IO UInt32 := do
  IO.print outcome.output
  IO.eprint outcome.errors
  return UInt32.ofNat (outcome.status.getD 0)

/-- Ask for lines until the session is over. -/
partial def converse (session : Session) : IO Unit := do
  IO.print session.draft.prompt
  (← IO.getStdout).flush
  let text ← (← IO.getStdin).getLine
  let input := if text.isEmpty then .ended else .line (text.dropEndWhile (· = '\n')).toString
  let reply := session.answer present input
  IO.eprint (unlines reply.log)
  IO.print reply.output
  unless reply.isOver do converse reply.session

/-- Do what the arguments ask for. -/
def runProgram (arguments : List String) : IO UInt32 := do
  match CommandLine.plan arguments (← IO.getEnv "VVLANG_LOG_LEVEL") with
  | .error failure =>
    IO.eprintln failure.message
    return 1
  | .ok (.session start) =>
    IO.print start.banner
    converse start
    return 0
  | .ok (.batch levels options source) =>
    let content ←
      if options.isText || !Batch.isSourcePath source then pure (.ok []) else readBytes source
    finish ((CommandLine.Plan.batch levels options source).run (fun _ => content) [])
  | .ok plan => finish (plan.run (fun _ => .error .missing) [])

end ExprLang

/-- The entry point. -/
def main (arguments : List String) : IO UInt32 := ExprLang.runProgram arguments
