import ExprLang.Batch
import ExprLang.CommandLine.Arguments
import ExprLang.Session.Basic

/-!
# Command line

The arguments and the log level of the environment decide what the program does: show its
help, complain, run a batch, or hold a session. What it writes and how it ends is a function
of these, of the files it can read, and of the lines it is given.
-/

namespace ExprLang.CommandLine

/-- What the program is to do. -/
inductive Plan where
  /-- Show the help. -/
  | help
  /-- Say what is wrong with the arguments. -/
  | misuse (problem : Misuse)
  /-- Hold a session. -/
  | session (start : Session)
  /-- Run a batch on a source. -/
  | batch (levels : LogLevels) (options : BatchOptions) (source : String)

/-- The severity from which on the log shows messages: debugging on request, else the one of
the environment. -/
def severity (verbose : Bool) (environment : Option String) : Except Failure Severity :=
  if verbose then .ok .debug else Severity.ofName (environment.getD "WARNING")

/-- The plan for understood arguments. Without a source there is a session. -/
def planFor (options : Options) (severity : Severity) : Plan :=
  let has (flag : Flag) : Bool := flag ∈ options.flags
  let levels : LogLevels := ⟨severity, severity⟩
  match has .repl, options.source with
  | false, some source =>
    .batch levels ⟨has .string, has .tokens, has .json⟩ source
  | _, _ =>
    .session (.start (if has .tokens then .tokens else .program) (has .verbose) (has .json) levels)

/-- The plan for the arguments and the log level of the environment. The environment matters
only once the arguments are understood. -/
def plan (arguments : List String) (environment : Option String) : Except Failure Plan :=
  match Request.ofArguments arguments with
  | .help => .ok .help
  | .misuse problem => .ok (.misuse problem)
  | .options options =>
    (severity (.verbose ∈ options.flags) environment).map (planFor options)

/-- How the program is called. -/
def usage : String :=
  unlines ["usage: vvlang [-h] [-s] [--tokens] [--json] [--repl] [--verbose] [source]"]

/-- The help. -/
def help : String :=
  usage ++ unlines [
    "",
    "positional arguments:",
    "  source        Filename or raw source (with -s)",
    "",
    "options:",
    "  -h, --help    show this help message and exit",
    "  -s, --string  Interpret source as literal string",
    "  --tokens      Print tokens instead of the program",
    "  --json        Print the AST as JSON",
    "  --repl        Launch interactive REPL instead of parsing",
    "  --verbose     Enable debug logging"]

/-- The complaint about arguments. -/
def complaint (problem : Misuse) : String :=
  usage ++ unlines ["vvlang: error: " ++ problem.message]

/-- What a run of the program leaves behind. -/
structure Outcome where
  /-- The status, unless the program ends without one. -/
  status : Option Nat
  /-- What it wrote for its user. -/
  output : String
  /-- What it wrote beside: complaints and log lines. -/
  errors : String
  /-- The level of the log at the end. -/
  level : Severity

/-- The outcome of a batch run. -/
def batchOutcome (levels : LogLevels) (attempt : Attempt Report) : Outcome :=
  let log := unlines (levels.lines attempt.events)
  match attempt.result with
  | .ok report => ⟨some report.status, report.output, log ++ report.complaints, levels.own⟩
  | .error failure => ⟨some 2, "", log ++ unlines ["error: " ++ failure.message], levels.own⟩

/-- The outcome of a session. The questions stand among the answers. -/
def sessionOutcome (banner : String) (transcript : Transcript) : Outcome :=
  ⟨none, banner ++ String.join (transcript.turns.map fun turn => turn.prompt ++ turn.output),
    String.join (transcript.turns.map fun turn => unlines turn.log), transcript.last.levels.own⟩

/-- Carry out a plan with the files that can be read and the inputs that are to come. -/
def Plan.run (read : FileReader) (inputs : List Input) : Plan → Outcome
  | .help => ⟨some 0, CommandLine.help, "", .unset⟩
  | .misuse problem => ⟨some 2, "", complaint problem, .unset⟩
  | .batch levels options source => batchOutcome levels (Batch.run read options source)
  | .session start => sessionOutcome start.banner (start.run present inputs)

end ExprLang.CommandLine
