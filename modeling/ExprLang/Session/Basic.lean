import ExprLang.Host
import ExprLang.Listing
import ExprLang.Session.Draft
import ExprLang.Severity

/-!
# Sessions

A session answers one entry after another. An entry that is a command changes how the next
entries are answered; any other entry is listed. Listing can break down: the session reports that
and goes on. How entries are listed is a parameter, so that a session can also be run with a
presenter that breaks down in any other way.

An ordinary presenter reads an entry and writes what it has read. Reading needs no more room for
calls than the parser's limit of nesting allows, and is taken to have it; writing a program needs
the more room the deeper its tree is, and breaks down where the host has no more (`Host.list`).
Nothing else is bounded here: there is memory for every text, and every text can be written to the
terminal. An integer that was read has few enough digits to be written again.
-/

namespace ExprLang

/-- How an entry is listed. -/
inductive Mode where
  /-- As a program. -/
  | program
  /-- As tokens. -/
  | tokens
deriving DecidableEq, Repr

namespace Mode

/-- The name of a mode. -/
def name : Mode → String
  | program => "program"
  | tokens => "tokens"

/-- The modes, the usual one first. -/
def all : List Mode := [program, tokens]

/-- The mode with a name. -/
def ofName? (name : String) : Option Mode := all.find? (·.name = name)

end Mode

/-- The report of a breakdown. -/
def Breakdown.report (breakdown : Breakdown) : String :=
  let last :=
    if breakdown.message = "" then breakdown.kind else breakdown.kind ++ ": " ++ breakdown.message
  unlines ["[error] >>>", "Traceback (most recent call last):", last, ""]

/-- What a presenter has listed, and what broke down then, if anything did. -/
structure Presented where
  /-- The listing, as far as it came. -/
  listing : Listing
  /-- The breakdown that ended it. -/
  breakdown : Option Breakdown

namespace Presented

/-- A breakdown before anything was listed. -/
def error (breakdown : Breakdown) : Presented := ⟨⟨"", []⟩, some breakdown⟩

/-- What the user sees: the listing, and then the report of the breakdown. -/
def output (presented : Presented) : String :=
  presented.listing.text ++ (presented.breakdown.map (·.report)).getD ""

end Presented

/-- How entries are listed in a mode, with programs as JSON or not. -/
abbrev Presenter := Mode → Bool → String → Presented

namespace Host

/-- The line of a statement, if there is room to write it. -/
def line (host : Host) (statement : Stmt) : Option String := do
  return statement.listed (← host.statement (← host.enter .part host.places) statement)

/-- The lines of a program, each if there is room to write it: the JSON text, or one line for each
statement. -/
def lines (host : Host) (asJson : Bool) (program : Program) : List (Option String) :=
  if asJson then [host.document (some 2) program] else program.statements.map host.line

/-- The lines in front of the first for which there is no room, and whether there is one. -/
def upToOverflow : List (Option String) → List String × Bool
  | [] => ([], false)
  | none :: _ => ([], true)
  | some line :: rest =>
    let (lines, overflows) := upToOverflow rest
    (line :: lines, overflows)

/-- List a program line by line, and then what is wrong with its source. The lines in front of one
for which there is no room are listed before the breakdown. -/
def list (host : Host) (asJson : Bool) (parsed : Parsed) : Presented :=
  let (lines, overflows) := upToOverflow (host.lines asJson parsed.program)
  if overflows then ⟨⟨unlines lines, parsed.events⟩, some host.overflow⟩
  else ⟨⟨unlines (lines ++ parsed.diagnostics.map (·.listed)), parsed.events⟩, none⟩

/-- The presenter of ordinary sessions on a host. -/
def present (host : Host) : Presenter
  | .tokens, _, source => ⟨.ofTokens source, none⟩
  | .program, asJson, source => host.list asJson (parseText source)

end Host

/-- The presenter of ordinary sessions on the usual host. -/
def present : Presenter := Host.usual.present

/-- A session between two lines. -/
structure Session where
  /-- How entries are listed. -/
  mode : Mode
  /-- Whether programs are listed as JSON. -/
  asJson : Bool
  /-- Whether the user has asked for the log. -/
  verbose : Bool
  /-- Which log lines are shown. -/
  levels : LogLevels
  /-- The lines of the entry that is being typed. -/
  draft : Draft
deriving DecidableEq, Repr

/-- The answer to one input. -/
structure Reply where
  /-- What the user sees. -/
  output : String
  /-- The log lines. -/
  log : List String
  /-- The session that goes on, or that is over. -/
  session : Session
  /-- Whether the session is over. -/
  isOver : Bool

namespace Session

/-- A new session. A session that starts with the log on switches it on; otherwise the log
is left as it is. -/
def start (mode : Mode) (verbose asJson : Bool) (levels : LogLevels) : Session :=
  { mode, asJson, verbose, draft := .empty
    levels := if verbose then levels.switched true else levels }

/-- A new session in the mode with a name. -/
def startNamed (mode : String) (verbose asJson : Bool) (levels : LogLevels) :
    Except Failure Session :=
  match Mode.ofName? mode with
  | some mode => .ok (start mode verbose asJson levels)
  | none => .error (.unknownMode mode)

/-- The greeting. -/
def banner (session : Session) : String :=
  unlines ["Welcome to vvlang! [mode=" ++ session.mode.name ++ "]. Type 'exit()' to leave."]

/-- The notice of a new setting. -/
def notice (setting : String) : String := unlines ["[mode] >>> " ++ setting]

/-- The notice of a setting switched on or off. -/
def switchNotice (setting : String) (on : Bool) : String :=
  notice (setting ++ if on then " ON" else " OFF")

/-- A reply after which the session goes on. -/
def reply (session : Session) (output : String) (log : List String := []) : Reply :=
  ⟨output, log, session, false⟩

/-- The last reply. -/
def close (session : Session) (output : String) : Reply := ⟨output, [], session, true⟩

/-- Go on in another mode. -/
def enter (session : Session) (mode : Mode) : Reply :=
  { session with mode }.reply (notice mode.name)

/-- Answer a complete entry. -/
def answerEntry (presenter : Presenter) (session : Session) (entry : String) : Reply :=
  match Text.trimmed entry with
  | "" => session.reply ""
  | ":tokens" => session.enter .tokens
  | ":program" => session.enter .program
  | ":json" =>
    let asJson := !session.asJson
    { session with asJson }.reply (switchNotice "JSON output" asJson)
  | ":verbose" =>
    let verbose := !session.verbose
    { session with verbose, levels := session.levels.switched verbose }.reply
      (switchNotice "Verbose mode" verbose)
  | _ =>
    let presented := presenter session.mode session.asJson entry
    session.reply presented.output (session.levels.lines presented.listing.events)

/-- Answer an input. -/
def answer (presenter : Presenter) (session : Session) : Input → Reply
  | .interrupt | .ended => session.close "\nExiting vvlang REPL.\n"
  | .line line =>
    match session.draft.add line with
    | .leave => session.close "Exiting vvlang REPL.\n"
    | .more draft => { session with draft }.reply ""
    | .entry text => { session with draft := .empty }.answerEntry presenter text

end Session

/-- A question and its answer. -/
structure Turn where
  /-- What the user was asked with. -/
  prompt : String
  /-- What the user saw after the input. -/
  output : String
  /-- The log lines after the input. -/
  log : List String
deriving DecidableEq, Repr

/-- A session from beginning to end. -/
structure Transcript where
  /-- The questions and answers, in order. -/
  turns : List Turn
  /-- The session that is over. -/
  last : Session
  /-- The inputs that nobody asked for. -/
  unread : List Input
deriving Repr

/-- Run a session on a list of inputs. Behind the list the lines have ended. -/
def Session.run (presenter : Presenter) (session : Session) : List Input → Transcript
  | [] =>
    let reply := session.answer presenter .ended
    ⟨[⟨session.draft.prompt, reply.output, reply.log⟩], reply.session, []⟩
  | input :: rest =>
    let reply := session.answer presenter input
    let turn := ⟨session.draft.prompt, reply.output, reply.log⟩
    if reply.isOver then ⟨[turn], reply.session, rest⟩
    else
      let later := reply.session.run presenter rest
      { later with turns := turn :: later.turns }

end ExprLang
