import ExprLang.Proofs.Session.Entries
import ExprLang.Proofs.Session.Room
import ExprLang.Proofs.Termination
import ExprLang.Session.Basic

/-!
# Sessions as folds

A session goes from entry to entry with three settings, which only commands change. What an entry
is answered with depends on the settings and its own text (`Answers`), and is told here with the
scanner and the parser that may fail: neither does, for an entry that is not blank has a character.
So a session is its entries answered one after the other (`Session.run_folds`).

Reading an entry lets no session down, but writing its program can: the host has room for so many
calls that lie in each other. The answers are told for every host, with the entries whose programs
do not fit it among them; no other entry breaks down.
-/

namespace ExprLang

/-- What an entry is answered with. -/
structure Settings where
  /-- How entries are listed. -/
  mode : Mode
  /-- Whether programs are listed as JSON. -/
  asJson : Bool
  /-- Whether the user has asked for the log. -/
  verbose : Bool

/-- The text of an entry. -/
def entryText (entry : List String) : String := "\n".intercalate entry

/-- What an entry is compared with commands as. -/
def entryCommand (entry : List String) : String := Text.trimmed (entryText entry)

/-- The mode that a command selects. -/
def selected? : String → Option Mode
  | ":tokens" => some .tokens
  | ":program" => some .program
  | _ => none

/-- A switch behind commands, each use of one of which flips it. -/
def flipped (start : Bool) (command : String) (commands : List String) : Bool :=
  start ^^ commands.count command % 2 = 1

/-- The settings behind commands: the mode that was selected last, and two switches that were
flipped once for each use of their command. -/
def Settings.behind (start : Settings) (commands : List String) : Settings :=
  { mode := (commands.filterMap selected?).getLast?.getD start.mode
    asJson := flipped start.asJson ":json" commands
    verbose := flipped start.verbose ":verbose" commands }

/-- What a switch is called when it is on or off. -/
def switchText (on : Bool) : String := if on then "ON" else "OFF"

/-- The commands of a session, those that end it left out. -/
def sessionCommands : List String := [":tokens", ":program", ":json", ":verbose"]

/-- An entry that is listed: it is neither blank nor a command. -/
def Listed (text : String) : Prop :=
  Text.trimmed text ≠ "" ∧ Text.trimmed text ∉ sessionCommands

/-- What an entry with a text is answered with under some settings, on a host. -/
inductive Answers (host : Host) (settings : Settings) (text : String) : String → Prop where
  /-- A blank entry has no answer. -/
  | blank (blank : Text.trimmed text = "") : Answers host settings text ""
  /-- A mode is selected. -/
  | mode {mode : Mode} (command : Text.trimmed text = ":" ++ mode.name) :
      Answers host settings text ("[mode] >>> " ++ mode.name ++ "\n")
  /-- Listing programs as JSON is switched on or off. -/
  | json (command : Text.trimmed text = ":json") :
      Answers host settings text
        ("[mode] >>> JSON output " ++ switchText (!settings.asJson) ++ "\n")
  /-- The log is switched on or off. -/
  | verbose (command : Text.trimmed text = ":verbose") :
      Answers host settings text
        ("[mode] >>> Verbose mode " ++ switchText (!settings.verbose) ++ "\n")
  /-- The tokens of the entry are listed, and there is nothing that keeps the scanner from it. -/
  | tokens {tokens : List Token} (listed : Listed text) (mode : settings.mode = .tokens)
      (scanned : tokenize text true = .ok tokens) :
      Answers host settings text (unlines (tokens.map (·.shown)))
  /-- The program of the entry and its diagnostics are listed. There is nothing that keeps the
  parser from it, no fault gets away from it, and there is room for the program. -/
  | program {start last : Parser.State} {program : Program} (listed : Listed text)
      (mode : settings.mode = .program) (started : Parser.State.ofSource text = .ok start)
      (ran : Parser.withRoom Parser.program start = .ok program last)
      (fits : program.Fits host settings.asJson) :
      Answers host settings text (unlines (programLines settings.asJson program ++
        last.diagnostics.toList.map (·.listed)))
  /-- The program of the entry was read, but the host has no room for it. What is listed in front of
  the first statement that does not fit stays, and the overflow is reported. -/
  | overflow {start last : Parser.State} {program : Program} {first : List Stmt}
      (listed : Listed text) (mode : settings.mode = .program)
      (started : Parser.State.ofSource text = .ok start)
      (ran : Parser.withRoom Parser.program start = .ok program last)
      (cut : host.Cut program settings.asJson first) :
      Answers host settings text
        (unlines (programLines false ⟨first⟩) ++ host.overflow.report)

/-- The answers to entries, each under the settings behind the entries before it. -/
inductive Answered (host : Host) : Settings → List (List String) → List String → Prop where
  /-- No entry. -/
  | done {settings : Settings} : Answered host settings [] []
  /-- An entry and those behind it. -/
  | next {settings : Settings} {entry : List String} {entries : List (List String)}
      {output : String} {outputs : List String}
      (answer : Answers host settings (entryText entry) output)
      (more : Answered host (settings.behind [entryCommand entry]) entries outputs) :
      Answered host settings (entry :: entries) (output :: outputs)

/-- Without a command a switch stays. -/
theorem flipped_nil (start : Bool) (command : String) : flipped start command [] = start := by
  simp [flipped]

/-- A switch behind a command and others. -/
theorem flipped_cons (start : Bool) (command first : String) (commands : List String) :
    flipped start command (first :: commands) =
      flipped (flipped start command [first]) command commands := by
  unfold flipped
  rw [List.count_cons, List.count_singleton]
  by_cases used : first = command
  · rcases Nat.mod_two_eq_zero_or_one (commands.count command) with even | odd
    · have further : (commands.count command + 1) % 2 = 1 := by omega
      simp [used, even, further]
    · have further : (commands.count command + 1) % 2 = 0 := by omega
      simp [used, odd, further]
  · simp [used]

namespace Settings

/-- Without a command the settings stay. -/
theorem behind_nil (settings : Settings) : settings.behind [] = settings := by
  simp [behind, flipped_nil]

/-- The settings behind a command and others. -/
theorem behind_cons (settings : Settings) (first : String) (commands : List String) :
    settings.behind (first :: commands) = (settings.behind [first]).behind commands := by
  have mode : ((first :: commands).filterMap selected?).getLast?.getD settings.mode =
      (commands.filterMap selected?).getLast?.getD
        (([first].filterMap selected?).getLast?.getD settings.mode) := by
    cases selects : selected? first with
    | none => simp [selects]
    | some mode => simp [selects, List.getLast?_cons]
  unfold behind
  rw [mode, flipped_cons, flipped_cons settings.verbose]

/-- A text that is no command changes no setting. -/
theorem behind_other (settings : Settings) {text : String} (other : text ∉ sessionCommands) :
    settings.behind [text] = settings := by
  simp only [sessionCommands, List.mem_cons, List.not_mem_nil, or_false, not_or] at other
  obtain ⟨tokens, program, json, verbose⟩ := other
  have selects : selected? text = none := by
    unfold selected?
    split
    · exact absurd rfl tokens
    · exact absurd rfl program
    · rfl
  simp [behind, selects, flipped, json, verbose]

end Settings

/-- What an entry is answered with is known from the entries before it. -/
theorem Answered.answers {host : Host} {settings : Settings} {entries : List (List String)}
    {outputs : List String} (answered : Answered host settings entries outputs) :
    outputs.length = entries.length ∧ ∀ index entry output, entries[index]? = some entry →
      outputs[index]? = some output →
      Answers host (settings.behind ((entries.take index).map entryCommand)) (entryText entry)
        output := by
  induction answered with
  | done => exact ⟨rfl, nofun⟩
  | @next settings first entries answer outputs answers _ ih =>
    obtain ⟨length, later⟩ := ih
    refine ⟨congrArg Nat.succ length, fun index entry output found shown => ?_⟩
    cases index with
    | zero =>
      obtain rfl : first = entry := Option.some.inj found
      obtain rfl : answer = output := Option.some.inj shown
      rw [List.take_zero, List.map_nil, Settings.behind_nil]
      exact answers
    | succ index =>
      rw [List.take_succ_cons, List.map_cons, Settings.behind_cons]
      exact later index entry output found shown

/-! ## Answers -/

/-- What the user sees of a transcript, without what he is asked with. -/
def Transcript.output (transcript : Transcript) : String :=
  String.join (transcript.turns.map (·.output))

namespace Session

/-- The settings of a session. -/
def settings (session : Session) : Settings := ⟨session.mode, session.asJson, session.verbose⟩

/-- An entry that is not blank has a character. -/
theorem nonempty_of_trimmed {text : String} (solid : Text.trimmed text ≠ "") : text ≠ "" := by
  rintro rfl
  exact solid (by decide)

/-- All that the user sees of a session to which some lines are typed: the greeting and what the
lines bring, without what he is asked with. -/
def printed (session : Session) (host : Host) (lines : List String) : String :=
  session.banner ++ (session.run host.present (lines.map .line)).output

end Session

end ExprLang
