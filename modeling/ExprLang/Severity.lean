import ExprLang.Event
import ExprLang.Failure

/-!
# Severities and the log

Log lines have the lowest severity that has a name of its own. The log shows them when its
level is not above theirs. A program part without a level of its own takes the level around
it.

A user chooses a level by name, in any case. The names of the log are not only those of levels:
two stand for how log lines are laid out, and to choose one of these is a failure.
-/

namespace ExprLang

/-- How grave a message is, or from which gravity on messages are shown. -/
inductive Severity where
  /-- No level of its own. -/
  | unset
  /-- Steps of the program. -/
  | debug
  /-- Notes. -/
  | info
  /-- Warnings. -/
  | warning
  /-- Errors. -/
  | error
  /-- Errors that end the program. -/
  | critical
deriving DecidableEq, Repr, Inhabited

/-- A way to write the layout of log lines. -/
structure LayoutStyle where
  /-- The sign by which the fields of a line are known. -/
  sign : Char
  /-- The class of the layouts in this style. -/
  className : String
  /-- The usual layout in this style. -/
  layout : String

namespace LayoutStyle

/-- The style that is usual itself. -/
def usual : LayoutStyle := ⟨'%', "PercentStyle", "%(levelname)s:%(name)s:%(message)s"⟩

/-- All styles. -/
def all : List LayoutStyle := [
  usual,
  ⟨'\x7b', "StrFormatStyle", "\x7blevelname\x7d:\x7bname\x7d:\x7bmessage\x7d"⟩,
  ⟨'$', "StringTemplateStyle", "$\x7blevelname\x7d:$\x7bname\x7d:$\x7bmessage\x7d"⟩]

/-- A style in the table of styles. -/
def shown (style : LayoutStyle) : String :=
  Text.quoted style.sign.toString ++ ": (<class " ++ Text.quoted ("logging." ++ style.className) ++
    ">, " ++ Text.quoted style.layout ++ ")"

/-- The table of styles. -/
def table : String := "\x7b" ++ ", ".intercalate (all.map shown) ++ "\x7d"

end LayoutStyle

namespace Severity

/-- The number of a severity, higher for graver messages. -/
def number : Severity → Nat
  | unset => 0
  | debug => 10
  | info => 20
  | warning => 30
  | error => 40
  | critical => 50

/-- The names of the log with what comes of choosing one as the level. -/
def names : List (String × Except Failure Severity) := [
  ("NOTSET", .ok unset), ("DEBUG", .ok debug), ("INFO", .ok info), ("WARN", .ok warning),
  ("WARNING", .ok warning), ("ERROR", .ok error), ("FATAL", .ok critical),
  ("CRITICAL", .ok critical), ("BASIC_FORMAT", .error (.unknownLevel LayoutStyle.usual.layout)),
  ("_STYLES", .error (.unsuitableLevel LayoutStyle.table))]

/-- The characters beyond ASCII whose capitals are all ASCII: the sharp, the dotless and the
long letter, and the ligatures. -/
def asciiCapitals : List (Char × String) := [
  ('ß', "SS"), ('ı', "I"), ('ſ', "S"), ('ﬀ', "FF"), ('ﬁ', "FI"), ('ﬂ', "FL"), ('ﬃ', "FFI"),
  ('ﬄ', "FFL"), ('ﬅ', "ST"), ('ﬆ', "ST")]

/-- The capitals of a character, as far as they can stand in a name. -/
def capitals (c : Char) : List Char :=
  match asciiCapitals.lookup c with
  | some letters => letters.toList
  | none => [c.toUpper]

/-- The severity with a name in any case, a warning if there is none. -/
def ofName (name : String) : Except Failure Severity :=
  (names.lookup (String.ofList (name.toList.flatMap capitals))).getD (.ok warning)

end Severity

/-- From which severity on messages are shown. -/
structure LogLevels where
  /-- The level of the program. -/
  own : Severity
  /-- The level around it. -/
  around : Severity
deriving DecidableEq, Repr

namespace LogLevels

/-- The level where nothing was chosen. -/
def initial : LogLevels := ⟨.unset, .warning⟩

/-- The level that decides. -/
def effective (levels : LogLevels) : Severity :=
  if levels.own = .unset then levels.around else levels.own

/-- The log lines of events, if steps of the program are shown. -/
def lines (levels : LogLevels) (events : List Event) : List String :=
  if levels.effective.number ≤ Severity.debug.number then events.map (·.shown) else []

/-- The levels after steps of the program are switched on or off. -/
def switched (levels : LogLevels) (on : Bool) : LogLevels :=
  { levels with own := if on then .debug else .warning }

end LogLevels

end ExprLang
