import ExprLang.Text.DecimalDigit
import ExprLang.Text.Quoted

/-!
# Arguments

The command line has flags, which take no value, and at most one other argument, the source.
Long flags may be cut short as long as they stay unique, short flags may be written together,
also with an equals sign behind the first, and two hyphens end the flags. An argument that
looks like a negative number, or holds a space without being a flag, is no flag.

Reading goes in two passes. The first sorts the arguments and fails at a flag cut too short;
the second takes them from left to right, and stops at a call for help.
-/

namespace ExprLang

/-- The flags. -/
inductive Flag where
  /-- Show the help. -/
  | help
  /-- The source is given as text. -/
  | string
  /-- List tokens. -/
  | tokens
  /-- Write JSON. -/
  | json
  /-- Start a session. -/
  | repl
  /-- Show the log. -/
  | verbose
deriving DecidableEq, Repr

namespace Flag

/-- The flags in the order of the help. -/
def all : List Flag := [help, string, tokens, json, repl, verbose]

/-- The letter of a short form. -/
def letter? : Flag → Option Char
  | help => some 'h'
  | string => some 's'
  | _ => none

/-- The word of the long form. -/
def word : Flag → String
  | help => "help"
  | string => "string"
  | tokens => "tokens"
  | json => "json"
  | repl => "repl"
  | verbose => "verbose"

/-- The long form. -/
def long (flag : Flag) : String := "--" ++ flag.word

/-- All forms, the short one first. -/
def forms (flag : Flag) : List String :=
  match flag.letter? with
  | some letter => [String.ofList ['-', letter], flag.long]
  | none => [flag.long]

/-- The forms of a flag in a message. -/
def shown (flag : Flag) : String := "/".intercalate flag.forms

/-- The flag with a form. -/
def ofForm? (form : String) : Option Flag := all.find? (form ∈ ·.forms)

/-- The flag with a letter. -/
def ofLetter? (letter : Char) : Option Flag := all.find? (·.letter? = some letter)

/-- The flags whose long form starts with a text. -/
def startingWith (text : List Char) : List Flag := all.filter (text.isPrefixOf ·.long.toList)

end Flag

/-- What is wrong with the arguments. -/
inductive Misuse where
  /-- A long flag is cut so short that several flags remain. -/
  | ambiguous (argument : String) (candidates : List Flag)
  /-- A flag is given a value. -/
  | value (flag : Flag) (value : String)
  /-- Arguments that are neither flags nor the source. -/
  | unrecognized (arguments : List String)
deriving DecidableEq, Repr

/-- The wording of a misuse. -/
def Misuse.message : Misuse → String
  | ambiguous argument candidates =>
    "ambiguous option: " ++ argument ++ " could match " ++
      ", ".intercalate (candidates.map (·.long))
  | value flag given =>
    "argument " ++ flag.shown ++ ": ignored explicit argument " ++ Text.quoted given
  | unrecognized arguments => "unrecognized arguments: " ++ " ".intercalate arguments

/-- An argument after the first pass. -/
inductive Word where
  /-- A flag, with the letters that are glued to its short form. -/
  | flag (first : Flag) (letters : List Char)
  /-- A flag with an equals sign and a value. No letters follow the sign. -/
  | valued (flag : Flag) (value : List Char)
  /-- Something in the form of a flag that is none. -/
  | unknown (text : String)
  /-- The two hyphens that end the flags. -/
  | separator
  /-- Any other argument. -/
  | plain (text : String)
deriving DecidableEq, Repr

namespace Word

/-- Whether an argument is a hyphen and a decimal number. One line break may follow it. -/
def isNegativeNumber (text : List Char) : Bool :=
  let isDigit (c : Char) : Bool := (Text.decimalValue? c).isSome
  match text with
  | '-' :: number =>
    let number := if number.getLast? = some '\n' then number.dropLast else number
    match number.dropWhile isDigit with
    | [] => !number.isEmpty
    | '.' :: fraction => !fraction.isEmpty && fraction.all isDigit
    | _ => false
  | _ => false

/-- A flag in its long form, with a value or without. -/
def ofLong (named : Flag) : Option (List Char) → Word
  | none => flag named []
  | some value => valued named value

/-- A flag in its short form, with a value or without. Letters in the place of the value are
glued to the flag. -/
def ofShort (named : Flag) : Option (List Char) → Word
  | none => flag named []
  | some [] => valued named []
  | some letters => flag named letters

/-- The flag that a form names exactly, with a value or without. -/
def named? (form : List Char) (value : Option (List Char)) : Option Word :=
  (Flag.ofForm? (String.ofList form)).map fun named =>
    if form = named.long.toList then ofLong named value else ofShort named value

/-- The two sides of the first equals sign of a text, if it has one. -/
def splitValue (text : List Char) : List Char × Option (List Char) :=
  let form := text.takeWhile (· ≠ '=')
  (form, (text.drop form.length).tail?)

/-- Sort an argument that starts with a hyphen, is longer than it, and names no flag exactly. -/
def ofInexact (text : List Char) : Except Misuse Word :=
  let argument := String.ofList text
  let other : Word :=
    if isNegativeNumber text || ' ' ∈ text then plain argument else unknown argument
  match text with
  | '-' :: '-' :: _ =>
    let (form, value) := splitValue text
    match Flag.startingWith form with
    | [] => .ok other
    | [named] => .ok (ofLong named value)
    | candidates => .error (.ambiguous argument candidates)
  | _ :: letter :: letters =>
    match Flag.ofLetter? letter with
    | some named => .ok (flag named letters)
    | none => .ok other
  | _ => .ok other

/-- Sort an argument. -/
def ofArgument (argument : String) : Except Misuse Word :=
  let text := argument.toList
  match text with
  | '-' :: _ :: _ =>
    match named? text none with
    | some word => .ok word
    | none =>
      let (form, value) := splitValue text
      match value, named? form value with
      | some _, some word => .ok word
      | _, _ => ofInexact text
  | _ => .ok (plain argument)

/-- The first pass. -/
def ofArguments : List String → Except Misuse (List Word)
  | [] => .ok []
  | argument :: rest =>
    if argument = "--" then .ok (separator :: rest.map plain)
    else return (← ofArgument argument) :: (← ofArguments rest)

end Word

/-- The flags that a flag and the letters glued to it stand for. From the first letter that is
no flag on, the letters are a value of the flag before it. -/
def Flag.cluster (flag : Flag) : List Char → Except Misuse (List Flag)
  | [] => .ok [flag]
  | letter :: rest =>
    match Flag.ofLetter? letter with
    | none => .error (.value flag (String.ofList (letter :: rest)))
    | some next =>
      match next.cluster rest with
      | .error problem => .error problem
      | .ok flags => .ok (flag :: flags)

/-- What the arguments ask for. -/
structure Options where
  /-- The source, if there is one. -/
  source : Option String
  /-- The flags. -/
  flags : List Flag
deriving DecidableEq, Repr

/-- The arguments, understood or not. -/
inductive Request where
  /-- A call for help. -/
  | help
  /-- The arguments make no sense. -/
  | misuse (problem : Misuse)
  /-- Something to do. -/
  | options (options : Options)
deriving DecidableEq, Repr

namespace Request

/-- What the second pass has taken so far. -/
structure Taken where
  /-- The flags. -/
  flags : List Flag
  /-- The source, once the place for it is used up. It can be used up without a source. -/
  source : Option (Option String)
  /-- The arguments that have no place. -/
  surplus : List String

/-- The second pass. The place for the source takes a pair of hyphens before or directly
behind the source along with it. -/
def ofWords (taken : Taken) : List Word → Request
  | [] =>
    if taken.surplus = [] then .options ⟨taken.source.getD none, taken.flags⟩
    else .misuse (.unrecognized taken.surplus)
  | .valued flag value :: _ => .misuse (.value flag (String.ofList value))
  | .flag first letters :: rest =>
    match first.cluster letters with
    | .error problem => .misuse problem
    | .ok flags =>
      if .help ∈ flags then .help
      else ofWords { taken with flags := taken.flags ++ flags } rest
  | .unknown text :: rest => ofWords { taken with surplus := taken.surplus ++ [text] } rest
  | .separator :: .plain text :: rest =>
    if taken.source.isNone then ofWords { taken with source := some (some text) } rest
    else ofWords { taken with surplus := taken.surplus ++ ["--", text] } rest
  | .separator :: rest =>
    if taken.source.isNone then ofWords { taken with source := some none } rest
    else ofWords { taken with surplus := taken.surplus ++ ["--"] } rest
  | .plain text :: .separator :: rest =>
    if taken.source.isNone then ofWords { taken with source := some (some text) } rest
    else ofWords { taken with surplus := taken.surplus ++ [text, "--"] } rest
  | .plain text :: rest =>
    if taken.source.isNone then ofWords { taken with source := some (some text) } rest
    else ofWords { taken with surplus := taken.surplus ++ [text] } rest

/-- Read the arguments. -/
def ofArguments (arguments : List String) : Request :=
  match Word.ofArguments arguments with
  | .error problem => .misuse problem
  | .ok words => ofWords ⟨[], none, []⟩ words

end Request

end ExprLang
