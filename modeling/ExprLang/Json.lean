import ExprLang.Text.Hex

/-!
# JSON text

Values in the JSON data model without fractions, and their text. The text is ASCII: every
other character is escaped by its UTF-16 code units. With an indent every item stands on a
line of its own; without, the whole text is one line.
-/

namespace ExprLang

/-- A JSON value whose numbers are integers. The fields of an object keep their order. -/
inductive Json where
  /-- The absent value. -/
  | null
  /-- A truth value. -/
  | bool (value : Bool)
  /-- An integer. -/
  | number (value : Int)
  /-- A text. -/
  | text (value : String)
  /-- A list of values. -/
  | list (items : List Json)
  /-- Named values in order. -/
  | object (fields : List (String × Json))

namespace Json

/-- The escape of one UTF-16 code unit. -/
def escapedUnit (unit : Nat) : List Char := '\\' :: 'u' :: Text.hex 4 unit

/-- How one character stands inside a JSON text literal. -/
def escaped (c : Char) : List Char :=
  if c = '"' || c = '\\' then ['\\', c]
  else if c = '\n' then ['\\', 'n']
  else if c = '\r' then ['\\', 'r']
  else if c = '\t' then ['\\', 't']
  else if c.toNat = 0x0c then ['\\', 'f']
  else if c.toNat = 0x08 then ['\\', 'b']
  else if ' ' ≤ c && c ≤ '~' then [c]
  else if c.toNat < 0x10000 then escapedUnit c.toNat
  else
    escapedUnit (0xd800 + (c.toNat - 0x10000) / 0x400) ++
      escapedUnit (0xdc00 + (c.toNat - 0x10000) % 0x400)

/-- A text literal. -/
def quoted (text : String) : String :=
  String.ofList ('"' :: text.toList.flatMap escaped ++ ['"'])

/-- The line break before an item at a level, followed by the indent of this level. No
indent, no break; a negative indent is an empty one. -/
def lineBreak (level : Nat) : Option Int → String
  | none => ""
  | some width => String.ofList ('\n' :: List.replicate (level * width.toNat) ' ')

/-- What stands between two items at a level. -/
def separator (level : Nat) : Option Int → String
  | none => ", "
  | some width => "," ++ lineBreak level (some width)

/-- Items between brackets at a level. Brackets without items close at once. -/
def bracketed (indent : Option Int) (level : Nat) (opening closing : String) :
    List String → String
  | [] => opening ++ closing
  | items =>
    opening ++ lineBreak (level + 1) indent ++ (separator (level + 1) indent).intercalate items ++
      lineBreak level indent ++ closing

mutual

/-- The text of a value at a level of nesting. -/
def writeAt (indent : Option Int) (level : Nat) : Json → String
  | null => "null"
  | bool value => if value then "true" else "false"
  | number value => toString value
  | text value => quoted value
  | list items => bracketed indent level "[" "]" (writeItems indent (level + 1) items)
  | object fields => bracketed indent level "\x7b" "\x7d" (writeFields indent (level + 1) fields)

/-- The texts of the items of a list. -/
def writeItems (indent : Option Int) (level : Nat) : List Json → List String
  | [] => []
  | item :: rest => writeAt indent level item :: writeItems indent level rest

/-- The texts of the fields of an object. -/
def writeFields (indent : Option Int) (level : Nat) : List (String × Json) → List String
  | [] => []
  | (key, value) :: rest =>
    (quoted key ++ ": " ++ writeAt indent level value) :: writeFields indent level rest

end

/-- The text of a value, on one line or with an indent of so many spaces. -/
def write (indent : Option Int) (value : Json) : String := writeAt indent 0 value

end Json

end ExprLang
