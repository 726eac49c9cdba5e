import ExprLang.Json
import Mathlib.Data.Nat.Digits.Defs

/-!
# Text literals

A text literal is read character by character as the UTF-16 code units that it stands for
(`Literal.step`). The units of a text are those of its characters, and a character beyond the basic
plane has two of them, which no other characters have (`Json.ofUnits?_units`).
-/

namespace ExprLang

/-! ## Hexadecimal digits -/

namespace Text

/-- The value of a lower-case hexadecimal digit. -/
def hexValue? (c : Char) : Option Nat :=
  if '0' ≤ c ∧ c ≤ '9' then some (c.toNat - '0'.toNat)
  else if 'a' ≤ c ∧ c ≤ 'f' then some (c.toNat - 'a'.toNat + 10)
  else none

/-- The digit of a value has this value. -/
theorem hexValue?_digitChar {value : Nat} (small : value < 16) :
    hexValue? value.digitChar = some value := by
  have all : ∀ value < 16, hexValue? (Nat.digitChar value) = some value := by decide
  exact all value small

/-- The last of several digits. -/
theorem hex_succ {width : Nat} (wide : 0 < width) (number : Nat) :
    hex (width + 1) number = hex width (number / 16) ++ [(number % 16).digitChar] := by
  unfold hex
  by_cases small : number < 16
  · have none_left : number / 16 = 0 := by omega
    have same : number % 16 = number := by omega
    have zeros : width + 1 - 1 = width - 1 + 1 := by omega
    have zero : Nat.toDigits 16 0 = ['0'] := rfl
    rw [none_left, same, zero, Nat.toDigits_of_lt_base small]
    simp only [List.length_singleton]
    rw [zeros, List.replicate_succ']
  · rw [Nat.toDigits_of_base_le (by decide) (by omega)]
    simp only [List.length_append, List.length_singleton, List.append_assoc]
    rw [Nat.add_sub_add_right]

/-- Numbers of 16 bits have four digits. -/
theorem hex_four {number : Nat} (small : number < 0x10000) :
    hex 4 number = [(number / 4096).digitChar, (number / 256 % 16).digitChar,
      (number / 16 % 16).digitChar, (number % 16).digitChar] := by
  have first : hex 1 (number / 16 / 16 / 16) = [(number / 4096).digitChar] := by
    have quotient : number / 16 / 16 / 16 = number / 4096 := by omega
    rw [quotient, hex, Nat.toDigits_of_lt_base (by omega)]
    rfl
  have second : number / 16 / 16 = number / 256 := by omega
  rw [hex_succ (by decide), hex_succ (by decide), hex_succ (by decide), first, second]
  rfl

end Text

namespace Json

/-! ## Code units -/

/-- The UTF-16 code units of a character. -/
def unitsOf (c : Char) : List Nat :=
  if c.toNat < 0x10000 then [c.toNat]
  else [0xd800 + (c.toNat - 0x10000) / 0x400, 0xdc00 + (c.toNat - 0x10000) % 0x400]

/-- The characters that code units stand for. A unit that opens a pair has to be followed by one
that closes it. -/
def ofUnits? : List Nat → Option (List Char)
  | [] => some []
  | [unit] => if unit.isValidChar then some [.ofNat unit] else none
  | unit :: next :: rest =>
    if unit.isValidChar then (ofUnits? (next :: rest)).map (.ofNat unit :: ·)
    else if 0xd800 ≤ unit ∧ unit < 0xdc00 ∧ 0xdc00 ≤ next ∧ next < 0xe000 then
      (ofUnits? rest).map (.ofNat (0x10000 + (unit - 0xd800) * 0x400 + (next - 0xdc00)) :: ·)
    else none

/-- Characters are code points. -/
theorem toNat_lt (c : Char) : c.toNat < 0x110000 := by
  rcases c.valid with low | high
  · exact Nat.lt_trans low (by decide)
  · exact high.2

/-- A unit that is a character stands for this character. -/
theorem ofUnits?_single {unit : Nat} (valid : unit.isValidChar) (rest : List Nat) :
    ofUnits? (unit :: rest) = (ofUnits? rest).map (.ofNat unit :: ·) := by
  cases rest with
  | nil => simp [ofUnits?, valid]
  | cons next rest => rw [ofUnits?, if_pos valid]

/-- A character is read from its units. -/
theorem ofUnits?_unitsOf (c : Char) (rest : List Nat) :
    ofUnits? (unitsOf c ++ rest) = (ofUnits? rest).map (c :: ·) := by
  have valid : c.toNat.isValidChar := c.valid
  have bound : c.toNat < 0x110000 := toNat_lt c
  unfold unitsOf
  by_cases basic : c.toNat < 0x10000
  · rw [if_pos basic]
    simp only [List.cons_append, List.nil_append]
    rw [ofUnits?_single valid, Char.ofNat_toNat]
  · rw [if_neg basic]
    have opening : ¬ (0xd800 + (c.toNat - 0x10000) / 0x400).isValidChar := by
      rintro (low | high)
      · omega
      · omega
    have pair : 0xd800 ≤ 0xd800 + (c.toNat - 0x10000) / 0x400 ∧
        0xd800 + (c.toNat - 0x10000) / 0x400 < 0xdc00 ∧
        0xdc00 ≤ 0xdc00 + (c.toNat - 0x10000) % 0x400 ∧
        0xdc00 + (c.toNat - 0x10000) % 0x400 < 0xe000 := by omega
    have whole : 0x10000 + (0xd800 + (c.toNat - 0x10000) / 0x400 - 0xd800) * 0x400 +
        (0xdc00 + (c.toNat - 0x10000) % 0x400 - 0xdc00) = c.toNat := by omega
    simp only [List.cons_append, List.nil_append]
    rw [ofUnits?, if_neg opening, if_pos pair, whole, Char.ofNat_toNat]

/-- A text is read from the units of its characters. -/
theorem ofUnits?_units (text : List Char) : ofUnits? (text.flatMap unitsOf) = some text := by
  induction text with
  | nil => rfl
  | cons c text ih => rw [List.flatMap_cons, ofUnits?_unitsOf, ih]; rfl

/-! ## Escapes -/

/-- Where the reading of a literal stands, with the units read so far. -/
inductive Literal where
  /-- Behind a whole character or escape. -/
  | plain (units : List Nat)
  /-- Behind a backslash. -/
  | escape (units : List Nat)
  /-- Behind some of the four digits of a code unit. -/
  | code (units : List Nat) (count value : Nat)

/-- The unit that a backslash and a character stand for. -/
def shortEscape? (c : Char) : Option Nat :=
  if c = '"' ∨ c = '\\' ∨ c = '/' then some c.toNat
  else if c = 'n' then some 0x0a
  else if c = 'r' then some 0x0d
  else if c = 't' then some 0x09
  else if c = 'f' then some 0x0c
  else if c = 'b' then some 0x08
  else none

/-- The reading of a literal goes on with a character. The quotation mark that ends the literal is
none. -/
def Literal.step : Literal → Char → Option Literal
  | .plain units, c =>
    if c = '"' then none
    else if c = '\\' then some (.escape units)
    else some (.plain (units ++ [c.toNat]))
  | .escape units, c =>
    if c = 'u' then some (.code units 0 0)
    else (shortEscape? c).map fun unit => .plain (units ++ [unit])
  | .code units count value, c => (Text.hexValue? c).map fun digit =>
    if count = 3 then .plain (units ++ [16 * value + digit])
    else .code units (count + 1) (16 * value + digit)

namespace Literal

/-- Reading goes on over a text. -/
def steps (literal : Literal) (text : List Char) : Option Literal := text.foldlM step literal

/-- The escape of a code unit is read as this unit. -/
theorem steps_escapedUnit (units : List Nat) {unit : Nat} (small : unit < 0x10000) :
    (plain units).steps (escapedUnit unit) = some (.plain (units ++ [unit])) := by
  have whole : 16 * (16 * (16 * (unit / 4096) + unit / 256 % 16) + unit / 16 % 16) + unit % 16 =
      unit := by omega
  rw [escapedUnit, Text.hex_four small]
  simp [steps, step, Text.hexValue?_digitChar (show unit / 4096 < 16 by omega),
    Text.hexValue?_digitChar (show unit / 256 % 16 < 16 by omega),
    Text.hexValue?_digitChar (show unit / 16 % 16 < 16 by omega),
    Text.hexValue?_digitChar (show unit % 16 < 16 by omega), whole]

/-- The escapes of two code units are read as these units. -/
theorem steps_pair (units : List Nat) {first second : Nat} (small : first < 0x10000)
    (small_second : second < 0x10000) :
    (plain units).steps (escapedUnit first ++ escapedUnit second) =
      some (.plain (units ++ [first, second])) := by
  have before := steps_escapedUnit units small
  have behind := steps_escapedUnit (units ++ [first]) small_second
  unfold steps at before behind ⊢
  rw [List.foldlM_append, before]
  simp only [Option.bind_eq_bind, Option.bind_some]
  rw [behind, List.append_assoc, List.singleton_append]

/-- A character behind a backslash is read as what the two stand for. -/
theorem steps_short (units : List Nat) {c : Char} {unit : Nat} (short : shortEscape? c = some unit)
    (other : c ≠ 'u') : (plain units).steps ['\\', c] = some (.plain (units ++ [unit])) := by
  simp [steps, step, short, other]

/-- What a character is written as is read as the units of the character. -/
theorem steps_escaped (units : List Nat) (c : Char) :
    (plain units).steps (escaped c) = some (.plain (units ++ unitsOf c)) := by
  have basic : c.toNat < 0x10000 → unitsOf c = [c.toNat] := fun small => if_pos small
  unfold escaped
  split_ifs with marked feed back tab page bell shown small
  · have mark : c = '"' ∨ c = '\\' := by simpa using marked
    rcases mark with rfl | rfl
    · exact steps_short units rfl (by decide)
    · exact steps_short units rfl (by decide)
  · subst feed
    exact steps_short units rfl (by decide)
  · subst back
    exact steps_short units rfl (by decide)
  · subst tab
    exact steps_short units rfl (by decide)
  · rw [basic (by omega), page]
    exact steps_short units rfl (by decide)
  · rw [basic (by omega), bell]
    exact steps_short units rfl (by decide)
  · have other : c ≠ '"' ∧ c ≠ '\\' := by simpa using marked
    have bound : c.toNat ≤ '~'.toNat := by
      simp only [Bool.and_eq_true, decide_eq_true_eq] at shown
      exact shown.2
    have tilde : '~'.toNat = 126 := rfl
    rw [basic (by omega)]
    simp [steps, step, other]
  · rw [basic small]
    exact steps_escapedUnit units small
  · have bound := toNat_lt c
    rw [steps_pair units (by omega) (by omega), unitsOf, if_neg small]

/-- What a text is written as between quotation marks is read as the units of its characters. -/
theorem steps_text (units : List Nat) (text : List Char) :
    (plain units).steps (text.flatMap escaped) = some (.plain (units ++ text.flatMap unitsOf)) := by
  induction text generalizing units with
  | nil => simp [steps]
  | cons c text ih =>
    have first := steps_escaped units c
    have onward := ih (units ++ unitsOf c)
    unfold steps at first onward ⊢
    rw [List.flatMap_cons, List.foldlM_append, first]
    simp only [Option.bind_eq_bind, Option.bind_some]
    rw [onward, List.flatMap_cons, List.append_assoc]

end Literal

end Json

end ExprLang
