import ExprLang.Parser.Expression
import ExprLang.Proofs.Scan
import Mathlib.Data.Nat.Digits.Defs

/-!
# Digits

A row of ASCII digits writes a number, and the decimal text of a number writes this number. The
tokens of integers are such rows, so that only a row that is too long cannot be read.
-/

namespace ExprLang

/-- The digits of numbers are the ASCII digits. -/
theorem isDigit_eq (c : Char) : isDigit c = c.isDigit := by
  unfold isDigit Char.isDigit
  rfl

/-- Every row of digits writes a number. -/
theorem Text.readDecimal?_of_digits {digits : List Char} (some_digit : digits ≠ [])
    (all_digits : ∀ c ∈ digits, isDigit c = true) :
    Text.readDecimal? digits = some (Nat.ofDigitChars 10 digits 0) := by
  have fold : ∀ (digits : List Char) (value : Nat), (∀ c ∈ digits, isDigit c = true) →
      digits.foldlM (fun value c => (Text.decimalValue? c).map (10 * value + ·)) value =
        some (Nat.ofDigitChars 10 digits value) := by
    intro digits
    induction digits with
    | nil => exact fun _ _ => rfl
    | cons c digits ih =>
      intro value all
      have digit : c.isDigit = true := by
        rw [← isDigit_eq]
        exact all c List.mem_cons_self
      rw [List.foldlM_cons, Text.decimalValue?_of_isDigit digit, Nat.ofDigitChars_cons]
      exact ih _ fun other found => all other (List.mem_cons_of_mem _ found)
  cases digits with
  | nil => exact absurd rfl some_digit
  | cons c digits => exact fold (c :: digits) 0 all_digits

namespace Parser

/-- A row of digits that is not too long can be read as an integer. -/
theorem readInteger?_of_digits {text : String} (short : text.length ≤ maxDigits)
    (some_digit : text.toList ≠ []) (all_digits : ∀ c ∈ text.toList, isDigit c = true) :
    readInteger? text = some (Int.ofNat (Nat.ofDigitChars 10 text.toList 0)) := by
  unfold readInteger?
  rw [if_pos short, Text.readDecimal?_of_digits some_digit all_digits]
  rfl

/-- What is read from a row of digits is the number that it writes. -/
theorem readInteger?_digits_eq {text : String} {value : Int} (some_digit : text.toList ≠ [])
    (all_digits : ∀ c ∈ text.toList, isDigit c = true) (read : readInteger? text = some value) :
    value = Int.ofNat (Nat.ofDigitChars 10 text.toList 0) := by
  by_cases short : text.length ≤ maxDigits
  · rw [readInteger?_of_digits short some_digit all_digits] at read
    exact (Option.some.inj read).symm
  · rw [readInteger?, if_neg short] at read
    cases read

/-- A row of digits writes a number below the power of ten for its length. -/
theorem ofDigitChars_lt {digits : List Char} (all_digits : ∀ c ∈ digits, isDigit c = true)
    (start : Nat) :
    Nat.ofDigitChars 10 digits start < (start + 1) * 10 ^ digits.length := by
  induction digits generalizing start with
  | nil => simp
  | cons c digits ih =>
    have digit : c.isDigit = true := by
      rw [← isDigit_eq]
      exact all_digits c List.mem_cons_self
    have small : c.toNat - '0'.toNat ≤ 9 := by
      have bounds := Char.isDigit_iff_toNat.mp digit
      have nine : '9'.toNat - '0'.toNat = 9 := rfl
      omega
    have below := ih (fun other found => all_digits other (List.mem_cons_of_mem _ found))
      (10 * start + (c.toNat - '0'.toNat))
    rw [Nat.ofDigitChars_cons]
    calc
      Nat.ofDigitChars 10 digits (10 * start + (c.toNat - '0'.toNat)) <
          (10 * start + (c.toNat - '0'.toNat) + 1) * 10 ^ digits.length := below
      _ ≤ (start + 1) * 10 * 10 ^ digits.length := Nat.mul_le_mul_right _ (by omega)
      _ = (start + 1) * 10 ^ (c :: digits).length := by
        rw [List.length_cons, Nat.pow_succ', Nat.mul_assoc]

/-- The decimal text of a number is a row of digits. -/
theorem repr_digits (value : Nat) :
    value.repr.toList ≠ [] ∧ ∀ c ∈ value.repr.toList, isDigit c = true := by
  rw [Nat.toList_repr]
  refine ⟨Nat.toDigits_ne_nil, fun c found => ?_⟩
  rw [isDigit_eq]
  exact Nat.isDigit_of_mem_toDigits (by decide) (by decide) found

/-- The decimal text of a number is read as this number. -/
theorem readInteger?_repr {value : Nat} (short : value.repr.length ≤ maxDigits) :
    readInteger? value.repr = some (Int.ofNat value) := by
  obtain ⟨some_digit, all_digits⟩ := repr_digits value
  rw [readInteger?_of_digits short some_digit all_digits, Nat.toList_repr,
    Nat.ofDigitChars_ten_toDigits]

end Parser

/-! ## Integers of a source -/

/-- The text of a genuine integer is a row of digits. -/
theorem Lexeme.Genuine.digits {lexeme : Lexeme} (genuine : lexeme.Genuine)
    (integer : lexeme.kind = .integer) :
    lexeme.text.toList ≠ [] ∧ ∀ c ∈ lexeme.text.toList, isDigit c = true := by
  cases genuine with
  | number some_digit all_digits => exact ⟨some_digit, all_digits⟩
  | @word word _ _ =>
    have kinds : ∀ entry ∈ keywords, entry.2 ≠ .integer := by decide
    rcases ofWord_kind word with name | keyword
    · rw [name] at integer
      cases integer
    · exact absurd integer (kinds _ keyword)
  | single listed =>
    have kinds : ∀ entry ∈ singleSigns, entry.2 ≠ .integer := by decide
    exact absurd integer (kinds _ listed)
  | double listed =>
    have kinds : ∀ entry ∈ doubleSigns, entry.2 ≠ .integer := by decide
    exact absurd integer (kinds _ listed)
  | other kind => simp [integer] at kind

/-- The lexeme of an integer is a row of digits. -/
theorem Lexeme.front_integer {text : List Char} (integer : (front text).kind = .integer) :
    (front text).text.toList ≠ [] ∧ ∀ c ∈ (front text).text.toList, isDigit c = true :=
  (front_genuine text).digits integer

/-- The tokens of a scan are lexemes in front of a text. -/
theorem Scanner.Scans.front {scanner : Scanner} {stream : TokenStream}
    (scans : scanner.Scans stream) :
    ∀ token ∈ stream.upcoming, ∃ text, token.toLexeme = Lexeme.front text := by
  induction scans with
  | done => simp
  | @token scanner _ _ _ _ ih =>
    intro token found
    rcases List.mem_cons.mp found with rfl | behind
    · exact ⟨scanner.skipGap.rest, rfl⟩
    · exact ih token behind

end ExprLang
