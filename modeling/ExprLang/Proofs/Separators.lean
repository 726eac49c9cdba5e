import Mathlib.Data.List.Chain
import ExprLang.Proofs.Layout
import ExprLang.Proofs.Reading.Spelled

/-!
# Separators

A text is put together from lexemes with separators around them. Most lexemes may stand side by
side: a separator is needed only where two of them would be read as one, which are two words, two
numbers, and a sign that an equality sign would make longer (`Lexeme.Clashes`). A text with these
separators is read as its lexemes, each with its kind (`tokenize_separated`).
-/

namespace ExprLang

namespace Lexeme

/-- A word, a number or a sign, with the kind that it has in the vocabulary. -/
structure Legal (lexeme : Lexeme) : Prop where
  /-- The text goes with the kind. -/
  genuine : lexeme.Genuine
  /-- The kind is one of those that constructs are made of. -/
  visible : lexeme.kind ≠ .endOfInput ∧ lexeme.kind ≠ .lineBreak ∧ lexeme.kind ≠ .illegal

/-- Whether a lexeme is written with letters only. -/
def isWord (lexeme : Lexeme) : Bool := lexeme.text.toList.all isLetter

/-- Whether a lexeme is written with digits only. -/
def isNumber (lexeme : Lexeme) : Bool := lexeme.text.toList.all isDigit

/-- Two lexemes would be read as one, or as others, without a separator: two words, two numbers, and
a sign that an equality sign makes longer. -/
def Clashes (left right : Lexeme) : Prop :=
  (left.isWord = true ∧ right.isWord = true) ∨ (left.isNumber = true ∧ right.isNumber = true) ∨
    ((left.text = "=" ∨ left.text = "!") ∧ (right.text = "=" ∨ right.text = "=="))

instance (left right : Lexeme) : Decidable (left.Clashes right) :=
  inferInstanceAs (Decidable (_ ∨ _ ∨ _))

/-- The first character of a lexeme tells what its text is made of. -/
structure Opens (lexeme : Lexeme) (c : Char) : Prop where
  /-- A letter opens a word. -/
  letter : isLetter c = true → lexeme.isWord = true
  /-- A digit opens a number. -/
  digit : isDigit c = true → lexeme.isNumber = true
  /-- An equality sign opens itself or the sign of equality. -/
  equality : c = '=' → lexeme.text = "=" ∨ lexeme.text = "=="

/-- A lexeme opens with its first character. -/
theorem Legal.opens {lexeme : Lexeme} (legal : lexeme.Legal) :
    ∃ c rest, lexeme.text.toList = c :: rest ∧ lexeme.Opens c := by
  obtain ⟨genuine, visible⟩ := legal
  cases genuine with
  | @word word some_letter letters =>
    obtain ⟨c, rest, split⟩ :=
      List.exists_cons_of_ne_nil (mt String.toList_eq_nil_iff.mp some_letter)
    have letter := letters c (by rw [split]; exact List.mem_cons_self)
    refine ⟨c, rest, split, fun _ => List.all_eq_true.mpr letters, fun digit => ?_, ?_⟩
    · exact absurd (letter.symm.trans (not_letter_of_digit digit)) (by decide)
    · rintro rfl
      exact absurd letter (by decide)
  | @number digits some_digit all_digits =>
    obtain ⟨c, rest, split⟩ := List.exists_cons_of_ne_nil some_digit
    have digit := all_digits c (by rw [split]; exact List.mem_cons_self)
    refine ⟨c, rest, split, fun letter => ?_, fun _ => List.all_eq_true.mpr all_digits, ?_⟩
    · exact absurd (letter.symm.trans (not_letter_of_digit digit)) (by decide)
    · rintro rfl
      exact absurd digit (by decide)
  | @single entry listed =>
    have signs : ∀ entry ∈ singleSigns, isLetter entry.1 = false ∧ isDigit entry.1 = false := by
      decide
    obtain ⟨letter, digit⟩ := signs entry listed
    refine ⟨entry.1, [], String.toList_ofList, ?_, ?_, fun same => .inl ?_⟩
    · simp [letter]
    · simp [digit]
    · rw [same]
  | @double entry listed =>
    have signs : ∀ entry ∈ doubleSigns, isLetter entry.1.1 = false ∧ isDigit entry.1.1 = false ∧
        (entry.1.1 = '=' → String.ofList [entry.1.1, entry.1.2] = "==") := by decide
    obtain ⟨letter, digit, equality⟩ := signs entry listed
    refine ⟨entry.1.1, [entry.1.2], String.toList_ofList, ?_, ?_, fun same => .inr (equality same)⟩
    · simp [letter]
    · simp [digit]
  | other kind =>
    rcases kind with kind | kind | kind
    · exact absurd kind visible.1
    · exact absurd kind visible.2.1
    · exact absurd kind visible.2.2

/-- A text behind a lexeme that its text does not go on with. -/
structure Ends (lexeme : Lexeme) (rest : List Char) : Prop where
  /-- No letter behind a word. -/
  word : lexeme.isWord = true → ∀ c ∈ rest.head?, isLetter c = false
  /-- No digit behind a number. -/
  number : lexeme.isNumber = true → ∀ c ∈ rest.head?, isDigit c = false
  /-- No equality sign behind a sign that it makes longer. -/
  sign : lexeme.text = "=" ∨ lexeme.text = "!" → ∀ c ∈ rest.head?, c ≠ '='

/-- A lexeme is read in front of a text that it does not go on with. -/
theorem Legal.front {lexeme : Lexeme} (legal : lexeme.Legal) {rest : List Char}
    (ends : lexeme.Ends rest) : front (lexeme.text.toList ++ rest) = lexeme := by
  obtain ⟨genuine, visible⟩ := legal
  cases genuine with
  | @word word some_letter letters =>
    have read := front_word (mt String.toList_eq_nil_iff.mp some_letter) letters
      (ends.word (List.all_eq_true.mpr letters))
    rwa [String.ofList_toList] at read
  | @number digits some_digit all_digits =>
    have read := front_number some_digit all_digits
      (ends.number (List.all_eq_true.mpr all_digits))
    rwa [String.ofList_toList] at read
  | @single entry listed =>
    have signs : ∀ entry ∈ singleSigns, (singleSigns.lookup entry.1).isSome = true ∧
        ofSingle entry.1 = ⟨entry.2, String.ofList [entry.1]⟩ := by decide
    obtain ⟨found, same⟩ := signs entry listed
    rw [String.toList_ofList, ← same]
    refine front_sign found rest fun sign => ends.sign ?_
    rcases sign with sign | sign
    · exact .inl (by rw [sign])
    · exact .inr (by rw [sign])
  | @double entry listed =>
    rw [String.toList_ofList]
    simp only [doubleSigns, List.mem_cons, List.not_mem_nil, or_false] at listed
    rcases listed with rfl | rfl
    · rfl
    · rfl
  | other kind =>
    rcases kind with kind | kind | kind
    · exact absurd kind visible.1
    · exact absurd kind visible.2.1
    · exact absurd kind visible.2.2

end Lexeme

/-! ## Separators between lexemes -/

/-- A separator is no part of what a text spells. -/
theorem Gap.spells {gap rest : List Char} {lexemes : List Lexeme} (separates : Gap false gap)
    (behind : Spells rest lexemes) : Spells (gap ++ rest) lexemes := by
  induction separates with
  | none => exact behind
  | blank blank _ ih =>
    refine .gap ?_ ih
    rcases blank with rfl | rfl
    · exact .inl rfl
    · exact .inr (.inl rfl)
  | feed _ _ ih => exact .gap (.inr (.inr rfl)) ih
  | lineBreak _ _ ih => exact .lineBreak ih

/-- No lexeme goes on with a separator. -/
theorem Gap.apart {gap : List Char} (separates : Gap false gap) (some_gap : gap ≠ [])
    (rest : List Char) : Apart (gap ++ rest) := by
  cases separates with
  | none => exact absurd rfl some_gap
  | blank blank _ =>
    rcases blank with rfl | rfl
    · exact .cons (by decide) _
    · exact .cons (by decide) _
  | feed => exact .cons (by decide) _
  | lineBreak => exact .cons (by decide) _

/-- Lexemes, each with the separator behind it. -/
abbrev Separated : Type := List (Lexeme × String)

namespace Separated

/-- The text of some lexemes with their separators. -/
def text (parts : Separated) : String :=
  String.join (parts.map fun part => part.1.text ++ part.2)

/-- Lexemes with separators that suffice: none is needed but between lexemes that clash. -/
structure Legible (parts : Separated) : Prop where
  /-- Each part is a lexeme and a separator. -/
  legal : ∀ part ∈ parts, part.1.Legal ∧ Gap false part.2.toList
  /-- Lexemes that clash are kept apart. -/
  apart : parts.IsChain fun left right => left.1.Clashes right.1 → left.2 ≠ ""

/-- The text of a lexeme with its separator in front of others. -/
theorem toList_text_cons (part : Lexeme × String) (parts : Separated) :
    (text (part :: parts)).toList =
      part.1.text.toList ++ (part.2.toList ++ (text parts).toList) := by
  simp [text]

/-- What a lexeme stands in front of does not go on with its text. -/
theorem Legible.ends {part : Lexeme × String} {parts : Separated}
    (legible : Legible (part :: parts)) :
    part.1.Ends (part.2.toList ++ (text parts).toList) := by
  have separates := (legible.legal part List.mem_cons_self).2
  by_cases some_gap : part.2 = ""
  · rw [some_gap]
    cases parts with
    | nil => exact ⟨fun _ => nofun, fun _ => nofun, fun _ => nofun⟩
    | cons next parts =>
      obtain ⟨c, rest, split, opens⟩ :=
        (legible.legal next (List.mem_cons_of_mem _ List.mem_cons_self)).1.opens
      have free : ¬ part.1.Clashes next.1 := fun clash =>
        (List.isChain_cons_cons.mp legible.apart).1 clash some_gap
      rw [toList_text_cons, split]
      refine ⟨fun word => ?_, fun number => ?_, fun sign => ?_⟩
      · rintro _ ⟨⟩
        exact Bool.eq_false_iff.mpr fun letter => free (.inl ⟨word, opens.letter letter⟩)
      · rintro _ ⟨⟩
        exact Bool.eq_false_iff.mpr fun digit => free (.inr (.inl ⟨number, opens.digit digit⟩))
      · rintro _ ⟨⟩ same
        exact free (.inr (.inr ⟨sign, opens.equality same⟩))
  · have apart := separates.apart (mt String.toList_eq_nil_iff.mp some_gap) (text parts).toList
    exact ⟨fun _ c found => (apart c found).1, fun _ c found => (apart c found).2.1,
      fun _ c found => (apart c found).2.2⟩

/-- Lexemes with sufficient separators are what their text spells. -/
theorem Legible.spells {parts : Separated} (legible : Legible parts) :
    Spells (text parts).toList (parts.map (·.1)) := by
  induction parts with
  | nil => exact .done
  | cons part parts ih =>
    have legal := legible.legal part List.mem_cons_self
    have behind : Legible parts :=
      ⟨fun other found => legible.legal other (List.mem_cons_of_mem _ found), legible.apart.tail⟩
    rw [toList_text_cons]
    exact .piece (legal.1.front legible.ends) String.ofList_toList.symm legal.1.visible
      (legal.2.spells (ih behind))

end Separated

/-- Reading undoes writing. Lexemes with separators around them, of which only those between lexemes
that clash need to be there, are read as these lexemes, and the end of input behind them. -/
theorem tokenize_separated {front : String} {parts : Separated} (separates : Gap false front.toList)
    (legible : parts.Legible) (nonempty : front ++ parts.text ≠ "") :
    ∃ tokens ending, tokenize (front ++ parts.text) false = .ok (tokens ++ [ending]) ∧
      tokens.map (·.toLexeme) = parts.map (·.1) ∧ ending.toLexeme = ⟨.endOfInput, ""⟩ := by
  have spells := separates.spells legible.spells
  rw [← String.toList_append] at spells
  exact ⟨_, _, tokenize_eq nonempty, sourceTokens_spelled spells,
    (sourceStream_scans _).ending_lexeme⟩

/-- Lexemes of all sorts, most of them side by side. -/
def Separated.dense : Separated :=
  [(⟨.identifier, "ab"⟩, ""), (⟨.integer, "007"⟩, ""), (⟨.letWord, "let"⟩, " "),
    (⟨.identifier, "_x"⟩, ""), (⟨.bang, "!"⟩, ""), (⟨.notEqual, "!="⟩, ""),
    (⟨.assign, "="⟩, "\r\n"), (⟨.equal, "=="⟩, ""), (⟨.assign, "="⟩, "\t\n"), (⟨.assign, "="⟩, "")]

/-- Lexemes of all sorts behind a line break. -/
theorem tokenize_separated_dense :
    Gap false "\n".toList ∧ Separated.dense.Legible ∧ "\n" ++ Separated.dense.text ≠ "" ∧
    ∃ tokens ending, tokenize ("\n" ++ Separated.dense.text) false = .ok (tokens ++ [ending]) ∧
      tokens.map (·.toLexeme) = Separated.dense.map (·.1) ∧
      ending.toLexeme = ⟨.endOfInput, ""⟩ := by
  have separates : Gap false "\n".toList := .feed rfl .none
  have legible : Separated.dense.Legible := by
    refine ⟨fun part found => ?_, by decide⟩
    simp only [Separated.dense, List.mem_cons, List.not_mem_nil, or_false] at found
    rcases found with rfl | rfl | rfl | rfl | rfl | rfl | rfl | rfl | rfl | rfl
    · exact ⟨⟨@Lexeme.Genuine.word "ab" (by decide) (List.all_eq_true.mp (by decide)), by decide⟩,
        .none⟩
    · exact ⟨⟨.number (by decide) (List.all_eq_true.mp (by decide)), by decide⟩, .none⟩
    · exact ⟨⟨@Lexeme.Genuine.word "let" (by decide) (List.all_eq_true.mp (by decide)), by decide⟩,
        .blank (.inl rfl) .none⟩
    · exact ⟨⟨@Lexeme.Genuine.word "_x" (by decide) (List.all_eq_true.mp (by decide)), by decide⟩,
        .none⟩
    · exact ⟨⟨@Lexeme.Genuine.single ('!', .bang) (by decide), by decide⟩, .none⟩
    · exact ⟨⟨@Lexeme.Genuine.double (('!', '='), .notEqual) (by decide), by decide⟩, .none⟩
    · exact ⟨⟨@Lexeme.Genuine.single ('=', .assign) (by decide), by decide⟩, .lineBreak rfl .none⟩
    · exact ⟨⟨@Lexeme.Genuine.double (('=', '='), .equal) (by decide), by decide⟩, .none⟩
    · exact ⟨⟨@Lexeme.Genuine.single ('=', .assign) (by decide), by decide⟩,
        .blank (.inr rfl) (.feed rfl .none)⟩
    · exact ⟨⟨@Lexeme.Genuine.single ('=', .assign) (by decide), by decide⟩, .none⟩
  exact ⟨separates, legible, by decide, tokenize_separated separates legible (by decide)⟩

end ExprLang
