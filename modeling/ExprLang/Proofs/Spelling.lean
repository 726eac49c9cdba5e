import ExprLang.Proofs.Scan

/-!
# Texts behind each other

What a text spells in front of another one. A word, a number or a sign is read alike in front of
every text that does not go on with a word, a number or an equality sign (`Apart`), and so is every
text (`Spells.append`): only a carriage return in front of a line feed is taken for a line break
with it. A text spells the lexemes of its tokens (`Scanner.Scans.spells`).
-/

namespace ExprLang

/-- A text that cannot be taken for the rest of a lexeme. -/
def Apart (text : List Char) : Prop :=
  ∀ c ∈ text.head?, isLetter c = false ∧ isDigit c = false ∧ c ≠ '='

/-- A character that goes on with no lexeme. -/
theorem Apart.cons {c : Char} (plain : isLetter c = false ∧ isDigit c = false ∧ c ≠ '=')
    (rest : List Char) : Apart (c :: rest) := by
  rintro _ ⟨⟩
  exact plain

/-! ## Lexemes in front of a text -/

/-- The longest run of a class of characters in front of a text of another class. -/
theorem takeWhile_run {accepts : Char → Bool} {run rest : List Char}
    (inside : ∀ c ∈ run, accepts c = true) (outside : ∀ c ∈ rest.head?, accepts c = false) :
    (run ++ rest).takeWhile accepts = run := by
  rw [List.takeWhile_append_of_pos inside]
  cases rest with
  | nil => exact List.append_nil run
  | cons c rest =>
    have stops := outside c rfl
    rw [List.takeWhile_cons, stops]
    exact List.append_nil run

namespace Lexeme

/-- In front of a text that begins with a letter there is its longest word. -/
theorem front_letter {c : Char} (letter : isLetter c = true) (rest : List Char) :
    front (c :: rest) = ofWord (String.ofList ((c :: rest).takeWhile isLetter)) := by
  have feed : c ≠ '\n' := by
    rintro rfl
    exact absurd letter (by decide)
  have back : c ≠ '\r' := by
    rintro rfl
    exact absurd letter (by decide)
  rw [front_cons feed (fun same => absurd same back), if_pos letter]

/-- A text in front of which there is a word. -/
theorem front_word {word rest : List Char} (some_letter : word ≠ [])
    (letters : ∀ c ∈ word, isLetter c = true) (ends : ∀ c ∈ rest.head?, isLetter c = false) :
    front (word ++ rest) = ofWord (String.ofList word) := by
  obtain ⟨c, behind, rfl⟩ := List.exists_cons_of_ne_nil some_letter
  have letter := letters c List.mem_cons_self
  have run := takeWhile_run letters ends
  rw [List.cons_append] at run ⊢
  rw [front_letter letter, run]

/-- No letter is a digit. -/
theorem not_letter_of_digit {c : Char} (digit : isDigit c = true) : isLetter c = false := by
  simp only [isDigit, Bool.and_eq_true, decide_eq_true_eq, Char.le_def, UInt32.le_iff_toNat_le]
    at digit
  simp only [isLetter, Bool.or_eq_false_iff, Bool.and_eq_false_iff, decide_eq_false_iff_not,
    Char.le_def, UInt32.le_iff_toNat_le]
  refine ⟨⟨?_, ?_⟩, ?_⟩
  · rintro rfl
    exact absurd digit.2 (by decide)
  · left
    intro lower
    have bounds := Nat.le_trans lower digit.2
    exact absurd bounds (by decide)
  · left
    intro upper
    have bounds := Nat.le_trans upper digit.2
    exact absurd bounds (by decide)

/-- In front of a text that begins with a digit there is its longest number. -/
theorem front_digit {c : Char} (digit : isDigit c = true) (rest : List Char) :
    front (c :: rest) = ⟨.integer, String.ofList ((c :: rest).takeWhile isDigit)⟩ := by
  have feed : c ≠ '\n' := by
    rintro rfl
    exact absurd digit (by decide)
  have back : c ≠ '\r' := by
    rintro rfl
    exact absurd digit (by decide)
  rw [front_cons feed (fun same => absurd same back), not_letter_of_digit digit,
    if_neg Bool.false_ne_true, if_pos digit]

/-- A text in front of which there is a number. -/
theorem front_number {digits rest : List Char} (some_digit : digits ≠ [])
    (all_digits : ∀ c ∈ digits, isDigit c = true) (ends : ∀ c ∈ rest.head?, isDigit c = false) :
    front (digits ++ rest) = ⟨.integer, String.ofList digits⟩ := by
  obtain ⟨c, behind, rfl⟩ := List.exists_cons_of_ne_nil some_digit
  have digit := all_digits c List.mem_cons_self
  have run := takeWhile_run all_digits ends
  rw [List.cons_append] at run ⊢
  rw [front_digit digit, run]

/-- A text in front of which there is a sign of one character. -/
theorem front_sign {c : Char} (listed : (singleSigns.lookup c).isSome = true) (rest : List Char)
    (short : c = '=' ∨ c = '!' → ∀ next ∈ rest.head?, next ≠ '=') :
    front (c :: rest) = ofSingle c := by
  obtain ⟨kind, found⟩ := Option.isSome_iff_exists.mp listed
  have plain : ∀ entry ∈ singleSigns, isLetter entry.1 = false ∧ isDigit entry.1 = false ∧
      entry.1 ≠ '\n' ∧ entry.1 ≠ '\r' := by decide
  obtain ⟨letter, digit, feed, back⟩ := plain _ (mem_of_lookup found)
  have single : doubleSign? (c :: rest) = none := by
    cases double : doubleSign? (c :: rest) with
    | none => rfl
    | some lexeme =>
      obtain ⟨first, second, behind, same, -, listed⟩ := doubleSign?_eq_some double
      cases same
      have signs : ∀ entry ∈ doubleSigns, (entry.1.1 = '=' ∨ entry.1.1 = '!') ∧
          entry.1.2 = '=' := by decide
      have sign := signs _ listed
      exact absurd sign.2 (short sign.1 second rfl)
  rw [front_cons feed (fun same => absurd same back), letter, digit, single]
  rfl

end Lexeme

namespace Spells

/-! ## Pieces of a text -/

/-- A lexeme in front of a spelled text. -/
theorem piece {text rest : List Char} {lexeme : Lexeme} {more : List Lexeme}
    (read : Lexeme.front (text ++ rest) = lexeme) (shown : lexeme.text = String.ofList text)
    (kind : lexeme.kind ≠ .endOfInput ∧ lexeme.kind ≠ .lineBreak ∧ lexeme.kind ≠ .illegal)
    (behind : Spells rest more) : Spells (text ++ rest) (lexeme :: more) := by
  subst read
  have blank : ∀ c, c = ' ' ∨ c = '\t' → ∀ left, text ++ rest ≠ c :: left := by
    rintro c (rfl | rfl) left same
    · rw [same] at kind
      cases left <;> exact kind.2.2 rfl
    · rw [same] at kind
      cases left <;> exact kind.2.2 rfl
  refine .lexeme (blank _ (.inl rfl)) (blank _ (.inr rfl)) kind.1 kind.2.1 ?_
  rw [shown, String.length_ofList, List.drop_left]
  exact behind

/-- A space in front of a spelled text. -/
theorem space {rest : List Char} {more : List Lexeme} (behind : Spells rest more) :
    Spells (' ' :: rest) more := .gap (.inl rfl) behind

/-- A sign in front of a spelled text. -/
theorem sign {c : Char} {rest : List Char} {more : List Lexeme}
    (single : (singleSigns.lookup c).isSome = true ∧ c ≠ '=' ∧ c ≠ '!')
    (behind : Spells rest more) : Spells (c :: rest) (.ofSingle c :: more) := by
  obtain ⟨listed, not_equal, not_bang⟩ := single
  have read : Lexeme.front ([c] ++ rest) = .ofSingle c :=
    Lexeme.front_sign listed rest fun double => absurd double (not_or.mpr ⟨not_equal, not_bang⟩)
  have kinds : ∀ entry ∈ singleSigns, entry.2 ≠ .endOfInput ∧ entry.2 ≠ .lineBreak ∧
      entry.2 ≠ .illegal := by decide
  obtain ⟨kind, found⟩ := Option.isSome_iff_exists.mp listed
  have same : (Lexeme.ofSingle c).kind = kind := by simp [Lexeme.ofSingle, found]
  refine piece read rfl ?_ behind
  rw [same]
  exact kinds _ (Lexeme.mem_of_lookup found)

/-- The sign of a binding in front of a space and a spelled text. -/
theorem assign {rest : List Char} {more : List Lexeme} (behind : Spells (' ' :: rest) more) :
    Spells ('=' :: ' ' :: rest) (.ofSingle '=' :: more) := by
  have read : Lexeme.front (['='] ++ ' ' :: rest) = .ofSingle '=' :=
    Lexeme.front_sign (by decide) _ fun _ => by
      rintro _ ⟨⟩
      decide
  exact piece read rfl (by decide) behind

/-- A word in front of a spelled text. -/
theorem word {word : String} {rest : List Char} {more : List Lexeme} (some_letter : word ≠ "")
    (letters : ∀ c ∈ word.toList, isLetter c = true) (apart : Apart rest)
    (behind : Spells rest more) : Spells (word.toList ++ rest) (.ofWord word :: more) := by
  have read := Lexeme.front_word (fun none => some_letter (String.toList_eq_nil_iff.mp none))
    letters fun c found => (apart c found).1
  rw [String.ofList_toList] at read
  refine piece read (String.ofList_toList).symm ?_ behind
  rcases Lexeme.ofWord_kind word with kind | listed
  · rw [kind]
    decide
  · have kinds : ∀ entry ∈ keywords, entry.2 ≠ .endOfInput ∧ entry.2 ≠ .lineBreak ∧
        entry.2 ≠ .illegal := by decide
    exact kinds _ listed

/-- A reserved word in front of a spelled text. -/
theorem reserved {word : String} {rest : List Char} {more : List Lexeme}
    (listed : word ∈ keywords.map (·.1)) (apart : Apart rest) (behind : Spells rest more) :
    Spells (word.toList ++ rest) (.ofWord word :: more) := by
  have letters : ∀ entry ∈ keywords, entry.1 ≠ "" ∧ entry.1.toList.all isLetter = true := by
    decide
  obtain ⟨entry, found, rfl⟩ := List.mem_map.mp listed
  obtain ⟨some_letter, all_letters⟩ := letters entry found
  exact .word some_letter (List.all_eq_true.mp all_letters) apart behind

/-- A number in front of a spelled text. -/
theorem number {digits : String} {rest : List Char} {more : List Lexeme}
    (some_digit : digits.toList ≠ []) (all_digits : ∀ c ∈ digits.toList, isDigit c = true)
    (apart : Apart rest) (behind : Spells rest more) :
    Spells (digits.toList ++ rest) (⟨.integer, digits⟩ :: more) := by
  have read := Lexeme.front_number some_digit all_digits fun c found => (apart c found).2.1
  rw [String.ofList_toList] at read
  exact piece read (String.ofList_toList).symm ⟨nofun, nofun, nofun⟩ behind

/-- An operator in front of a spelled text that does not begin with an equality sign. -/
theorem operator {operator : String} {rest : List Char} {more : List Lexeme}
    (listed : operator ∈ ["-", "!"] ∨
      operator ∈ ["+", "-", "*", "/", "<", ">", "==", "!="])
    (apart : ∀ c ∈ rest.head?, c ≠ '=') (behind : Spells rest more) :
    Spells (operator.toList ++ rest) (.front operator.toList :: more) := by
  have known : operator ∈ ["+", "-", "*", "/", "<", ">", "==", "!=", "!"] := by
    rcases listed with sign | between
    · have signs : ∀ operator ∈ ["-", "!"],
          operator ∈ ["+", "-", "*", "/", "<", ">", "==", "!=", "!"] := by decide
      exact signs operator sign
    · exact List.mem_append_left ["!"] between
  have read : Lexeme.front (operator.toList ++ rest) = .front operator.toList := by
    simp only [List.mem_cons, List.not_mem_nil, or_false] at known
    rcases known with rfl | rfl | rfl | rfl | rfl | rfl | rfl | rfl | rfl
    · exact Lexeme.front_sign (by decide) rest fun _ => apart
    · exact Lexeme.front_sign (by decide) rest fun _ => apart
    · exact Lexeme.front_sign (by decide) rest fun _ => apart
    · exact Lexeme.front_sign (by decide) rest fun _ => apart
    · exact Lexeme.front_sign (by decide) rest fun _ => apart
    · exact Lexeme.front_sign (by decide) rest fun _ => apart
    · rfl
    · rfl
    · exact Lexeme.front_sign (by decide) rest fun _ => apart
  have shown : ∀ operator ∈ ["+", "-", "*", "/", "<", ">", "==", "!=", "!"],
      (Lexeme.front operator.toList).text = String.ofList operator.toList ∧
        (Lexeme.front operator.toList).kind ≠ .endOfInput ∧
        (Lexeme.front operator.toList).kind ≠ .lineBreak ∧
        (Lexeme.front operator.toList).kind ≠ .illegal := by decide
  obtain ⟨text, kind⟩ := shown operator known
  exact piece read text kind behind

end Spells

/-! ## Texts in front of a text -/

/-- The longest run of a class of characters in front of a text ends before a text of another
class. -/
theorem takeWhile_apart {accepts : Char → Bool} {rest : List Char}
    (outside : ∀ c ∈ rest.head?, accepts c = false) (text : List Char) :
    (text ++ rest).takeWhile accepts = text.takeWhile accepts := by
  induction text with
  | nil => exact takeWhile_run nofun outside
  | cons c text ih => simp only [List.cons_append, List.takeWhile_cons, ih]

/-- A sign of two characters ends before a text that is kept apart. -/
theorem Lexeme.doubleSign?_apart {text rest : List Char} (some_text : text ≠ [])
    (apart : Apart rest) : doubleSign? (text ++ rest) = doubleSign? text := by
  match text with
  | [] => exact absurd rfl some_text
  | c :: d :: behind => rfl
  | [c] =>
    cases found : doubleSign? ([c] ++ rest) with
    | none => rfl
    | some lexeme =>
      obtain ⟨first, second, behind, same, -, listed⟩ := doubleSign?_eq_some found
      obtain ⟨rfl, rfl⟩ := List.cons.inj same
      have signs : ∀ entry ∈ doubleSigns, entry.1.2 = '=' := by decide
      exact absurd (signs _ listed) (apart second rfl).2.2

/-- The lexeme in front of a text ends before a text that is kept apart, unless the two are a line
break together. -/
theorem Lexeme.front_apart {text rest : List Char} (some_text : text ≠ []) (apart : Apart rest)
    (joint : text = ['\r'] → ∀ behind, rest ≠ '\n' :: behind) :
    front (text ++ rest) = front text := by
  obtain ⟨c, behind, rfl⟩ := List.exists_cons_of_ne_nil some_text
  by_cases feed : c = '\n'
  · subst feed
    rfl
  by_cases both : c = '\r' ∧ ∃ after, behind = '\n' :: after
  · obtain ⟨rfl, after, rfl⟩ := both
    rfl
  · have back : c = '\r' → ∀ after, behind ≠ '\n' :: after :=
      fun same after next => both ⟨same, after, next⟩
    have back_apart : c = '\r' → ∀ after, behind ++ rest ≠ '\n' :: after := by
      intro same after next
      cases behind with
      | nil => exact joint (by rw [same]) after next
      | cons d behind =>
        obtain rfl : d = '\n' := (List.cons.inj next).1
        exact back same behind rfl
    have double := doubleSign?_apart some_text apart
    have word := takeWhile_apart (fun next found => (apart next found).1) (c :: behind)
    have number := takeWhile_apart (fun next found => (apart next found).2.1) (c :: behind)
    rw [List.cons_append] at double word number ⊢
    rw [front_cons feed back, front_cons feed back_apart, double, word, number]

namespace Spells

/-- What a text spells in front of a text that is kept apart, where the two are no line break
together. -/
theorem append {text rest : List Char} {lexemes more : List Lexeme} (spells : Spells text lexemes)
    (apart : Apart rest) (joint : '\r' ∈ text.getLast? → ∀ behind, rest ≠ '\n' :: behind)
    (behind : Spells rest more) : Spells (text ++ rest) (lexemes ++ more) := by
  induction spells with
  | done => exact behind
  | @gap c text lexemes blank _ ih =>
    refine .gap blank (ih fun last => joint ?_)
    rw [List.getLast?_cons, Option.mem_def.mp last]
    rfl
  | @lineBreak text lexemes _ ih =>
    refine .lineBreak (ih fun last => joint ?_)
    rw [List.getLast?_cons, List.getLast?_cons, Option.mem_def.mp last]
    rfl
  | @lexeme text lexemes space tab solid plain _ ih =>
    have some_text : text ≠ [] := fun ended => solid (Lexeme.front_kind_eq_endOfInput.mpr ended)
    have front : Lexeme.front (text ++ rest) = Lexeme.front text := by
      refine Lexeme.front_apart some_text apart fun alone => joint ?_
      rw [alone]
      rfl
    have within : (Lexeme.front text).text.length ≤ text.length := by
      rw [← String.length_toList]
      exact (Lexeme.front_isPrefix text).length_le
    have begins : ∀ c, (∀ after, text ≠ c :: after) → ∀ after, text ++ rest ≠ c :: after := by
      intro c absent after same
      obtain ⟨d, others, rfl⟩ := List.exists_cons_of_ne_nil some_text
      obtain rfl : d = c := (List.cons.inj same).1
      exact absent others rfl
    have left : Spells ((text ++ rest).drop (Lexeme.front (text ++ rest)).text.length)
        (lexemes ++ more) := by
      rw [front, List.drop_append_of_le_length within]
      refine ih fun last => joint ?_
      rw [List.getLast?_drop] at last
      split at last
      · cases last
      · exact last
    have whole := Spells.lexeme (begins _ space) (begins _ tab) (by rwa [front])
      (by rwa [front]) left
    rwa [front] at whole

/-- What a text with a line feed at its end spells in front of any text. -/
theorem append_feed {text rest : List Char} {lexemes more : List Lexeme}
    (spells : Spells (text ++ ['\n']) lexemes) (behind : Spells rest more) :
    Spells (text ++ '\n' :: rest) (lexemes ++ more) := by
  generalize whole : text ++ ['\n'] = line at spells
  induction spells generalizing text with
  | done => simp at whole
  | @gap c left lexemes blank inside ih =>
    cases text with
    | nil =>
      obtain ⟨rfl, rfl⟩ := List.cons.inj whole
      rw [inside.of_nil]
      exact .gap blank behind
    | cons d text =>
      obtain ⟨rfl, same⟩ := List.cons.inj whole
      exact .gap blank (ih same)
  | @lineBreak left lexemes inside ih =>
    match text with
    | [] => cases (List.cons.inj whole).1
    | [d] =>
      obtain ⟨rfl, same⟩ := List.cons.inj whole
      obtain rfl := (List.cons.inj same).2
      rw [inside.of_nil]
      exact .lineBreak behind
    | d :: e :: text =>
      obtain ⟨rfl, second⟩ := List.cons.inj whole
      obtain ⟨rfl, others⟩ := List.cons.inj second
      exact .lineBreak (ih others)
  | @lexeme line lexemes space tab solid plain inside ih =>
    subst whole
    have some_text : text ≠ [] := by
      rintro rfl
      exact plain rfl
    have alone : text ≠ ['\r'] := by
      rintro rfl
      exact plain rfl
    have feed : ∀ after, Lexeme.front (text ++ '\n' :: after) = Lexeme.front text :=
      fun after => Lexeme.front_apart some_text (.cons (by decide) after)
        fun same => absurd same alone
    have within : (Lexeme.front text).text.length ≤ text.length := by
      rw [← String.length_toList]
      exact (Lexeme.front_isPrefix text).length_le
    have begins : ∀ c, (∀ after, text ++ ['\n'] ≠ c :: after) →
        ∀ after, text ++ '\n' :: rest ≠ c :: after := by
      intro c absent after same
      obtain ⟨d, others, rfl⟩ := List.exists_cons_of_ne_nil some_text
      obtain rfl : d = c := (List.cons.inj same).1
      exact absent (others ++ ['\n']) rfl
    rw [feed] at solid plain ih ⊢
    have left : Spells ((text ++ '\n' :: rest).drop (Lexeme.front text).text.length)
        (lexemes ++ more) := by
      rw [List.drop_append_of_le_length within]
      exact ih (List.drop_append_of_le_length within).symm
    have whole := Spells.lexeme (begins _ space) (begins _ tab) (by rwa [feed]) (by rwa [feed])
      (by rw [feed]; exact left)
    rwa [feed] at whole

/-- A gap in front of a spelled text. -/
theorem of_gap {lexemes : List Lexeme} (text : List Char) (offset line lineStart : Nat)
    (spells : Spells (Scanner.skipFrom false text offset line lineStart).rest lexemes) :
    Spells text lexemes := by
  generalize drops : false = keepBreaks at spells
  fun_induction Scanner.skipFrom keepBreaks text offset line lineStart with
  | case1 _ _ _ _ ih => exact .gap (by decide) (ih spells)
  | case2 _ _ _ _ ih => exact .gap (by decide) (ih spells)
  | case3 _ _ _ _ keeps => exact absurd (drops.trans keeps) (by decide)
  | case4 _ _ _ _ _ ih => exact .gap (by decide) (ih spells)
  | case5 _ _ _ _ keeps => exact absurd (drops.trans keeps) (by decide)
  | case6 _ _ _ _ _ ih => exact .lineBreak (ih spells)
  | case7 => exact spells

end Spells

/-- A text spells the lexemes of its scan without line breaks. -/
theorem Scanner.Scans.spells {scanner : Scanner} {stream : TokenStream}
    (scans : scanner.Scans stream) (drops : scanner.keepBreaks = false) :
    Spells scanner.rest (stream.upcoming.map (·.toLexeme)) := by
  induction scans with
  | @done scanner ended =>
    have empty := scanner.next_kind_eq_endOfInput.mp ended
    unfold skipGap at empty
    rw [drops] at empty
    refine .of_gap _ scanner.offset scanner.line scanner.lineStart ?_
    rw [empty]
    exact .done
  | @token scanner rest ending more _ ih =>
    have behind := ih (scanner.next_keepBreaks.trans drops)
    have solid := skipFrom_solid scanner.keepBreaks scanner.rest scanner.offset scanner.line
      scanner.lineStart
    have breaks := skipFrom_unbroken scanner.rest scanner.offset scanner.line scanner.lineStart
    rw [← drops] at breaks
    have plain : (Lexeme.front scanner.skipGap.rest).kind ≠ .lineBreak := by
      intro broken
      rcases Lexeme.front_cases scanner.skipGap.rest with ⟨-, found⟩ | ⟨after, same, -⟩ |
        ⟨after, same, -⟩ | ⟨-, -, -, -, other⟩
      · exact absurd ((congrArg (·.kind) found).symm.trans broken) (by decide)
      · exact (breaks after).1 same
      · exact (breaks after).2 same
      · exact other broken
    rw [next_rest] at behind
    have first := Spells.lexeme (fun after => (solid after).1) (fun after => (solid after).2) more
      plain behind
    refine .of_gap _ scanner.offset scanner.line scanner.lineStart ?_
    rw [← drops]
    exact first

end ExprLang
