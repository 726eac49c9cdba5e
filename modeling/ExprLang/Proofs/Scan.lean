import ExprLang.Scanner

/-!
# Scans of a source

A scan is the list of tokens that a scanner reads up to the end of its source, told without the
bound that the scanner counts off (`Scanner.Scans`). Three facts follow by induction on a scan:
it ends with the end of input, it does not see line breaks when they are dropped from the other
kind of scan (`Scans.without_breaks`), and its lexemes are those that the text spells, wherever
they stand (`Spells.scans`).
-/

namespace ExprLang

namespace Lexeme

/-! ## The lexeme in front -/

/-- A value found in a table stands in it. -/
theorem mem_of_lookup {α β : Type} [BEq α] [LawfulBEq α] {table : List (α × β)} {key : α}
    {value : β} (found : table.lookup key = some value) : (key, value) ∈ table := by
  obtain ⟨before, after, rfl, -⟩ := List.lookup_eq_some_iff.mp found
  simp

/-- A word is an identifier or a keyword. -/
theorem ofWord_kind (word : String) :
    (ofWord word).kind = .identifier ∨ (word, (ofWord word).kind) ∈ keywords := by
  unfold ofWord
  cases found : keywords.lookup word with
  | none => exact .inl rfl
  | some kind => exact .inr (mem_of_lookup found)

/-- A character is illegal or a sign. -/
theorem ofSingle_kind (c : Char) :
    (ofSingle c).kind = .illegal ∨ (c, (ofSingle c).kind) ∈ singleSigns := by
  unfold ofSingle
  cases found : singleSigns.lookup c with
  | none => exact .inl rfl
  | some kind => exact .inr (mem_of_lookup found)

/-- A sign of two characters is where the text starts. -/
theorem doubleSign?_eq_some {text : List Char} {lexeme : Lexeme}
    (found : doubleSign? text = some lexeme) :
    ∃ first second rest, text = first :: second :: rest ∧
      lexeme.text = String.ofList [first, second] ∧
        ((first, second), lexeme.kind) ∈ doubleSigns := by
  unfold doubleSign? at found
  split at found
  · rename_i first second rest
    obtain ⟨kind, listed, rfl⟩ := Option.map_eq_some_iff.mp found
    exact ⟨first, second, rest, rfl, rfl, mem_of_lookup listed⟩
  · cases found

/-- The lexeme in front of a text that does not begin with a line break. -/
theorem front_cons {c : Char} {rest : List Char} (feed : c ≠ '\n')
    (back : c = '\r' → ∀ behind, rest ≠ '\n' :: behind) :
    front (c :: rest) =
      if isLetter c then ofWord (String.ofList ((c :: rest).takeWhile isLetter))
      else if isDigit c then ⟨.integer, String.ofList ((c :: rest).takeWhile isDigit)⟩
      else (doubleSign? (c :: rest)).getD (ofSingle c) := by
  rw [front]
  · rintro rfl
    exact feed rfl
  · intro behind same after
    exact back same behind after

/-- The text of a lexeme is where the text starts. -/
theorem front_isPrefix (text : List Char) : (front text).text.toList <+: text := by
  unfold front
  split
  · simp
  · exact ⟨_, rfl⟩
  · exact ⟨_, rfl⟩
  · rename_i c rest _ _
    split
    · simpa [ofWord] using List.takeWhile_prefix isLetter
    · split
      · simpa using List.takeWhile_prefix isDigit
      · cases found : doubleSign? (c :: rest) with
        | none => exact ⟨rest, by simp [ofSingle]⟩
        | some lexeme =>
          obtain ⟨first, second, behind, same, shown, -⟩ := doubleSign?_eq_some found
          rw [same]
          exact ⟨behind, by simp [shown]⟩

/-- A text is its first lexeme and what is left behind it. -/
theorem front_append_drop (text : List Char) :
    (front text).text.toList ++ text.drop (front text).text.length = text := by
  rw [← String.length_toList]
  exact List.prefix_iff_eq_append.mp (front_isPrefix text)

/-- A lexeme in front of the end takes a character. -/
theorem front_length_pos {text : List Char} (more : text ≠ []) : 0 < (front text).text.length := by
  rw [← String.length_toList]
  unfold front
  split
  · exact absurd rfl more
  · decide
  · decide
  · rename_i c rest _ _
    split
    · rename_i letter
      simp [ofWord, letter]
    · split
      · rename_i digit
        simp [digit]
      · cases found : doubleSign? (c :: rest) with
        | none => simp [ofSingle]
        | some lexeme =>
          obtain ⟨first, second, behind, -, shown, -⟩ := doubleSign?_eq_some found
          simp [shown]

/-- A keyword is neither the end of input nor a line break. -/
theorem ofWord_plain (word : String) :
    (ofWord word).kind ≠ .endOfInput ∧ (ofWord word).kind ≠ .lineBreak := by
  rcases ofWord_kind word with plain | listed
  · simp [plain]
  · have kinds : ∀ entry ∈ keywords, entry.2 ≠ .endOfInput ∧ entry.2 ≠ .lineBreak := by decide
    exact kinds _ listed

/-- A character is neither the end of input nor a line break. -/
theorem ofSingle_plain (c : Char) :
    (ofSingle c).kind ≠ .endOfInput ∧ (ofSingle c).kind ≠ .lineBreak := by
  rcases ofSingle_kind c with plain | listed
  · simp [plain]
  · have kinds : ∀ entry ∈ singleSigns, entry.2 ≠ .endOfInput ∧ entry.2 ≠ .lineBreak := by decide
    exact kinds _ listed

/-- A sign of two characters is neither the end of input nor a line break. -/
theorem doubleSign?_plain {text : List Char} {lexeme : Lexeme}
    (found : doubleSign? text = some lexeme) :
    lexeme.kind ≠ .endOfInput ∧ lexeme.kind ≠ .lineBreak := by
  obtain ⟨first, second, rest, -, -, listed⟩ := doubleSign?_eq_some found
  have kinds : ∀ entry ∈ doubleSigns, entry.2 ≠ .endOfInput ∧ entry.2 ≠ .lineBreak := by decide
  exact kinds _ listed

/-- What a text starts with is the end of input, a line break, or plain. -/
theorem front_cases (text : List Char) :
    (text = [] ∧ front text = ⟨.endOfInput, ""⟩) ∨
      (∃ rest, text = '\n' :: rest ∧ front text = ⟨.lineBreak, "\n"⟩) ∨
      (∃ rest, text = '\r' :: '\n' :: rest ∧ front text = ⟨.lineBreak, "\r\n"⟩) ∨
      (text ≠ [] ∧ (∀ rest, text ≠ '\n' :: rest) ∧ (∀ rest, text ≠ '\r' :: '\n' :: rest) ∧
        (front text).kind ≠ .endOfInput ∧ (front text).kind ≠ .lineBreak) := by
  unfold front
  split
  · exact .inl ⟨rfl, rfl⟩
  · exact .inr (.inl ⟨_, rfl, rfl⟩)
  · exact .inr (.inr (.inl ⟨_, rfl, rfl⟩))
  · rename_i c rest feed both
    refine .inr (.inr (.inr ⟨List.cons_ne_nil _ _, ?_, ?_, ?_⟩))
    · intro behind same
      cases same
      exact feed rfl
    · intro behind same
      cases same
      exact both _ rfl rfl
    · split
      · exact ofWord_plain _
      · split
        · exact ⟨nofun, nofun⟩
        · cases found : doubleSign? (c :: rest) with
          | none => exact ofSingle_plain c
          | some lexeme => exact doubleSign?_plain found

/-- Only at its end does a text start with the end of input. -/
theorem front_kind_eq_endOfInput {text : List Char} :
    (front text).kind = .endOfInput ↔ text = [] := by
  rcases front_cases text with ⟨rfl, found⟩ | ⟨rest, rfl, found⟩ | ⟨rest, rfl, found⟩ |
    ⟨more, -, -, plain, -⟩
  · simp [found]
  · simp [found]
  · simp [found]
  · simp [more, plain]

/-- The lexemes that a text can start with. -/
inductive Genuine : Lexeme → Prop where
  /-- A word, reserved or not. -/
  | word {word : String} (some_letter : word ≠ "")
      (letters : ∀ c ∈ word.toList, isLetter c = true) : Genuine (ofWord word)
  /-- A number. -/
  | number {digits : String} (some_digit : digits.toList ≠ [])
      (all_digits : ∀ c ∈ digits.toList, isDigit c = true) : Genuine ⟨.integer, digits⟩
  /-- A sign of one character. -/
  | single {entry : Char × Kind} (listed : entry ∈ singleSigns) :
      Genuine ⟨entry.2, String.ofList [entry.1]⟩
  /-- A sign of two characters. -/
  | double {entry : (Char × Char) × Kind} (listed : entry ∈ doubleSigns) :
      Genuine ⟨entry.2, String.ofList [entry.1.1, entry.1.2]⟩
  /-- Anything that no construct has a place for. -/
  | other {lexeme : Lexeme} (kind : lexeme.kind = .endOfInput ∨ lexeme.kind = .lineBreak ∨
      lexeme.kind = .illegal) : Genuine lexeme

/-- What a text starts with is genuine. -/
theorem front_genuine (text : List Char) : (front text).Genuine := by
  unfold front
  split
  · exact .other (.inl rfl)
  · exact .other (.inr (.inl rfl))
  · exact .other (.inr (.inl rfl))
  · rename_i c rest _ _
    split
    · rename_i letter
      refine .word ?_ fun c found => ?_
      · simp [letter]
      · rw [String.toList_ofList] at found
        exact List.all_eq_true.mp List.all_takeWhile c found
    · split
      · rename_i digit
        refine .number ?_ fun c found => ?_
        · simp [digit]
        · rw [String.toList_ofList] at found
          exact List.all_eq_true.mp List.all_takeWhile c found
      · cases found : doubleSign? (c :: rest) with
        | none =>
          rcases ofSingle_kind c with illegal | listed
          · exact .other (.inr (.inr illegal))
          · exact .single listed
        | some lexeme =>
          obtain ⟨first, second, behind, -, shown, listed⟩ := doubleSign?_eq_some found
          obtain ⟨kind, _⟩ := lexeme
          obtain rfl := shown
          exact .double listed

/-- A text that starts with no line break lexeme starts with no line break. -/
theorem front_unbroken {text : List Char} (plain : (front text).kind ≠ .lineBreak) :
    (∀ rest, text ≠ '\n' :: rest) ∧ ∀ rest, text ≠ '\r' :: '\n' :: rest := by
  rcases front_cases text with ⟨ended, -⟩ | ⟨rest, -, found⟩ | ⟨rest, -, found⟩ |
    ⟨-, feed, both, -⟩
  · simp [ended]
  · exact absurd (congrArg (·.kind) found) plain
  · exact absurd (congrArg (·.kind) found) plain
  · exact ⟨feed, both⟩

end Lexeme

namespace Scanner

/-! ## Steps of a scanner -/

/-- A gap is part of the text. -/
theorem skipFrom_length (keepBreaks : Bool) (rest : List Char) (offset line lineStart : Nat) :
    (skipFrom keepBreaks rest offset line lineStart).rest.length ≤ rest.length := by
  fun_induction skipFrom keepBreaks rest offset line lineStart <;>
    simp only [List.length_cons] at * <;> omega

/-- What is left behind a token. -/
theorem next_rest (scanner : Scanner) :
    scanner.next.2.rest = scanner.skipGap.rest.drop scanner.next.1.text.length := by
  unfold next passLexeme
  dsimp only
  split <;> rfl

/-- A scan is over exactly when nothing is left behind the gap. -/
theorem next_kind_eq_endOfInput (scanner : Scanner) :
    scanner.next.1.kind = .endOfInput ↔ scanner.skipGap.rest = [] :=
  Lexeme.front_kind_eq_endOfInput

/-- A token in front of the end takes a character. -/
theorem next_shorter {scanner : Scanner} (more : scanner.next.1.kind ≠ .endOfInput) :
    scanner.next.2.rest.length < scanner.rest.length := by
  have solid : scanner.skipGap.rest ≠ [] := fun ended =>
    more (scanner.next_kind_eq_endOfInput.mpr ended)
  have taken : 0 < scanner.next.1.text.length := Lexeme.front_length_pos solid
  have gap : scanner.skipGap.rest.length ≤ scanner.rest.length := skipFrom_length _ _ _ _ _
  have left := List.length_pos_iff.mpr solid
  rw [next_rest, List.length_drop]
  omega

/-- The scans of a scanner: its tokens up to the first end of input. -/
inductive Scans : Scanner → TokenStream → Prop where
  /-- Nothing is left but the end. -/
  | done {scanner : Scanner} (ended : scanner.next.1.kind = .endOfInput) :
      Scans scanner ⟨[], scanner.next.1⟩
  /-- A token is followed by a scan. -/
  | token {scanner : Scanner} {rest : List Token} {ending : Token}
      (more : scanner.next.1.kind ≠ .endOfInput) (behind : Scans scanner.next.2 ⟨rest, ending⟩) :
      Scans scanner ⟨scanner.next.1 :: rest, ending⟩

/-- As many steps as characters are enough for a scan. -/
theorem drainWithin_scans (steps : List Char) (scanner : Scanner)
    (enough : scanner.rest.length ≤ steps.length) :
    Scans scanner (drainWithin steps scanner).1 := by
  induction steps generalizing scanner with
  | nil =>
    refine .done (scanner.next_kind_eq_endOfInput.mpr ?_)
    have gap : scanner.skipGap.rest.length ≤ scanner.rest.length := skipFrom_length _ _ _ _ _
    simp only [List.length_nil] at enough
    exact List.eq_nil_of_length_eq_zero (by omega)
  | cons step steps ih =>
    unfold drainWithin
    dsimp only
    split
    · rename_i ended
      exact .done ended
    · rename_i more
      have shorter := next_shorter more
      rw [List.length_cons] at enough
      exact .token more (ih scanner.next.2 (by omega))

/-- Draining a scanner gives a scan. -/
theorem drain_scans (scanner : Scanner) : Scans scanner scanner.drain.1 :=
  drainWithin_scans _ scanner (Nat.le_refl _)

namespace Scans

variable {scanner other : Scanner} {stream stream' : TokenStream}

/-- A scanner has one scan. -/
theorem unique (left : Scans scanner stream) (right : Scans scanner stream') :
    stream = stream' := by
  induction left generalizing stream' with
  | done ended =>
    cases right with
    | done => rfl
    | token more => exact absurd ended more
  | token more behind ih =>
    cases right with
    | done ended => exact absurd ended more
    | token more behind =>
      cases ih behind
      rfl

/-- The next token and the place behind it are all that a scan depends on. -/
theorem of_next_eq (same : other.next = scanner.next) (scans : Scans scanner stream) :
    Scans other stream := by
  cases scans with
  | done ended =>
    rw [← same] at ended ⊢
    exact .done ended
  | token more behind =>
    rw [← same] at more behind ⊢
    exact .token more behind

/-- A scan ends with the end of input. -/
theorem ending_kind (scans : Scans scanner stream) : stream.ending.kind = .endOfInput := by
  induction scans with
  | done ended => exact ended
  | token _ _ ih => exact ih

/-- A scan ends with a lexeme without text. -/
theorem ending_lexeme (scans : Scans scanner stream) :
    stream.ending.toLexeme = ⟨.endOfInput, ""⟩ := by
  induction scans with
  | @done scanner ended =>
    have empty := scanner.next_kind_eq_endOfInput.mp ended
    change Lexeme.front scanner.skipGap.rest = _
    rw [empty]
    rfl
  | token _ _ ih => exact ih

/-- In front of its end a scan has no end of input. -/
theorem upcoming_kind (scans : Scans scanner stream) :
    ∀ token ∈ stream.upcoming, token.kind ≠ .endOfInput := by
  induction scans with
  | done => simp
  | token more _ ih => simpa using ⟨more, ih⟩

end Scans

/-! ## Scans without line breaks -/

/-- The scanner that drops line breaks, at the same place. -/
def dropping (scanner : Scanner) : Scanner := { scanner with keepBreaks := false }

/-- A gap with its line breaks begins with the gap without them. -/
theorem skipFrom_dropping (rest : List Char) (offset line lineStart : Nat) :
    skipFrom false rest offset line lineStart =
      (skipFrom true rest offset line lineStart).dropping.skipGap := by
  fun_induction skipFrom true rest offset line lineStart with
  | case1 rest offset line lineStart ih => rw [skipFrom, ih]
  | case2 rest offset line lineStart ih => rw [skipFrom, ih]
  | case3 => rfl
  | case4 => contradiction
  | case5 => rfl
  | case6 => contradiction
  | case7 => rfl

/-- The gap of a scanner that keeps line breaks is the first part of its gap without them. -/
theorem dropping_skipGap {scanner : Scanner} (keeps : scanner.keepBreaks = true) :
    scanner.dropping.skipGap = scanner.skipGap.dropping.skipGap := by
  have gap := skipFrom_dropping scanner.rest scanner.offset scanner.line scanner.lineStart
  unfold skipGap at gap ⊢
  rw [keeps]
  exact gap

/-- A gap does not change what becomes of line breaks. -/
theorem skipFrom_keepBreaks (keepBreaks : Bool) (rest : List Char) (offset line lineStart : Nat) :
    (skipFrom keepBreaks rest offset line lineStart).keepBreaks = keepBreaks := by
  fun_induction skipFrom keepBreaks rest offset line lineStart <;> first | rfl | assumption

/-- Reading a token does not change what becomes of line breaks. -/
theorem next_keepBreaks (scanner : Scanner) : scanner.next.2.keepBreaks = scanner.keepBreaks := by
  have gap : scanner.skipGap.keepBreaks = scanner.keepBreaks := skipFrom_keepBreaks _ _ _ _ _
  unfold next passLexeme
  dsimp only
  split <;> exact gap

/-- Behind a gap no blank is left. -/
theorem skipFrom_solid (keepBreaks : Bool) (rest : List Char) (offset line lineStart : Nat) :
    ∀ behind, (skipFrom keepBreaks rest offset line lineStart).rest ≠ ' ' :: behind ∧
      (skipFrom keepBreaks rest offset line lineStart).rest ≠ '\t' :: behind := by
  fun_induction skipFrom keepBreaks rest offset line lineStart with
  | case7 rest offset line lineStart space tab feed both =>
    intro behind
    exact ⟨fun same => space behind same, fun same => tab behind same⟩
  | _ => first | assumption | simp

/-- Behind a gap that takes line breaks no line break is left. -/
theorem skipFrom_unbroken (rest : List Char) (offset line lineStart : Nat) :
    ∀ behind, (skipFrom false rest offset line lineStart).rest ≠ '\n' :: behind ∧
      (skipFrom false rest offset line lineStart).rest ≠ '\r' :: '\n' :: behind := by
  generalize drops : false = keepBreaks
  fun_induction skipFrom keepBreaks rest offset line lineStart with
  | case3 _ _ _ _ keeps => exact absurd (drops.trans keeps) (by decide)
  | case5 _ _ _ _ keeps => exact absurd (drops.trans keeps) (by decide)
  | case7 rest offset line lineStart space tab feed both =>
    intro behind
    exact ⟨fun same => feed behind same, fun same => both behind same⟩
  | _ => assumption

/-- Where neither a blank nor a line break stands there is no gap. -/
theorem skipFrom_none {rest : List Char} (space : ∀ behind, rest ≠ ' ' :: behind)
    (tab : ∀ behind, rest ≠ '\t' :: behind) (feed : ∀ behind, rest ≠ '\n' :: behind)
    (both : ∀ behind, rest ≠ '\r' :: '\n' :: behind) (keepBreaks : Bool)
    (offset line lineStart : Nat) :
    skipFrom keepBreaks rest offset line lineStart =
      ⟨rest, offset, line, lineStart, keepBreaks⟩ := by
  unfold skipFrom
  split
  · exact absurd rfl (space _)
  · exact absurd rfl (tab _)
  · exact absurd rfl (feed _)
  · exact absurd rfl (both _)
  · rfl

/-- The next token is read behind the gap. -/
theorem next_congr {left right : Scanner} (same : left.skipGap = right.skipGap) :
    left.next = right.next := by
  unfold next
  rw [same]

/-- The run of a scanner for one token. -/
theorem next_run (scanner : Scanner) :
    scanner.next = (⟨Lexeme.front scanner.skipGap.rest, scanner.skipGap.position⟩,
      scanner.skipGap.passLexeme (Lexeme.front scanner.skipGap.rest)) := rfl

/-- Both kinds of scanners pass a lexeme alike. -/
theorem passLexeme_dropping (scanner : Scanner) (lexeme : Lexeme) :
    scanner.dropping.passLexeme lexeme = (scanner.passLexeme lexeme).dropping := by
  unfold passLexeme
  dsimp only
  split <;> rfl

/-- A token that is no line break is read alike by both kinds of scanners. -/
theorem dropping_next {scanner : Scanner} (keeps : scanner.keepBreaks = true)
    (plain : scanner.next.1.kind ≠ .lineBreak) :
    scanner.dropping.next = (scanner.next.1, scanner.next.2.dropping) := by
  have solid := skipFrom_solid scanner.keepBreaks scanner.rest scanner.offset scanner.line
    scanner.lineStart
  have unbroken := Lexeme.front_unbroken plain
  have gap : scanner.dropping.skipGap = scanner.skipGap.dropping := by
    rw [dropping_skipGap keeps]
    exact skipFrom_none (fun behind => (solid behind).1) (fun behind => (solid behind).2)
      unbroken.1 unbroken.2 false _ _ _
  rw [next_run, next_run, gap]
  exact Prod.ext rfl (scanner.skipGap.passLexeme_dropping _)

/-- Where line breaks are dropped, a line break is a part of the gap. -/
theorem skipGap_lineBreak (scanner : Scanner)
    (broken : (Lexeme.front scanner.rest).kind = .lineBreak) :
    scanner.dropping.skipGap =
      (scanner.passLexeme (Lexeme.front scanner.rest)).dropping.skipGap := by
  obtain ⟨text, offset, line, lineStart, keepBreaks⟩ := scanner
  rcases Lexeme.front_cases text with ⟨-, found⟩ | ⟨rest, rfl, -⟩ | ⟨rest, rfl, -⟩ |
    ⟨-, -, -, -, plain⟩
  · exact absurd ((congrArg (·.kind) found).symm.trans broken) (by decide)
  · have length : "\n".length = 1 := by decide
    simp [skipGap, dropping, skipFrom, passLexeme, Lexeme.front, pass, length]
  · have length : "\r\n".length = 2 := by decide
    simp [skipGap, dropping, skipFrom, passLexeme, Lexeme.front, pass, length]
  · exact absurd broken plain

/-- A scanner that drops line breaks reads the token behind a line break instead of it. -/
theorem dropping_lineBreak {scanner : Scanner} (keeps : scanner.keepBreaks = true)
    (broken : scanner.next.1.kind = .lineBreak) :
    scanner.dropping.next = scanner.next.2.dropping.next := by
  apply next_congr
  rw [dropping_skipGap keeps, skipGap_lineBreak _ broken]
  rfl

/-- Leaving the line breaks out of a scan gives the scan that drops them. -/
theorem Scans.without_breaks {scanner : Scanner} {stream : TokenStream}
    (scans : Scans scanner stream) (keeps : scanner.keepBreaks = true) :
    Scans scanner.dropping ⟨stream.visible, stream.ending⟩ := by
  induction scans with
  | @done scanner ended =>
    have same := dropping_next keeps (by rw [ended]; decide)
    have last : Scans scanner.dropping ⟨[], scanner.dropping.next.1⟩ := .done (by rwa [same])
    rwa [same] at last
  | @token scanner rest ending more behind ih =>
    have behind := ih (scanner.next_keepBreaks.trans keeps)
    by_cases broken : scanner.next.1.kind = .lineBreak
    · have hidden : (TokenStream.mk (scanner.next.1 :: rest) ending).visible =
          (TokenStream.mk rest ending).visible := by simp [TokenStream.visible, broken]
      rw [hidden]
      exact behind.of_next_eq (dropping_lineBreak keeps broken)
    · have shown : (TokenStream.mk (scanner.next.1 :: rest) ending).visible =
          scanner.next.1 :: (TokenStream.mk rest ending).visible := by
        simp [TokenStream.visible, broken]
      have same := dropping_next keeps broken
      have first : Scans scanner.dropping ⟨scanner.dropping.next.1 ::
          (TokenStream.mk rest ending).visible, ending⟩ :=
        .token (by rwa [same]) (by rwa [same])
      rw [shown]
      rwa [same] at first

end Scanner

/-- The tokens of a source that is not empty are what a scanner drains from its start. -/
theorem tokenize_drain {source : String} (nonempty : source ≠ "") (keepBreaks : Bool) :
    tokenize source keepBreaks = .ok (Scanner.ofText source keepBreaks).drain.1.toList := by
  unfold tokenize Scanner.start
  rw [if_neg nonempty]
  rfl

/-! ## Spelling -/

/-- A text spells a list of lexemes: it is made of them in order, with blanks and line breaks
between them, and nothing in it reads as a longer lexeme. -/
inductive Spells : List Char → List Lexeme → Prop where
  /-- The empty text. -/
  | done : Spells [] []
  /-- A blank or a line feed. -/
  | gap {c : Char} {rest : List Char} {lexemes : List Lexeme}
      (blank : c = ' ' ∨ c = '\t' ∨ c = '\n') (behind : Spells rest lexemes) :
      Spells (c :: rest) lexemes
  /-- A line break of two characters. -/
  | lineBreak {rest : List Char} {lexemes : List Lexeme} (behind : Spells rest lexemes) :
      Spells ('\r' :: '\n' :: rest) lexemes
  /-- The lexeme in front of the text. -/
  | lexeme {text : List Char} {lexemes : List Lexeme}
      (space : ∀ rest, text ≠ ' ' :: rest) (tab : ∀ rest, text ≠ '\t' :: rest)
      (more : (Lexeme.front text).kind ≠ .endOfInput)
      (plain : (Lexeme.front text).kind ≠ .lineBreak)
      (behind : Spells (text.drop (Lexeme.front text).text.length) lexemes) :
      Spells text (Lexeme.front text :: lexemes)

/-- The empty text spells no lexeme. -/
theorem Spells.of_nil {lexemes : List Lexeme} (spells : Spells [] lexemes) : lexemes = [] := by
  cases spells with
  | done => rfl
  | lexeme _ _ more => exact absurd rfl more

/-- A scan reads the same behind a part of its gap. -/
theorem Scanner.Scans.of_gap {scanner other : Scanner} {stream : TokenStream}
    (scans : scanner.Scans stream) (same : other.skipGap = scanner.skipGap) :
    other.Scans stream :=
  scans.of_next_eq (Scanner.next_congr same)

/-- A scan without line breaks reads the lexemes that the text spells. -/
theorem Spells.scans {text : List Char} {lexemes : List Lexeme} (spells : Spells text lexemes)
    {scanner : Scanner} {stream : TokenStream} (drops : scanner.keepBreaks = false)
    (here : scanner.rest = text) (scans : scanner.Scans stream) :
    stream.upcoming.map (·.toLexeme) = lexemes := by
  obtain ⟨characters, offset, line, lineStart, keepBreaks⟩ := scanner
  obtain rfl : characters = text := here
  obtain rfl : keepBreaks = false := drops
  induction spells generalizing offset line lineStart stream with
  | done =>
    have ended : (Scanner.mk [] offset line lineStart false).next.1.kind = .endOfInput := by
      rw [Scanner.next_kind_eq_endOfInput, Scanner.skipGap, Scanner.skipFrom_none] <;> simp
    cases scans with
    | done => rfl
    | token more => exact absurd ended more
  | gap blank _ ih =>
    rcases blank with rfl | rfl | rfl
    · exact ih (offset + 1) line lineStart
        (scans.of_gap (by simp [Scanner.skipGap, Scanner.skipFrom]))
    · exact ih (offset + 1) line lineStart
        (scans.of_gap (by simp [Scanner.skipGap, Scanner.skipFrom]))
    · exact ih (offset + 1) (line + 1) (offset + 1)
        (scans.of_gap (by simp [Scanner.skipGap, Scanner.skipFrom]))
  | lineBreak _ ih =>
    exact ih (offset + 2) (line + 1) (offset + 2)
      (scans.of_gap (by simp [Scanner.skipGap, Scanner.skipFrom]))
  | @lexeme text lexemes space tab more plain behind ih =>
    have unbroken := Lexeme.front_unbroken plain
    have run : (Scanner.mk text offset line lineStart false).next =
        (⟨Lexeme.front text, ⟨line, (offset : Int) - lineStart + 1⟩⟩,
          ⟨text.drop (Lexeme.front text).text.length, offset + (Lexeme.front text).text.length,
            line, lineStart, false⟩) := by
      rw [Scanner.next_run, Scanner.skipGap,
        Scanner.skipFrom_none space tab unbroken.1 unbroken.2]
      simp only [Scanner.passLexeme, if_neg plain]
      rfl
    cases scans with
    | done ended =>
      rw [run] at ended
      exact absurd ended more
    | token _ rest =>
      rw [run] at rest
      have read := ih _ _ _ rest
      rw [List.map_cons, read, run]

end ExprLang
