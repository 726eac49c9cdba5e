import Mathlib.Data.List.Infix
import ExprLang.Proofs.Spelling

/-!
# Longest match

What a text is as a whole, a word, a number, a line break or a sign, does not need a scanner to say
(`Lexeme.whole?`). From this alone a text falls into lexemes: behind blanks, the longest part in
front that is a lexeme as a whole is the next one, and a single character is illegal only where no
part is one (`Lexeme.munched`). The scanner, which looks no further than one character ahead, reads
every text like this (`tokenize_munches`).
-/

namespace ExprLang

namespace Lexeme

/-! ## Lexemes as whole texts -/

/-- The kind of the sign that a text is, if it is one. -/
def signKind? : List Char → Option Kind
  | [c] => singleSigns.lookup c
  | [first, second] => doubleSigns.lookup (first, second)
  | _ => none

/-- The lexeme that a text is as a whole, if it is one. -/
def whole? (text : List Char) : Option Lexeme :=
  if text = [] then none
  else if text.all isLetter then some (ofWord (String.ofList text))
  else if text.all isDigit then some ⟨.integer, String.ofList text⟩
  else if text = ['\n'] ∨ text = ['\r', '\n'] then some ⟨.lineBreak, String.ofList text⟩
  else (signKind? text).map (⟨·, String.ofList text⟩)

/-- The longest part in front of a text that is a lexeme as a whole. -/
def longest? (text : List Char) : Option Lexeme := text.inits.reverse.findSome? whole?

/-- The lexeme in front of a character and the text behind it: the longest one, or an illegal
character where there is none. -/
def munch (c : Char) (rest : List Char) : Lexeme :=
  (longest? (c :: rest)).getD ⟨.illegal, String.ofList [c]⟩

/-- The ways in which a text is a lexeme as a whole. -/
inductive Shaped : List Char → Prop where
  /-- A run of letters. -/
  | word {c : Char} {rest : List Char} (letters : (c :: rest).all isLetter = true) :
      Shaped (c :: rest)
  /-- A run of digits. -/
  | number {c : Char} {rest : List Char} (digits : (c :: rest).all isDigit = true) :
      Shaped (c :: rest)
  /-- A line feed. -/
  | feed : Shaped ['\n']
  /-- A line break of two characters. -/
  | lineBreak : Shaped ['\r', '\n']
  /-- A sign of one character. -/
  | single {c : Char} (listed : (singleSigns.lookup c).isSome = true) : Shaped [c]
  /-- A sign of two characters. -/
  | double {first second : Char} (listed : (doubleSigns.lookup (first, second)).isSome = true) :
      Shaped [first, second]

/-- A text of one of the shapes has a character. -/
theorem Shaped.length_pos {part : List Char} (shaped : Shaped part) : 0 < part.length := by
  cases shaped <;> exact Nat.succ_pos _

/-- A lexeme as a whole has its text for its own and one of the shapes. -/
theorem whole?_eq_some {part : List Char} {lexeme : Lexeme} (whole : whole? part = some lexeme) :
    lexeme.text = String.ofList part ∧ Shaped part := by
  unfold whole? at whole
  by_cases empty : part = []
  · rw [if_pos empty] at whole
    cases whole
  obtain ⟨c, rest, rfl⟩ := List.exists_cons_of_ne_nil empty
  rw [if_neg empty] at whole
  by_cases letters : (c :: rest).all isLetter = true
  · rw [if_pos letters] at whole
    cases whole
    exact ⟨rfl, .word letters⟩
  rw [if_neg letters] at whole
  by_cases digits : (c :: rest).all isDigit = true
  · rw [if_pos digits] at whole
    cases whole
    exact ⟨rfl, .number digits⟩
  rw [if_neg digits] at whole
  by_cases broken : c :: rest = ['\n'] ∨ c :: rest = ['\r', '\n']
  · rw [if_pos broken] at whole
    cases whole
    rcases broken with broken | broken
    · rw [broken]
      exact ⟨rfl, .feed⟩
    · rw [broken]
      exact ⟨rfl, .lineBreak⟩
  rw [if_neg broken] at whole
  obtain ⟨kind, found, rfl⟩ := Option.map_eq_some_iff.mp whole
  refine ⟨rfl, ?_⟩
  unfold signKind? at found
  split at found
  · rename_i same
    rw [same]
    exact .single (by rw [found]; rfl)
  · rename_i same
    rw [same]
    exact .double (by rw [found]; rfl)
  · cases found

/-- A run of letters is a word. -/
theorem whole?_word {run : List Char} (solid : run ≠ []) (letters : run.all isLetter = true) :
    whole? run = some (ofWord (String.ofList run)) := by
  rw [whole?, if_neg solid, if_pos letters]

/-- A run of digits is a number. -/
theorem whole?_number {run : List Char} (solid : run ≠ []) (digits : run.all isDigit = true) :
    whole? run = some ⟨.integer, String.ofList run⟩ := by
  obtain ⟨c, rest, rfl⟩ := List.exists_cons_of_ne_nil solid
  have digit := List.all_eq_true.mp digits c List.mem_cons_self
  have letters : ¬ (c :: rest).all isLetter = true := by
    rw [List.all_cons, not_letter_of_digit digit, Bool.false_and]
    exact Bool.false_ne_true
  rw [whole?, if_neg solid, if_neg letters, if_pos digits]

/-! ## Texts as lexemes -/

/-- The longest lexeme in front of a text takes a character. -/
theorem munch_length_pos (c : Char) (rest : List Char) : 0 < (munch c rest).text.length := by
  unfold munch
  cases found : longest? (c :: rest) with
  | none => simp
  | some lexeme =>
    obtain ⟨part, -, whole⟩ := List.exists_of_findSome?_eq_some found
    obtain ⟨text, shaped⟩ := whole?_eq_some whole
    rw [Option.getD_some, text, String.length_ofList]
    exact shaped.length_pos

/-- The lexemes that a text falls into: behind blanks the longest one, again and again, and the end
of input when the text is used up. -/
def munched : List Char → List Lexeme
  | [] => [⟨.endOfInput, ""⟩]
  | c :: rest =>
    if c = ' ' ∨ c = '\t' then munched rest
    else munch c rest :: munched ((c :: rest).drop (munch c rest).text.length)
termination_by text => text.length
decreasing_by
  · simp
  · have taken := munch_length_pos c rest
    rw [List.length_drop, List.length_cons]
    omega

/-- A blank in front of a text does not count. -/
theorem munched_blank {c : Char} (blank : c = ' ' ∨ c = '\t') (rest : List Char) :
    munched (c :: rest) = munched rest := by
  rw [munched, if_pos blank]

/-- Behind a text without a blank in front its lexemes follow. -/
theorem munched_solid {c : Char} (solid : ¬ (c = ' ' ∨ c = '\t')) (rest : List Char) :
    munched (c :: rest) =
      munch c rest :: munched ((c :: rest).drop (munch c rest).text.length) := by
  rw [munched, if_neg solid]

/-! ## The longest part -/

/-- The longest part is found where no longer one is a lexeme as a whole. -/
theorem longest?_eq_some {text part : List Char} {lexeme : Lexeme} (leading : part <+: text)
    (whole : whole? part = some lexeme)
    (longest : ∀ other found, other <+: text → whole? other = some found →
      other.length ≤ part.length) : longest? text = some lexeme := by
  obtain ⟨rest, rfl⟩ := leading
  have solid : part ≠ [] := List.length_pos_iff.mp (whole?_eq_some whole).2.length_pos
  have split : part.dropLast ++ [part.getLast solid] = part := List.dropLast_append_getLast solid
  -- the search meets the parts that are longer first, and then this one
  have shorter : part.inits.reverse = part :: part.dropLast.inits.reverse := by
    conv_lhs => rw [← split, List.inits_append]
    simp [split]
  have longer : (rest.inits.tail.map (part ++ ·)).reverse.findSome? whole? = none := by
    rw [List.findSome?_eq_none_iff]
    intro other member
    obtain ⟨more, found, rfl⟩ := List.mem_map.mp (List.mem_reverse.mp member)
    have some_more : more ≠ [] := by
      rintro rfl
      cases rest <;> simp at found
    have within : more <+: rest := (List.mem_inits _ _).mp (List.mem_of_mem_tail found)
    cases read : whole? (part ++ more) with
    | none => rfl
    | some lexeme =>
      have bound := longest _ _ ((List.prefix_append_right_inj part).mpr within) read
      have taken := List.length_pos_iff.mpr some_more
      rw [List.length_append] at bound
      omega
  unfold longest?
  rw [List.inits_append, List.reverse_append, List.findSome?_append, longer, shorter,
    Option.none_or, List.findSome?_cons, whole]

/-- No part is found where none is a lexeme as a whole. -/
theorem longest?_eq_none {text : List Char}
    (absent : ∀ part, part <+: text → whole? part = none) : longest? text = none := by
  unfold longest?
  rw [List.findSome?_eq_none_iff]
  intro part member
  exact absent part ((List.mem_inits _ _).mp (List.mem_reverse.mp member))

/-! ## The scanner takes the longest part -/

/-- A run of characters of a class is at most as long as the longest one in front of the text. -/
theorem length_le_takeWhile {accepts : Char → Bool} {run : List Char}
    (inside : run.all accepts = true) (rest : List Char) :
    run.length ≤ ((run ++ rest).takeWhile accepts).length := by
  rw [List.takeWhile_append_of_pos (List.all_eq_true.mp inside), List.length_append]
  omega

/-- No part in front of a text that is a lexeme as a whole is longer than what the scanner takes. -/
theorem length_le_front {part text : List Char} {lexeme : Lexeme} (leading : part <+: text)
    (whole : whole? part = some lexeme) : part.length ≤ (front text).text.length := by
  obtain ⟨rest, rfl⟩ := leading
  -- the first character tells which branch the scanner takes, and a run only stops behind the part
  cases (whole?_eq_some whole).2 with
  | @word c more letters =>
    have letter := List.all_eq_true.mp letters c List.mem_cons_self
    have run := length_le_takeWhile letters rest
    rw [List.cons_append] at run ⊢
    rw [front_letter letter, ofWord, String.length_ofList]
    exact run
  | @number c more digits =>
    have digit := List.all_eq_true.mp digits c List.mem_cons_self
    have run := length_le_takeWhile digits rest
    rw [List.cons_append] at run ⊢
    rw [front_digit digit, String.length_ofList]
    exact run
  | feed => exact front_length_pos (List.cons_ne_nil _ _)
  | lineBreak =>
    have both : front (['\r', '\n'] ++ rest) = ⟨.lineBreak, "\r\n"⟩ := rfl
    rw [both]
    decide
  | single => exact front_length_pos (List.cons_ne_nil _ _)
  | @double first second listed =>
    obtain ⟨kind, found⟩ := Option.isSome_iff_exists.mp listed
    have member := mem_of_lookup found
    simp only [doubleSigns, List.mem_cons, List.not_mem_nil, or_false, Prod.mk.injEq] at member
    rcases member with ⟨⟨rfl, rfl⟩, -⟩ | ⟨⟨rfl, rfl⟩, -⟩
    · have equal : front (['=', '='] ++ rest) = ⟨.equal, "=="⟩ := rfl
      rw [equal]
      decide
    · have different : front (['!', '='] ++ rest) = ⟨.notEqual, "!="⟩ := rfl
      rw [different]
      decide

/-- A single character is illegal only where no part in front of the text is a lexeme as a whole. -/
theorem whole?_illegal {c : Char} {rest : List Char} (letter : isLetter c = false)
    (digit : isDigit c = false) (feed : c ≠ '\n')
    (back : c = '\r' → ∀ behind, rest ≠ '\n' :: behind)
    (double : doubleSign? (c :: rest) = none) (single : singleSigns.lookup c = none) :
    ∀ part, part <+: c :: rest → whole? part = none := by
  intro part leading
  cases read : whole? part with
  | none => rfl
  | some lexeme =>
    obtain ⟨behind, same⟩ := leading
    cases (whole?_eq_some read).2 with
    | @word first more letters =>
      obtain ⟨rfl, -⟩ := List.cons.inj same
      have first_letter := List.all_eq_true.mp letters first List.mem_cons_self
      exact absurd (first_letter.symm.trans letter) (by decide)
    | @number first more digits =>
      obtain ⟨rfl, -⟩ := List.cons.inj same
      have first_digit := List.all_eq_true.mp digits first List.mem_cons_self
      exact absurd (first_digit.symm.trans digit) (by decide)
    | feed => exact absurd (List.cons.inj same).1.symm feed
    | lineBreak =>
      obtain ⟨first, others⟩ := List.cons.inj same
      exact absurd others.symm (back first.symm behind)
    | single listed =>
      obtain ⟨rfl, -⟩ := List.cons.inj same
      rw [single] at listed
      cases listed
    | @double first second listed =>
      obtain ⟨rfl, rfl⟩ := List.cons.inj same
      have absent := Option.map_eq_none_iff.mp double
      rw [absent] at listed
      cases listed

/-- What the scanner takes is a lexeme as a whole, or an illegal character where no part in front of
the text is one. -/
theorem whole?_front (c : Char) (rest : List Char) :
    whole? (front (c :: rest)).text.toList = some (front (c :: rest)) ∨
      (front (c :: rest) = ⟨.illegal, String.ofList [c]⟩ ∧
        ∀ part, part <+: c :: rest → whole? part = none) := by
  by_cases feed : c = '\n'
  · subst feed
    have whole : whole? "\n".toList = some ⟨.lineBreak, "\n"⟩ := by decide
    exact .inl whole
  by_cases both : c = '\r' ∧ ∃ behind, rest = '\n' :: behind
  · obtain ⟨rfl, behind, rfl⟩ := both
    have whole : whole? "\r\n".toList = some ⟨.lineBreak, "\r\n"⟩ := by decide
    exact .inl whole
  have back : c = '\r' → ∀ behind, rest ≠ '\n' :: behind :=
    fun first behind second => both ⟨first, behind, second⟩
  by_cases letter : isLetter c = true
  · left
    rw [front_letter letter, ofWord, String.toList_ofList]
    exact whole?_word (by simp [letter]) List.all_takeWhile
  by_cases digit : isDigit c = true
  · left
    rw [front_digit digit, String.toList_ofList]
    exact whole?_number (by simp [digit]) List.all_takeWhile
  have read := front_cons feed back
  rw [if_neg letter, if_neg digit] at read
  cases double : doubleSign? (c :: rest) with
  | some lexeme =>
    rw [double, Option.getD_some] at read
    obtain ⟨first, second, behind, -, shown, listed⟩ := doubleSign?_eq_some double
    have signs : ∀ entry ∈ doubleSigns, whole? [entry.1.1, entry.1.2] =
        some ⟨entry.2, String.ofList [entry.1.1, entry.1.2]⟩ := by decide
    left
    rw [read, shown, String.toList_ofList, signs _ listed, ← shown]
  | none =>
    rw [double, Option.getD_none, ofSingle] at read
    cases single : singleSigns.lookup c with
    | some kind =>
      rw [single, Option.getD_some] at read
      have signs : ∀ entry ∈ singleSigns, whole? [entry.1] =
          some ⟨entry.2, String.ofList [entry.1]⟩ := by decide
      left
      rw [read, String.toList_ofList]
      exact signs _ (mem_of_lookup single)
    | none =>
      rw [single, Option.getD_none] at read
      exact .inr ⟨read, whole?_illegal (Bool.not_eq_true _ ▸ letter) (Bool.not_eq_true _ ▸ digit)
        feed back double single⟩

/-- The scanner takes the longest lexeme in front of a text. -/
theorem front_eq_munch (c : Char) (rest : List Char) : front (c :: rest) = munch c rest := by
  unfold munch
  rcases whole?_front c rest with whole | ⟨illegal, absent⟩
  · have longest : longest? (c :: rest) = some (front (c :: rest)) := by
      refine longest?_eq_some (front_isPrefix _) whole fun other found leading read => ?_
      rw [String.length_toList]
      exact length_le_front leading read
    rw [longest, Option.getD_some]
  · rw [longest?_eq_none absent, Option.getD_none, illegal]

end Lexeme

namespace Scanner

/-- A gap in front of a text does not count. -/
theorem munched_skipFrom (rest : List Char) (offset line lineStart : Nat) :
    Lexeme.munched (skipFrom true rest offset line lineStart).rest = Lexeme.munched rest := by
  fun_induction skipFrom true rest offset line lineStart with
  | case1 rest offset line lineStart ih => rw [ih, Lexeme.munched_blank (.inl rfl)]
  | case2 rest offset line lineStart ih => rw [ih, Lexeme.munched_blank (.inr rfl)]
  | case3 => rfl
  | case4 => contradiction
  | case5 => rfl
  | case6 => contradiction
  | case7 => rfl

/-- A scan that keeps line breaks has the lexemes that the text falls into. -/
theorem Scans.munched {scanner : Scanner} {stream : TokenStream} (scans : Scans scanner stream)
    (keeps : scanner.keepBreaks = true) :
    stream.toList.map (·.toLexeme) = Lexeme.munched scanner.rest := by
  have gap : ∀ scanner : Scanner, scanner.keepBreaks = true →
      Lexeme.munched scanner.skipGap.rest = Lexeme.munched scanner.rest := by
    intro scanner keeps
    unfold skipGap
    rw [keeps]
    exact munched_skipFrom _ _ _ _
  induction scans with
  | @done scanner ended =>
    have empty : scanner.skipGap.rest = [] := scanner.next_kind_eq_endOfInput.mp ended
    have last : scanner.next.1.toLexeme = ⟨.endOfInput, ""⟩ := by
      rw [next_run, empty]
      rfl
    rw [← gap scanner keeps, empty, Lexeme.munched]
    exact congrArg ([·]) last
  | @token scanner rest ending more behind ih =>
    have further := ih (scanner.next_keepBreaks.trans keeps)
    have solid : scanner.skipGap.rest ≠ [] := fun ended =>
      more (scanner.next_kind_eq_endOfInput.mpr ended)
    obtain ⟨c, text, split⟩ := List.exists_cons_of_ne_nil solid
    have unblank : ¬ (c = ' ' ∨ c = '\t') := by
      have apart := skipFrom_solid scanner.keepBreaks scanner.rest scanner.offset scanner.line
        scanner.lineStart text
      rintro (rfl | rfl)
      · exact apart.1 split
      · exact apart.2 split
    have first : scanner.next.1.toLexeme = Lexeme.munch c text := by
      rw [← Lexeme.front_eq_munch, ← split]
      rfl
    have left : scanner.next.2.rest = (c :: text).drop (Lexeme.munch c text).text.length := by
      rw [next_rest, split, ← first]
    calc
      _ = scanner.next.1.toLexeme :: (TokenStream.mk rest ending).toList.map (·.toLexeme) := rfl
      _ = Lexeme.munch c text :: Lexeme.munched scanner.next.2.rest := by rw [first, further]
      _ = Lexeme.munched (c :: text) := by rw [left, Lexeme.munched_solid unblank]
      _ = Lexeme.munched scanner.rest := by rw [← split, gap scanner keeps]

end Scanner

/-- The scanner takes the longest match. Whatever the characters of a source are, its tokens with
line breaks kept are the lexemes that the source falls into: behind spaces and tabs the longest part
in front that is a word, a number, a line break or a sign, a single illegal character only where no
part is one, and one end of input when the source is used up. -/
theorem tokenize_munches {source : String} (nonempty : source ≠ "") :
    ∃ tokens, tokenize source true = .ok tokens ∧
      tokens.map (·.toLexeme) = Lexeme.munched source.toList := by
  have scans := Scanner.drain_scans (Scanner.ofText source true)
  exact ⟨_, tokenize_drain nonempty true, scans.munched rfl⟩

/-- A source with a null character, a lone carriage return and signs side by side. -/
theorem tokenize_munches_dense :
    "\tlet==\r\r\nx9!\x00 =é" ≠ "" ∧
    ∃ tokens, tokenize "\tlet==\r\r\nx9!\x00 =é" true = .ok tokens ∧
      tokens.map (·.toLexeme) = Lexeme.munched "\tlet==\r\r\nx9!\x00 =é".toList :=
  ⟨by decide, tokenize_munches (by decide)⟩

/-- Signs of two characters win over their first character, and a lone carriage return is
illegal. -/
example : Lexeme.munched "a!==\r".toList = [⟨.identifier, "a"⟩, ⟨.notEqual, "!="⟩, ⟨.assign, "="⟩,
    ⟨.illegal, "\r"⟩, ⟨.endOfInput, ""⟩] := by
  decide +kernel

end ExprLang
