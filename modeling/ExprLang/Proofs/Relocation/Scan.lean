import ExprLang.Proofs.Layout
import ExprLang.Proofs.Reading.Source
import ExprLang.Proofs.Relocation.Basic
import ExprLang.Proofs.Spelling

/-!
# Scans further down

A scanner that stands further down reads the same tokens further down (`Scans.shifted`). A line
feed behind a text ends its last lexeme, so that the tokens of two texts with a line feed between
them are those of the first text and, further down, those of the second one
(`sourceStream_joined`). Only a lone carriage return at the end of the first text would be taken
for a line break.
-/

namespace ExprLang

open Movable (moved)

/-- The position some lines further down, in the same column. -/
def Position.down (lines : Nat) (position : Position) : Position :=
  ⟨position.line + lines, position.column⟩

namespace Scanner

/-! ## Scanners further down -/

/-- The scanner at the same text, some lines and characters further down. -/
def shifted (lines chars : Nat) (scanner : Scanner) : Scanner :=
  { scanner with
    offset := scanner.offset + chars
    line := scanner.line + lines
    lineStart := scanner.lineStart + chars }

variable {scanner : Scanner} {stream : TokenStream} {lines chars : Nat}

/-- A gap further down. -/
theorem skipFrom_shifted (keepBreaks : Bool) (rest : List Char) (offset line start : Nat) :
    skipFrom keepBreaks rest (offset + chars) (line + lines) (start + chars) =
      (skipFrom keepBreaks rest offset line start).shifted lines chars := by
  fun_induction skipFrom keepBreaks rest offset line start with
  | case1 rest offset line start ih =>
    rw [skipFrom, ← ih, Nat.add_right_comm]
  | case2 rest offset line start ih =>
    rw [skipFrom, ← ih, Nat.add_right_comm]
  | case3 rest offset line start keeps =>
    rw [skipFrom, if_pos keeps]
    rfl
  | case4 rest offset line start drops ih =>
    rw [skipFrom, if_neg drops, ← ih, Nat.add_right_comm offset, Nat.add_right_comm line]
  | case5 rest offset line start keeps =>
    rw [skipFrom, if_pos keeps]
    rfl
  | case6 rest offset line start drops ih =>
    rw [skipFrom, if_neg drops, ← ih, Nat.add_right_comm offset, Nat.add_right_comm line]
  | case7 rest offset line start space tab feed both =>
    exact skipFrom_none (fun _ => space _) (fun _ => tab _) (fun _ => feed _) (fun _ => both _) ..

/-- A scanner further down reads the same token further down. -/
theorem next_shifted (scanner : Scanner) (lines chars : Nat) :
    (scanner.shifted lines chars).next =
      (moved (Position.down lines) scanner.next.1, scanner.next.2.shifted lines chars) := by
  have gap : (scanner.shifted lines chars).skipGap = scanner.skipGap.shifted lines chars :=
    skipFrom_shifted _ _ _ _ _
  have place : (scanner.skipGap.shifted lines chars).position =
      scanner.skipGap.position.down lines := by
    simp only [Scanner.position, Position.down, column, shifted]
    push_cast
    congr 1
    omega
  have behind : ∀ (before : Scanner) (lexeme : Lexeme),
      (before.shifted lines chars).passLexeme lexeme =
        (before.passLexeme lexeme).shifted lines chars := by
    intro before lexeme
    unfold passLexeme
    split <;> simp [shifted, pass, Nat.add_right_comm]
  rw [next_run, next_run, gap, place, behind]
  rfl

/-- A scanner further down reads the same tokens further down. -/
theorem Scans.shifted (scans : Scans scanner stream) (lines chars : Nat) :
    Scans (scanner.shifted lines chars) ⟨stream.upcoming.map (moved (Position.down lines)),
      moved (Position.down lines) stream.ending⟩ := by
  induction scans with
  | @done scanner ended =>
    have run := scanner.next_shifted lines chars
    have last : Scans (scanner.shifted lines chars)
        ⟨[], (scanner.shifted lines chars).next.1⟩ := .done (by rwa [run])
    rwa [run] at last
  | @token scanner rest ending more _ ih =>
    have run := scanner.next_shifted lines chars
    have first : Scans (scanner.shifted lines chars)
        ⟨(scanner.shifted lines chars).next.1 :: rest.map (moved (Position.down lines)),
          moved (Position.down lines) ending⟩ := .token (by rwa [run]) (by rwa [run])
    rwa [run] at first

/-! ## Scanners in front of more text -/

/-- The scanner at the same place, with more text behind its own. -/
def followed (scanner : Scanner) (more : List Char) : Scanner :=
  { scanner with rest := scanner.rest ++ more }

/-- More text does not change the gap before it. -/
theorem skipGap_followed (scanner : Scanner) (more : List Char) :
    (scanner.followed more).skipGap = (scanner.skipGap.followed more).skipGap := by
  have gap : ∀ (keepBreaks : Bool) (rest : List Char) (offset line start : Nat),
      skipFrom keepBreaks (rest ++ more) offset line start =
        ((skipFrom keepBreaks rest offset line start).followed more).skipGap := by
    intro keepBreaks rest offset line start
    fun_induction skipFrom keepBreaks rest offset line start with
    | case1 _ _ _ _ ih => exact ih
    | case2 _ _ _ _ ih => exact ih
    | case3 => rfl
    | case4 _ _ _ _ drops ih =>
      rw [List.cons_append, skipFrom, if_neg drops]
      exact ih
    | case5 => rfl
    | case6 _ _ _ _ drops ih =>
      rw [List.cons_append, List.cons_append, skipFrom, if_neg drops]
      exact ih
    | case7 => rfl
  exact gap _ _ _ _ _

/-- The gap before a token ends at the token with a line feed and more text behind, unless the token
is a carriage return. -/
theorem skipGap_followed_feed (drops : scanner.keepBreaks = false)
    (solid : scanner.skipGap.rest ≠ []) (back : scanner.skipGap.rest ≠ ['\r'])
    (more : List Char) :
    (scanner.followed ('\n' :: more)).skipGap = scanner.skipGap.followed ('\n' :: more) := by
  have blanks := skipFrom_solid scanner.keepBreaks scanner.rest scanner.offset scanner.line
    scanner.lineStart
  have breaks := skipFrom_unbroken scanner.rest scanner.offset scanner.line scanner.lineStart
  rw [← drops] at breaks
  change ∀ behind, scanner.skipGap.rest ≠ _ ∧ scanner.skipGap.rest ≠ _ at blanks breaks
  rw [skipGap_followed]
  generalize scanner.skipGap = place at solid back blanks breaks
  obtain ⟨text, offset, line, start, keepBreaks⟩ := place
  dsimp only at solid back blanks breaks
  obtain ⟨c, rest, rfl⟩ := List.exists_cons_of_ne_nil solid
  refine skipFrom_none ?_ ?_ ?_ ?_ ..
  · intro behind same
    exact (blanks rest).1 (by rw [(List.cons.inj same).1])
  · intro behind same
    exact (blanks rest).2 (by rw [(List.cons.inj same).1])
  · intro behind same
    exact (breaks rest).1 (by rw [(List.cons.inj same).1])
  · intro behind same
    have text : c :: (rest ++ '\n' :: more) = '\r' :: '\n' :: behind := same
    obtain ⟨rfl, after⟩ := List.cons.inj text
    cases rest with
    | nil => exact back rfl
    | cons d rest =>
      obtain rfl : d = '\n' := (List.cons.inj after).1
      exact (breaks rest).2 rfl

/-- A token in front of a line feed is read alike with more text behind, unless it is a carriage
return. -/
theorem next_followed (drops : scanner.keepBreaks = false) (solid : scanner.skipGap.rest ≠ [])
    (back : scanner.skipGap.rest ≠ ['\r']) (more : List Char) :
    (scanner.followed ('\n' :: more)).next =
      (scanner.next.1, scanner.next.2.followed ('\n' :: more)) := by
  have gap := skipGap_followed_feed drops solid back more
  have apart : Apart ('\n' :: more) := .cons (by decide) more
  have lexeme := Lexeme.front_apart solid apart fun same => absurd same back
  have short : (Lexeme.front scanner.skipGap.rest).text.length ≤ scanner.skipGap.rest.length := by
    rw [← String.length_toList]
    exact (Lexeme.front_isPrefix _).length_le
  rw [next_run, next_run, gap]
  change ((⟨Lexeme.front (scanner.skipGap.rest ++ '\n' :: more), _⟩ : Token),
    Scanner.passLexeme _ (Lexeme.front (scanner.skipGap.rest ++ '\n' :: more))) = _
  rw [lexeme]
  refine Prod.ext rfl ?_
  dsimp only
  unfold passLexeme
  split <;> simp [followed, pass, List.drop_append_of_le_length short]

/-- A carriage return at the end of a text is the last token, and it is illegal. -/
theorem Scans.lone_return {rest : List Token} {ending : Token}
    (behind : Scans scanner.next.2 ⟨rest, ending⟩) (alone : scanner.skipGap.rest = ['\r']) :
    rest = [] ∧ scanner.next.1.kind = .illegal := by
  have lexeme : scanner.next.1.toLexeme = ⟨.illegal, "\r"⟩ := by
    rw [next_run, alone]
    change Lexeme.front ['\r'] = _
    decide
  have length : scanner.next.1.text.length = 1 := by
    rw [show scanner.next.1.text = "\r" from congrArg Lexeme.text lexeme]
    decide
  have none_left : scanner.next.2.rest = [] := by
    rw [next_rest, alone, length]
    rfl
  have empty : scanner.next.2.skipGap.rest = [] := by
    unfold Scanner.skipGap
    rw [none_left, skipFrom_none] <;> simp
  refine ⟨?_, congrArg Lexeme.kind lexeme⟩
  cases behind with
  | done => rfl
  | token more => exact absurd (scanner.next.2.next_kind_eq_endOfInput.mpr empty) more

/-- A text and a line feed are read as the text, and what follows is read on its own, at the place
behind them. -/
theorem Scans.followed (scans : Scans scanner stream) (drops : scanner.keepBreaks = false)
    (last : ∀ token ∈ stream.upcoming.getLast?, token.kind ≠ .illegal) (more : List Char) :
    ∀ before, Stands before scanner → ∃ behind : Scanner, behind.rest = more ∧
      behind.keepBreaks = false ∧ Stands (before ++ scanner.rest ++ ['\n']) behind ∧
      ∀ tail, Scans behind tail → Scans (scanner.followed ('\n' :: more))
        ⟨stream.upcoming ++ tail.upcoming, tail.ending⟩ := by
  induction scans with
  | @done scanner ended =>
    intro before stands
    have empty : scanner.skipGap.rest = [] := scanner.next_kind_eq_endOfInput.mp ended
    obtain ⟨gap, -, split, place⟩ := stands.skipGap
    have kept : scanner.skipGap.keepBreaks = false :=
      (skipFrom_keepBreaks _ _ _ _ _).trans drops
    have same := scanner.skipGap_followed ('\n' :: more)
    rw [empty, List.append_nil] at split
    generalize scanner.skipGap = found at empty place kept same
    obtain ⟨rest, offset, line, start, keepBreaks⟩ := found
    obtain rfl : rest = [] := empty
    obtain rfl : keepBreaks = false := kept
    refine ⟨⟨more, offset + 1, line + 1, offset + 1, false⟩, rfl, rfl, ?_, fun tail scans => ?_⟩
    · rw [split]
      exact Stands.feed ⟨place.offset, place.line, place.lineStart⟩
    · refine scans.of_gap (same.trans ?_)
      simp [Scanner.skipGap, Scanner.followed, skipFrom]
  | @token scanner rest ending found behind ih =>
    intro before stands
    have solid : scanner.skipGap.rest ≠ [] := fun ended =>
      found (scanner.next_kind_eq_endOfInput.mpr ended)
    obtain ⟨gap, -, split, -, place⟩ := stands.next
    have back : scanner.skipGap.rest ≠ ['\r'] := by
      intro alone
      obtain ⟨rfl, illegal⟩ := behind.lone_return alone
      exact last scanner.next.1 (by simp) illegal
    have further : ∀ token ∈ rest.getLast?, token.kind ≠ .illegal := by
      intro token member
      refine last token ?_
      rw [List.getLast?_cons, Option.mem_some_iff, Option.mem_def.mp member]
      rfl
    obtain ⟨next, text, kept, stands, scans⟩ :=
      ih ((next_keepBreaks scanner).trans drops) further _ place
    refine ⟨next, text, kept, ?_, fun tail scanned => ?_⟩
    · rw [split]
      simpa using stands
    · have run := next_followed drops solid back more
      have first : Scans (scanner.followed ('\n' :: more))
          ⟨(scanner.followed ('\n' :: more)).next.1 :: (rest ++ tail.upcoming), tail.ending⟩ :=
        .token (by rwa [run]) (by rw [run]; exact scans tail scanned)
      rwa [run] at first

end Scanner

/-- The tokens of two texts with a line feed between them are those of the first text and, further
down, those of the second one. -/
theorem sourceStream_joined {first : String}
    (last : ∀ token ∈ (sourceTokens first).getLast?, token.kind ≠ .illegal) (second : String) :
    sourceStream (first ++ "\n" ++ second) =
      ⟨sourceTokens first ++
          (sourceTokens second).map (moved (Position.down (1 + first.toList.count '\n'))),
        moved (Position.down (1 + first.toList.count '\n')) (sourceStream second).ending⟩ := by
  have start : Scanner.Stands [] (Scanner.ofText first false) := ⟨rfl, rfl, rfl⟩
  obtain ⟨behind, text, drops, stands, scans⟩ :=
    (sourceStream_scans first).followed rfl last second.toList [] start
  have place : behind = (Scanner.ofText second false).shifted (1 + first.toList.count '\n')
      (first.toList.length + 1) := by
    obtain ⟨rest, offset, line, start, keepBreaks⟩ := behind
    obtain rfl : rest = second.toList := text
    obtain rfl : keepBreaks = false := drops
    have feeds : (first.toList ++ ['\n']).count '\n' = first.toList.count '\n' + 1 := by
      rw [List.count_append]
      rfl
    obtain ⟨offsets, lines, starts⟩ := stands
    rw [List.nil_append] at offsets lines starts
    change offset = (first.toList ++ ['\n']).length at offsets
    change line = 1 + (first.toList ++ ['\n']).count '\n' at lines
    change start = lineStart (first.toList ++ ['\n']) at starts
    rw [lineStart_feed] at starts
    rw [feeds] at lines
    rw [List.length_append, List.length_singleton] at offsets
    simp only [Scanner.shifted, Scanner.ofText, offsets, lines, starts]
    congr 1 <;> omega
  have tail := (sourceStream_scans second).shifted (1 + first.toList.count '\n')
    (first.toList.length + 1)
  rw [← place] at tail
  refine (sourceStream_scans (first ++ "\n" ++ second)).unique ?_
  have joined : Scanner.ofText (first ++ "\n" ++ second) false =
      (Scanner.ofText first false).followed ('\n' :: second.toList) := by
    simp [Scanner.ofText, Scanner.followed]
  rw [joined]
  exact scans _ tail

end ExprLang
