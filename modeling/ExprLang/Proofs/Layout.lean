import ExprLang.Proofs.Scan

/-!
# The layout of a source

The tokens of a source are slices of it, one behind the other, and what lies between them is
blank. A scanner knows how many characters and lines lie before it (`Scanner.Stands`), so that
the position of a token is the place of its slice (`tokenize_covers`). Positions rise with the
offsets of the slices (`Laid.rising`).
-/

namespace ExprLang

/-! ## Places -/

/-- The offset of the last line of a text: behind its last line feed, zero if it has none. -/
def lineStart (before : List Char) : Nat :=
  before.length - (before.reverse.takeWhile (· ≠ '\n')).length

/-- The position behind a text: the lines are counted by the line feeds in it, and the columns from
the offset of its last line. -/
def Position.behind (before : List Char) : Position :=
  ⟨1 + before.count '\n', (before.length : Int) - lineStart before + 1⟩

/-- Positions in the order in which a source is read. -/
def Position.Before (left right : Position) : Prop :=
  left.line < right.line ∨ left.line = right.line ∧ left.column < right.column

/-- A line feed begins a line. -/
theorem lineStart_feed (before : List Char) : lineStart (before ++ ['\n']) = before.length + 1 := by
  simp [lineStart]

/-- Other characters do not begin a line. -/
theorem lineStart_plain (before : List Char) {behind : List Char} (plain : '\n' ∉ behind) :
    lineStart (before ++ behind) = lineStart before := by
  have passed : ∀ c ∈ behind.reverse, decide (c ≠ '\n') = true := by
    intro c found
    rw [List.mem_reverse] at found
    simpa using ne_of_mem_of_not_mem found plain
  unfold lineStart
  rw [List.reverse_append, List.takeWhile_append_of_pos passed]
  simp only [List.length_append, List.length_reverse]
  omega

/-- Behind more characters lies a later position. -/
theorem Position.behind_before (before : List Char) {more : List Char} (some_more : more ≠ []) :
    (behind before).Before (behind (before ++ more)) := by
  have taken : 0 < more.length := List.length_pos_iff.mpr some_more
  by_cases feed : '\n' ∈ more
  · have lines : 0 < more.count '\n' := List.count_pos_iff.mpr feed
    left
    simp only [behind, List.count_append]
    omega
  · have lines : more.count '\n' = 0 := List.count_eq_zero.mpr feed
    right
    simp only [behind, List.count_append, lineStart_plain before feed, List.length_append]
    omega

/-- A position before another one is a different one. -/
theorem Position.Before.ne {left right : Position} (ordered : left.Before right) :
    left ≠ right := by
  rintro rfl
  unfold Position.Before at ordered
  omega

/-! ## Tokens at offsets -/

/-- What separates tokens: blanks, and line breaks unless they are kept. -/
inductive Gap (keepBreaks : Bool) : List Char → Prop where
  /-- Nothing. -/
  | none : Gap keepBreaks []
  /-- A space or a tab. -/
  | blank {c : Char} {rest : List Char} (blank : c = ' ' ∨ c = '\t')
      (behind : Gap keepBreaks rest) : Gap keepBreaks (c :: rest)
  /-- A line feed. -/
  | feed {rest : List Char} (dropped : keepBreaks = false) (behind : Gap keepBreaks rest) :
      Gap keepBreaks ('\n' :: rest)
  /-- A line break of two characters. -/
  | lineBreak {rest : List Char} (dropped : keepBreaks = false) (behind : Gap keepBreaks rest) :
      Gap keepBreaks ('\r' :: '\n' :: rest)

/-- Tokens with their offsets make up a text from an offset on. Each token is the slice of the text
at its offset and has the position of this place, slices do not overlap, and what lies before,
between and behind them is a gap. -/
inductive Laid (keepBreaks : Bool) (text : List Char) : Nat → List (Nat × Token) → Prop where
  /-- Only a gap is left. -/
  | done {start : Nat} (within : start ≤ text.length) (gap : Gap keepBreaks (text.drop start)) :
      Laid keepBreaks text start []
  /-- A gap and a token are followed by others. -/
  | token {start offset : Nat} {token : Token} {rest : List (Nat × Token)}
      (behind : start ≤ offset) (gap : Gap keepBreaks ((text.take offset).drop start))
      (solid : token.text ≠ "")
      (slice : (text.drop offset).take token.text.length = token.text.toList)
      (place : token.position = Position.behind (text.take offset))
      (more : Laid keepBreaks text (offset + token.text.length) rest) :
      Laid keepBreaks text start ((offset, token) :: rest)

namespace Laid

variable {keepBreaks : Bool} {text : List Char} {start : Nat} {placed : List (Nat × Token)}

/-- A token takes a character. -/
theorem length_pos {token : Token} (solid : token.text ≠ "") : 0 < token.text.length :=
  Nat.pos_of_ne_zero fun empty => solid (String.length_eq_zero_iff.mp empty)

/-- The offsets lie between the start and the end of the text. -/
theorem bounds (laid : Laid keepBreaks text start placed) :
    start ≤ text.length ∧ ∀ place ∈ placed, start ≤ place.1 ∧ place.1 < text.length := by
  induction laid with
  | done within => exact ⟨within, nofun⟩
  | token behind _ solid _ _ _ ih =>
    obtain ⟨within, others⟩ := ih
    have taken := length_pos solid
    refine ⟨by omega, fun place found => ?_⟩
    rcases List.mem_cons.mp found with rfl | found
    · exact ⟨behind, by dsimp only; omega⟩
    · have further := others place found
      exact ⟨by omega, further.2⟩

/-- The offsets rise, and the end of the text lies behind them. -/
theorem offsets_rise (laid : Laid keepBreaks text start placed) :
    (placed.map (·.1) ++ [text.length]).Pairwise (· < ·) := by
  induction laid with
  | done => simp
  | @token start offset token rest _ _ solid _ _ more ih =>
    have taken := length_pos solid
    have further := more.bounds
    rw [List.map_cons, List.cons_append, List.pairwise_cons]
    refine ⟨fun other found => ?_, ih⟩
    rcases List.mem_append.mp found with found | found
    · obtain ⟨place, member, rfl⟩ := List.mem_map.mp found
      have behind := (further.2 place member).1
      dsimp only
      omega
    · obtain rfl := List.mem_singleton.mp found
      omega

/-- The position of a token is the place of its offset. -/
theorem place_of_mem (laid : Laid keepBreaks text start placed) :
    ∀ place ∈ placed, place.2.position = Position.behind (text.take place.1) := by
  induction laid with
  | done => exact nofun
  | token _ _ _ _ place _ ih =>
    intro other found
    rcases List.mem_cons.mp found with rfl | found
    · exact place
    · exact ih other found

/-- Positions rise with the offsets. -/
theorem rising (laid : Laid keepBreaks text start placed) :
    (placed.map (·.2.position) ++ [Position.behind text]).Pairwise Position.Before := by
  have offsets := laid.offsets_rise
  have places : placed.map (·.2.position) ++ [Position.behind text] =
      (placed.map (·.1) ++ [text.length]).map fun offset =>
        Position.behind (text.take offset) := by
    rw [List.map_append, List.map_map, List.map_singleton, List.take_length,
      List.map_congr_left (laid.place_of_mem)]
    rfl
  have inside : ∀ offset ∈ placed.map (·.1) ++ [text.length], offset ≤ text.length := by
    intro offset found
    rcases List.mem_append.mp found with found | found
    · obtain ⟨place, member, rfl⟩ := List.mem_map.mp found
      exact Nat.le_of_lt (laid.bounds.2 place member).2
    · exact Nat.le_of_eq (List.mem_singleton.mp found)
  rw [places, List.pairwise_map]
  refine offsets.imp_of_mem fun {left right} _ found ordered => ?_
  have within := inside right found
  have between := List.take_append_drop left (text.take right)
  rw [List.take_take, Nat.min_eq_left (Nat.le_of_lt ordered)] at between
  rw [← between]
  refine Position.behind_before _ fun empty => ?_
  have length := congrArg List.length empty
  rw [List.length_drop, List.length_take, List.length_nil] at length
  omega

end Laid

/-! ## The scanner in its text -/

/-- A run of characters of a class holds no other character. -/
theorem Lexeme.not_mem_run {accepts : Char → Bool} {c : Char} (other : accepts c = false)
    (text : List Char) : c ∉ text.takeWhile accepts := by
  intro found
  have accepted := List.all_eq_true.mp List.all_takeWhile c found
  rw [other] at accepted
  exact absurd accepted (by decide)

/-- A lexeme that is no line break has no line feed in its text. -/
theorem Lexeme.front_no_feed {text : List Char} (feed : ∀ rest, text ≠ '\n' :: rest)
    (both : ∀ rest, text ≠ '\r' :: '\n' :: rest) : '\n' ∉ (front text).text.toList := by
  unfold front
  split
  · decide
  · exact absurd rfl (feed _)
  · exact absurd rfl (both _)
  · rename_i c rest _ _
    have first : '\n' ≠ c := fun same => feed rest (by rw [same])
    split
    · rw [ofWord, String.toList_ofList]
      exact not_mem_run (by decide) _
    · split
      · rw [String.toList_ofList]
        exact not_mem_run (by decide) _
      · cases found : doubleSign? (c :: rest) with
        | none => simpa [ofSingle] using first
        | some lexeme =>
          obtain ⟨one, two, behind, -, shown, listed⟩ := doubleSign?_eq_some found
          have signs : ∀ entry ∈ doubleSigns, '\n' ∉ [entry.1.1, entry.1.2] := by decide
          rw [Option.getD_some, shown, String.toList_ofList]
          exact signs _ listed

namespace Scanner

/-- A scanner stands behind a text: it knows how many characters and lines were passed, and where
the current line starts. -/
structure Stands (before : List Char) (scanner : Scanner) : Prop where
  /-- The characters passed. -/
  offset : scanner.offset = before.length
  /-- The lines passed. -/
  line : scanner.line = 1 + before.count '\n'
  /-- The start of the current line. -/
  lineStart : scanner.lineStart = ExprLang.lineStart before

variable {before : List Char} {scanner : Scanner}

/-- A scanner gives the position behind its text. -/
theorem Stands.position (stands : Stands before scanner) :
    scanner.position = Position.behind before := by
  unfold Scanner.position column Position.behind
  rw [stands.offset, stands.line, stands.lineStart]
  simp

/-- A scanner behind a character that is no line feed. -/
theorem Stands.plain {rest : List Char} {offset line start : Nat} {keepBreaks : Bool} {c : Char}
    (stands : Stands before ⟨c :: rest, offset, line, start, keepBreaks⟩) (plain : c ≠ '\n') :
    Stands (before ++ [c]) ⟨rest, offset + 1, line, start, keepBreaks⟩ := by
  obtain ⟨offset, line, start⟩ := stands
  have other : '\n' ∉ [c] := by simpa using plain.symm
  refine ⟨?_, ?_, ?_⟩
  · simpa using offset
  · rw [List.count_append, List.count_eq_zero.mpr other]
    exact line
  · rw [lineStart_plain before other]
    exact start

/-- A scanner behind a line feed. -/
theorem Stands.feed {rest : List Char} {offset line start : Nat} {keepBreaks : Bool}
    (stands : Stands before ⟨'\n' :: rest, offset, line, start, keepBreaks⟩) :
    Stands (before ++ ['\n']) ⟨rest, offset + 1, line + 1, offset + 1, keepBreaks⟩ := by
  obtain ⟨offset, line, -⟩ := stands
  dsimp only at offset line
  refine ⟨?_, ?_, ?_⟩
  · simpa using offset
  · dsimp only
    rw [List.count_append, line]
    simp
    omega
  · dsimp only
    rw [lineStart_feed, offset]

/-- What a scanner skips is a gap, and it stands behind the gap. -/
theorem skipFrom_stands (keepBreaks : Bool) (rest : List Char) (offset line start : Nat) :
    ∀ before, Stands before ⟨rest, offset, line, start, keepBreaks⟩ →
      ∃ gap, Gap keepBreaks gap ∧ rest = gap ++ (skipFrom keepBreaks rest offset line start).rest ∧
        Stands (before ++ gap) (skipFrom keepBreaks rest offset line start) := by
  fun_induction skipFrom keepBreaks rest offset line start with
  | case1 rest offset line start ih =>
    intro before stands
    obtain ⟨gap, blank, same, behind⟩ := ih _ (stands.plain (by decide))
    exact ⟨' ' :: gap, .blank (.inl rfl) blank, congrArg _ same, by simpa using behind⟩
  | case2 rest offset line start ih =>
    intro before stands
    obtain ⟨gap, blank, same, behind⟩ := ih _ (stands.plain (by decide))
    exact ⟨'\t' :: gap, .blank (.inr rfl) blank, congrArg _ same, by simpa using behind⟩
  | case3 rest offset line start keeps =>
    exact fun before stands => ⟨[], .none, rfl, by simpa using stands⟩
  | case4 rest offset line start drops ih =>
    intro before stands
    obtain ⟨gap, blank, same, behind⟩ := ih _ stands.feed
    exact ⟨'\n' :: gap, .feed (Bool.not_eq_true _ ▸ drops) blank, congrArg _ same,
      by simpa using behind⟩
  | case5 rest offset line start keeps =>
    exact fun before stands => ⟨[], .none, rfl, by simpa using stands⟩
  | case6 rest offset line start drops ih =>
    intro before stands
    obtain ⟨gap, blank, same, behind⟩ := ih _ (stands.plain (by decide)).feed
    refine ⟨'\r' :: '\n' :: gap, .lineBreak (Bool.not_eq_true _ ▸ drops) blank, ?_,
      by simpa using behind⟩
    exact congrArg (fun rest => '\r' :: '\n' :: rest) same
  | case7 rest offset line start =>
    exact fun before stands => ⟨[], .none, rfl, by simpa using stands⟩

/-- What a scanner skips is a gap of its text. -/
theorem Stands.skipGap (stands : Stands before scanner) :
    ∃ gap, Gap scanner.keepBreaks gap ∧ scanner.rest = gap ++ scanner.skipGap.rest ∧
      Stands (before ++ gap) scanner.skipGap :=
  skipFrom_stands _ _ _ _ _ before stands

/-- Only a line break has line feeds in its text, and it ends with the only one. -/
theorem front_feeds (text : List Char) :
    ((Lexeme.front text).kind ≠ .lineBreak ∧ '\n' ∉ (Lexeme.front text).text.toList) ∨
      ((Lexeme.front text).kind = .lineBreak ∧
        ∃ head, (Lexeme.front text).text.toList = head ++ ['\n'] ∧ '\n' ∉ head) := by
  rcases Lexeme.front_cases text with ⟨-, found⟩ | ⟨rest, rfl, found⟩ | ⟨rest, rfl, found⟩ |
    ⟨-, feed, both, -, plain⟩
  · exact .inl (by rw [found]; decide)
  · exact .inr (by rw [found]; exact ⟨rfl, [], rfl, by decide⟩)
  · exact .inr (by rw [found]; exact ⟨rfl, ['\r'], rfl, by decide⟩)
  · exact .inl ⟨plain, Lexeme.front_no_feed feed both⟩

/-- A scanner behind a lexeme. -/
theorem Stands.passLexeme (stands : Stands before scanner) :
    Stands (before ++ (Lexeme.front scanner.rest).text.toList)
      (scanner.passLexeme (Lexeme.front scanner.rest)) := by
  obtain ⟨offset, line, start⟩ := stands
  rcases front_feeds scanner.rest with ⟨plain, other⟩ | ⟨broken, head, text, other⟩
  · unfold Scanner.passLexeme
    rw [if_neg plain]
    refine ⟨?_, ?_, ?_⟩
    · simp [pass, offset, String.length_toList]
    · rw [List.count_append, List.count_eq_zero.mpr other]
      exact line
    · rw [lineStart_plain before other]
      exact start
  · unfold Scanner.passLexeme
    rw [if_pos broken]
    have length : (Lexeme.front scanner.rest).text.length = head.length + 1 := by
      rw [← String.length_toList, text]
      simp
    refine ⟨?_, ?_, ?_⟩
    · simp [pass, offset, String.length_toList]
    · rw [text, List.count_append, List.count_append, List.count_eq_zero.mpr other]
      dsimp only [pass]
      rw [line]
      simp
      omega
    · rw [text, ← List.append_assoc, lineStart_feed]
      dsimp only [pass]
      rw [offset, length, List.length_append]
      omega

/-- Reading a token takes a gap and the text of the token, and the token stands between them. -/
theorem Stands.next (stands : Stands before scanner) :
    ∃ gap, Gap scanner.keepBreaks gap ∧
      scanner.rest = gap ++ (scanner.next.1.text.toList ++ scanner.next.2.rest) ∧
      scanner.next.1.position = Position.behind (before ++ gap) ∧
      Stands (before ++ gap ++ scanner.next.1.text.toList) scanner.next.2 := by
  obtain ⟨gap, blank, split, behind⟩ := stands.skipGap
  refine ⟨gap, blank, ?_, behind.position, behind.passLexeme⟩
  have leading := Lexeme.front_isPrefix scanner.skipGap.rest
  have left : scanner.next.2.rest =
      scanner.skipGap.rest.drop (Lexeme.front scanner.skipGap.rest).text.toList.length := by
    rw [next_rest, String.length_toList]
    rfl
  have whole : (Lexeme.front scanner.skipGap.rest).text.toList ++ scanner.next.2.rest =
      scanner.skipGap.rest := by
    rw [left]
    exact List.prefix_iff_eq_append.mp leading
  exact split.trans (congrArg (gap ++ ·) whole.symm)

/-- A scan lays its tokens out in the text, and its end stands behind the text. -/
theorem Scans.laid {scanner : Scanner} {stream : TokenStream} (scans : Scans scanner stream) :
    ∀ before, Stands before scanner →
      ∃ offsets : List Nat, offsets.length = stream.upcoming.length ∧
        Laid scanner.keepBreaks (before ++ scanner.rest) before.length
          (offsets.zip stream.upcoming) ∧
        stream.ending.position = Position.behind (before ++ scanner.rest) := by
  induction scans with
  | @done scanner ended =>
    intro before stands
    obtain ⟨gap, blank, split, place, -⟩ := stands.next
    have empty : scanner.skipGap.rest = [] := scanner.next_kind_eq_endOfInput.mp ended
    have text : scanner.next.1.text.toList = [] := by
      have leading := Lexeme.front_isPrefix scanner.skipGap.rest
      rw [empty] at leading
      have lexeme : scanner.next.1.text = (Lexeme.front scanner.skipGap.rest).text := rfl
      rw [lexeme, empty]
      exact List.prefix_nil.mp leading
    have left : scanner.next.2.rest = [] := by rw [next_rest, empty, List.drop_nil]
    rw [text, left, List.append_nil, List.append_nil] at split
    refine ⟨[], rfl, .done (by simp) ?_, by rw [split]; exact place⟩
    rw [List.drop_left, split]
    exact blank
  | @token scanner rest ending more _ ih =>
    intro before stands
    obtain ⟨gap, blank, split, place, behind⟩ := stands.next
    obtain ⟨offsets, length, laid, last⟩ := ih _ behind
    have solid : scanner.next.1.text ≠ "" := by
      have left : scanner.skipGap.rest ≠ [] := fun ended =>
        more (scanner.next_kind_eq_endOfInput.mpr ended)
      have taken : 0 < scanner.next.1.text.length := Lexeme.front_length_pos left
      intro empty
      rw [empty] at taken
      exact absurd taken (by decide)
    have whole : before ++ scanner.rest =
        before ++ gap ++ (scanner.next.1.text.toList ++ scanner.next.2.rest) := by
      rw [split, List.append_assoc]
    rw [next_keepBreaks, List.append_assoc (before ++ gap), ← whole] at laid
    rw [List.append_assoc (before ++ gap), ← whole] at last
    refine ⟨(before ++ gap).length :: offsets, by simp [length], ?_, last⟩
    rw [List.zip_cons_cons]
    have taken : (before ++ scanner.rest).take (before ++ gap).length = before ++ gap := by
      rw [whole, List.take_left]
    refine .token (by simp) ?_ solid ?_ ?_ ?_
    · rw [taken, List.drop_left]
      exact blank
    · rw [whole, List.drop_left, ← String.length_toList, List.take_left]
    · rw [taken]
      exact place
    · rwa [List.length_append, String.length_toList] at laid

/-- The token that a scanner reads behind a number of others. -/
def token (scanner : Scanner) : Nat → Token
  | 0 => scanner.next.1
  | index + 1 => scanner.next.2.token index

/-- Behind a gap there is no further gap. -/
theorem skipFrom_again (keepBreaks : Bool) (rest : List Char) (offset line start : Nat) :
    (skipFrom keepBreaks rest offset line start).skipGap =
      skipFrom keepBreaks rest offset line start := by
  fun_induction skipFrom keepBreaks rest offset line start with
  | case1 _ _ _ _ ih => exact ih
  | case2 _ _ _ _ ih => exact ih
  | case3 rest offset line start keeps => simp [Scanner.skipGap, skipFrom, keeps]
  | case4 _ _ _ _ _ ih => exact ih
  | case5 rest offset line start keeps => simp [Scanner.skipGap, skipFrom, keeps]
  | case6 _ _ _ _ _ ih => exact ih
  | case7 rest offset line start space tab feed both =>
    exact skipFrom_none (fun _ => space _) (fun _ => tab _) (fun _ => feed _) (fun _ => both _) ..

/-- A scanner at the end reads the end again, at the same place. -/
theorem next_again (ended : scanner.next.1.kind = .endOfInput) :
    scanner.next.2.next = scanner.next := by
  have empty : scanner.skipGap.rest = [] := scanner.next_kind_eq_endOfInput.mp ended
  have stays : scanner.next.2 = scanner.skipGap := by
    rw [next_run, empty]
    simp [Scanner.passLexeme, Lexeme.front, pass]
  apply next_congr
  rw [stays]
  exact skipFrom_again _ _ _ _ _

/-- A scanner reads the tokens of its scan and then the end for ever. -/
theorem Scans.token_eq {scanner : Scanner} {stream : TokenStream} (scans : Scans scanner stream) :
    ∀ index, scanner.token index = stream.get index := by
  induction scans with
  | @done scanner ended =>
    intro index
    have again : ∀ index, scanner.next.2.token index = scanner.next.1 := by
      intro index
      induction index with
      | zero => rw [Scanner.token, next_again ended]
      | succ index ih =>
        rw [Scanner.token, next_again ended]
        exact ih
    cases index with
    | zero => rfl
    | succ index => exact again index
  | token _ _ ih =>
    intro index
    cases index with
    | zero => rfl
    | succ index => exact ih index

end Scanner

/-- Scanning loses nothing, and positions are exact. The tokens of a source end with one end of
input. In front of it they are slices of the source at rising offsets, with nothing but gaps around
them; every position is the place of its offset, and the end stands behind the source. Reading on
gives the end again and again, at the same place. -/
theorem tokenize_covers {source : String} (nonempty : source ≠ "") (keepBreaks : Bool) :
    ∃ tokens ending offsets, tokenize source keepBreaks = .ok (tokens ++ [ending]) ∧
      ending.kind = .endOfInput ∧ (∀ token ∈ tokens, token.kind ≠ .endOfInput) ∧
      offsets.length = tokens.length ∧
      (offsets ++ [source.toList.length]).Pairwise (· < ·) ∧
      Laid keepBreaks source.toList 0 (offsets.zip tokens) ∧
      ending.position = Position.behind source.toList ∧
      ∀ index, (Scanner.ofText source keepBreaks).token index = tokens.getD index ending := by
  have scans := Scanner.drain_scans (Scanner.ofText source keepBreaks)
  have start : Scanner.Stands [] (Scanner.ofText source keepBreaks) := ⟨rfl, rfl, rfl⟩
  obtain ⟨offsets, length, laid, last⟩ := scans.laid [] start
  refine ⟨_, _, offsets, ?_, scans.ending_kind, scans.upcoming_kind, length, ?_, laid, last,
    scans.token_eq⟩
  · unfold tokenize Scanner.start
    rw [if_neg nonempty]
    rfl
  · have rise := laid.offsets_rise
    rwa [List.map_fst_zip (Nat.le_of_eq length)] at rise

/-- A source with both line breaks, a lone carriage return, a null character and an operator at its
very end. -/
theorem tokenize_covers_breaks :
    "\tx\r\n = \r\x00\n!=" ≠ "" ∧
    ∃ tokens ending offsets,
      tokenize "\tx\r\n = \r\x00\n!=" true = .ok (tokens ++ [ending]) ∧
      ending.kind = .endOfInput ∧ (∀ token ∈ tokens, token.kind ≠ .endOfInput) ∧
      offsets.length = tokens.length ∧
      (offsets ++ ["\tx\r\n = \r\x00\n!=".toList.length]).Pairwise (· < ·) ∧
      Laid true "\tx\r\n = \r\x00\n!=".toList 0 (offsets.zip tokens) ∧
      ending.position = Position.behind "\tx\r\n = \r\x00\n!=".toList ∧
      ∀ index, (Scanner.ofText "\tx\r\n = \r\x00\n!=" true).token index =
        tokens.getD index ending :=
  ⟨by decide, tokenize_covers (by decide) true⟩

end ExprLang
