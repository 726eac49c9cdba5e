import Mathlib.Data.List.TakeWhile
import ExprLang.Proofs.Reading.Nested
import ExprLang.Proofs.Reading.Spelled
import ExprLang.Proofs.RoundTrip.Again
import ExprLang.Proofs.Session.Fold

/-!
# Entries that are programs

An entry that spells a clean program is answered with one line for each statement
(`Answers.program_listed`). It cannot be taken for anything else: the legal lexemes have neither a
blank nor a colon, so that the entry is blank only where it spells nothing, and is no command.
-/

namespace ExprLang

/-! ## Characters of lexemes -/

/-- Blanks have lower codes than digits and letters, or higher ones. -/
theorem Text.code_of_isBlank {c : Char} (blank : Text.isBlank c = true) :
    c.toNat < 48 ∨ 122 < c.toNat := by
  simp only [isBlank, blankRanges, CodeRange.contains, List.any_cons, List.any_nil, Bool.or_false,
    Bool.or_eq_true, Bool.and_eq_true, decide_eq_true_eq] at blank
  omega

/-- The codes of letters. -/
theorem code_of_isLetter {c : Char} (letter : isLetter c = true) :
    65 ≤ c.toNat ∧ c.toNat ≤ 122 := by
  simp only [isLetter, Bool.or_eq_true, Bool.and_eq_true, decide_eq_true_eq, Char.le_def,
    UInt32.le_iff_toNat_le] at letter
  rcases letter with (rfl | lower) | upper
  · decide
  · exact ⟨Nat.le_trans (by decide) lower.1, lower.2⟩
  · exact ⟨upper.1, Nat.le_trans upper.2 (by decide)⟩

/-- The codes of digits. -/
theorem code_of_isDigit {c : Char} (digit : isDigit c = true) : 48 ≤ c.toNat ∧ c.toNat ≤ 57 := by
  simp only [isDigit, Bool.and_eq_true, decide_eq_true_eq, Char.le_def,
    UInt32.le_iff_toNat_le] at digit
  exact digit

/-- A character that legal lexemes can have: neither a blank nor the sign of commands. -/
def Text.isSolid (c : Char) : Prop := isBlank c = false ∧ c ≠ ':'

/-- Letters and digits are solid. -/
theorem Text.isSolid_of_code {c : Char} (low : 48 ≤ c.toNat) (high : c.toNat ≤ 122)
    (colon : c.toNat ≠ 58) : isSolid c := by
  constructor
  · by_contra blank
    have outside := code_of_isBlank (Bool.eq_true_of_not_eq_false blank)
    omega
  · rintro rfl
    exact colon rfl

/-- The characters of a legal lexeme are solid. -/
theorem Lexeme.Genuine.solid {lexeme : Lexeme} (genuine : lexeme.Genuine)
    (more : lexeme.kind ≠ .endOfInput) (plain : lexeme.kind ≠ .lineBreak)
    (legal : lexeme.kind ≠ .illegal) : ∀ c ∈ lexeme.text.toList, Text.isSolid c := by
  intro c found
  cases genuine with
  | word _ letters =>
    have code := code_of_isLetter (letters c found)
    exact Text.isSolid_of_code (by omega) code.2 (by omega)
  | number _ all_digits =>
    have code := code_of_isDigit (all_digits c found)
    exact Text.isSolid_of_code code.1 (by omega) (by omega)
  | @single entry listed =>
    have signs : ∀ entry ∈ singleSigns, Text.isBlank entry.1 = false ∧ entry.1 ≠ ':' := by decide
    obtain rfl : c = entry.1 := by simpa using found
    exact signs entry listed
  | @double entry listed =>
    have signs : ∀ entry ∈ doubleSigns, (Text.isBlank entry.1.1 = false ∧ entry.1.1 ≠ ':') ∧
        Text.isBlank entry.1.2 = false ∧ entry.1.2 ≠ ':' := by decide
    rcases (show c = entry.1.1 ∨ c = entry.1.2 by simpa using found) with rfl | rfl
    · exact (signs entry listed).1
    · exact (signs entry listed).2
  | other kind =>
    rcases kind with ended | broken | illegal
    · exact absurd ended more
    · exact absurd broken plain
    · exact absurd illegal legal

section

variable {text : List Char} {lexemes : List Lexeme}

/-- A text that spells legal lexemes has no colon. -/
theorem Spells.no_colon (spells : Spells text lexemes)
    (legal : ∀ lexeme ∈ lexemes, lexeme.kind ≠ .illegal) : ':' ∉ text := by
  induction spells with
  | done => exact List.not_mem_nil
  | gap blank _ ih =>
    intro found
    rcases List.mem_cons.mp found with rfl | behind
    · exact absurd blank (by decide)
    · exact ih legal behind
  | lineBreak _ ih =>
    intro found
    simp only [List.mem_cons] at found
    rcases found with same | same | behind
    · exact absurd same (by decide)
    · exact absurd same (by decide)
    · exact ih legal behind
  | @lexeme text lexemes _ _ more plain _ ih =>
    intro found
    rw [← Lexeme.front_append_drop text] at found
    rcases List.mem_append.mp found with here | behind
    · have solid := (Lexeme.front_genuine text).solid more plain (legal _ List.mem_cons_self)
      exact (solid _ here).2 rfl
    · exact ih (fun lexeme member => legal lexeme (List.mem_cons_of_mem _ member)) behind

/-- A text of blanks that spells legal lexemes spells none. -/
theorem Spells.of_blank (spells : Spells text lexemes)
    (legal : ∀ lexeme ∈ lexemes, lexeme.kind ≠ .illegal)
    (blank : ∀ c ∈ text, Text.isBlank c = true) : lexemes = [] := by
  induction spells with
  | done => rfl
  | gap _ _ ih => exact ih legal fun c found => blank c (List.mem_cons_of_mem _ found)
  | lineBreak _ ih =>
    exact ih legal fun c found => blank c (List.mem_cons_of_mem _ (List.mem_cons_of_mem _ found))
  | @lexeme text lexemes _ _ more plain _ _ =>
    exfalso
    have solid := (Lexeme.front_genuine text).solid more plain (legal _ List.mem_cons_self)
    have some_text : text ≠ [] := fun ended => more (Lexeme.front_kind_eq_endOfInput.mpr ended)
    have some_length := Lexeme.front_length_pos some_text
    rw [← String.length_toList] at some_length
    obtain ⟨c, here⟩ := List.exists_mem_of_length_pos some_length
    have inside := (Lexeme.front_isPrefix text).subset here
    exact absurd ((solid c here).1.symm.trans (blank c inside)) Bool.false_ne_true

end

/-! ## Trimmed texts -/

/-- Trimming adds no character. -/
theorem Text.mem_of_mem_trimmed {text : String} {c : Char} (found : c ∈ (trimmed text).toList) :
    c ∈ text.toList := by
  unfold trimmed at found
  rw [String.toList_ofList, List.mem_reverse] at found
  have inside := List.mem_reverse.mp ((List.dropWhile_suffix _).subset found)
  exact (List.dropWhile_suffix _).subset inside

/-- Trimming leaves nothing of blanks only. -/
theorem Text.blank_of_trimmed {text : String} (empty : trimmed text = "") :
    ∀ c ∈ text.toList, isBlank c = true := by
  have none := congrArg String.toList empty
  unfold trimmed at none
  rw [String.toList_ofList, String.toList_empty, List.reverse_eq_nil_iff,
    List.dropWhile_eq_nil_iff] at none
  intro c found
  rw [← List.takeWhile_append_dropWhile (p := isBlank) (l := text.toList)] at found
  rcases List.mem_append.mp found with ahead | behind
  · exact List.all_eq_true.mp List.all_takeWhile c ahead
  · exact none c (List.mem_reverse.mpr behind)

/-! ## Answers -/

/-- Statements are listed alike wherever they stand. -/
theorem programLines_unplaced (values : List Stmt) :
    programLines false ⟨Stmt.unplacedAll values⟩ = programLines false ⟨values⟩ := by
  have className : ∀ value : Stmt, value.unplaced.className = value.className := by
    intro value
    cases value with
    | binding => rfl
    | result value => cases value <;> rfl
    | expression => rfl
    | condition _ _ alternative => cases alternative <;> rfl
  have shown : ∀ value : Stmt, "[" ++ value.unplaced.className ++ "] >>> " ++
      value.unplaced.render = "[" ++ value.className ++ "] >>> " ++ value.render := by
    intro value
    rw [className, Stmt.render_unplaced]
  simp only [programLines, Bool.false_eq_true, if_false, Stmt.unplacedAll_eq_map, List.map_map]
  exact List.map_congr_left fun value _ => shown value

/-- An entry that spells a program for which there is room is answered with a line for each
statement, and is no command. -/
theorem Answers.program_listed {host : Host} {settings : Settings} {text output : String}
    (answers : Answers host settings text output) (mode : settings.mode = .program)
    (asJson : settings.asJson = false) {tokens : List Token} {levels : Nat} {values : List Stmt}
    (spells : Spells text.toList (tokens.map (·.toLexeme)))
    (reads : Parser.ReadsProgram levels tokens values) (enough : levels ≤ Parser.maxNesting)
    (fits : ∀ value ∈ values, value.Fits host) :
    output = unlines (programLines false ⟨values⟩) ∧ Text.trimmed text ∉ sessionCommands := by
  have legal : ∀ lexeme ∈ tokens.map (·.toLexeme), lexeme.kind ≠ .illegal := by
    intro lexeme found
    obtain ⟨token, member, rfl⟩ := List.mem_map.mp found
    exact reads.nested.legal token member
  have other : Text.trimmed text ∉ sessionCommands := by
    intro command
    have colon : ∀ command ∈ sessionCommands, ':' ∈ command.toList := by decide
    exact spells.no_colon legal (Text.mem_of_mem_trimmed (colon _ command))
  refine ⟨?_, other⟩
  -- what the parser reads from the entry is the program, at other places
  have read : ∀ {start last : Parser.State} {program : Program}, Listed text →
      Parser.State.ofSource text = .ok start →
      Parser.withRoom Parser.program start = .ok program last →
      Stmt.unplacedAll program.statements = Stmt.unplacedAll values ∧
        last.diagnostics.toList = [] := by
    intro start last program listed started ran
    have nonempty := Session.nonempty_of_trimmed listed.1
    have alike : Parser.Alike (sourceTokens text) tokens := sourceTokens_spelled spells
    obtain ⟨found, same, moved⟩ := reads.move alike
    obtain rfl := Except.ok.inj ((Parser.State.ofSource_eq nonempty).symm.trans started)
    have parsed := Parser.parse_eq nonempty
    rw [Parser.State.finish_eq ran] at parsed
    obtain ⟨rfl, clean⟩ := Parser.parse_reads nonempty parsed moved enough
    exact ⟨same, clean⟩
  -- a command has a colon, so that the entry is blank or listed
  cases answers with
  | blank blank =>
    have none := spells.of_blank legal (Text.blank_of_trimmed blank)
    obtain rfl := List.map_eq_nil_iff.mp none
    cases reads with
    | done => rfl
    | next first _ => exact absurd first.statement_begins (by decide)
  | @mode mode command =>
    rw [command] at other
    exact absurd (by cases mode <;> decide) other
  | json command =>
    rw [command] at other
    exact absurd (by decide) other
  | verbose command =>
    rw [command] at other
    exact absurd (by decide) other
  | tokens _ selected => cases mode.symm.trans selected
  | @program start last program listed _ started ran =>
    obtain ⟨same, clean⟩ := read listed started ran
    have shown := programLines_unplaced program.statements
    rw [same, programLines_unplaced] at shown
    rw [asJson, ← shown, clean, List.map_nil, List.append_nil]
  | @overflow start last program first listed _ started ran cut =>
    obtain ⟨same, -⟩ := read listed started ran
    rw [asJson] at cut
    exact absurd (Program.fits_of_unplaced same fits) cut.not_fits

end ExprLang
