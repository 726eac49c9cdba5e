import ExprLang.Proofs.Session.Entry
import ExprLang.Proofs.Session.Parted

/-!
# Sessions and whole sources

A session reads a source line by line, scans and parses each entry on its own, and knows of the
others only how many braces they left open. Where the line feeds outside of all braces stand between
statements, it shows the statements that parsing the whole source gives, and nothing else
(`Session.run_agrees`). The proof follows the entries: each of them ends with the first line feed
outside of all braces, where the source falls apart.
-/

namespace ExprLang

/-- The line feeds of a source outside of all braces stand between statements. These are the ones
that have as many opening as closing braces in front of them. -/
def FallsApart (source : String) (program : Program) : Prop :=
  ∀ before behind, source = before ++ "\n" ++ behind →
    before.toList.count '{' = before.toList.count '}' → BetweenStatements source program before

/-- Whether a source falls apart is seen at each of its line feeds. -/
theorem fallsApart_iff {source : String} {program : Program} :
    FallsApart source program ↔ ∀ index < source.toList.length,
      source.toList[index]? = some '\n' →
      (source.toList.take index).count '{' = (source.toList.take index).count '}' →
      BetweenStatements source program (String.ofList (source.toList.take index)) := by
  constructor
  · intro apart index inside feed counts
    refine apart _ (String.ofList (source.toList.drop (index + 1))) ?_ (by simpa using counts)
    apply String.toList_injective
    obtain ⟨_, here⟩ := List.getElem?_eq_some_iff.mp feed
    have split := List.take_append_drop index source.toList
    rw [List.drop_eq_getElem_cons inside, here] at split
    simpa using split.symm
  · intro parts before behind split counts
    have text : source.toList = before.toList ++ '\n' :: behind.toList := by
      rw [split]
      simp
    have front : source.toList.take before.toList.length = before.toList := by
      rw [text, List.take_left]
    have part := parts before.toList.length (by simp [text]) (by rw [text]; simp)
    rw [front, String.ofList_toList] at part
    exact part counts

instance (source : String) (program : Program) : Decidable (FallsApart source program) :=
  decidable_of_iff _ fallsApart_iff.symm

/-- An operation that goes on behind a line feed keeps its source from falling apart. -/
example : ¬ FallsApart "1\n- 2" (parseText "1\n- 2").program := by decide +kernel

/-- A line and those behind it. -/
theorem unlines_cons (line : String) (lines : List String) :
    unlines (line :: lines) = line ++ "\n" ++ unlines lines := by
  simp [unlines]

/-- Lines behind each other. -/
theorem unlines_append (first second : List String) :
    unlines (first ++ second) = unlines first ++ unlines second := by
  simp [unlines]

/-- The text of an entry is that of its lines, but for the last line feed. -/
theorem unlines_entry {entry : List String} (nonempty : entry ≠ []) :
    unlines entry = entryText entry ++ "\n" := by
  unfold entryText
  induction entry with
  | nil => exact absurd rfl nonempty
  | cons line entry ih =>
    cases entry with
    | nil => simp [unlines]
    | cons next entry =>
      have behind := ih (List.cons_ne_nil _ _)
      rw [unlines_cons, behind, String.intercalate_cons_cons]
      simp only [String.append_assoc]

/-- The braces of lines are those of their text. -/
theorem braceBalance_unlines (lines : List String) :
    braceBalance (unlines lines) = balance lines := by
  induction lines with
  | nil => rfl
  | cons line lines ih =>
    have feed : braceBalance "\n" = 0 := by decide
    rw [unlines_cons, braceBalance_append, braceBalance_append, feed, ih]
    simp [balance]

/-- The braces of an entry are those of its text. -/
theorem braceBalance_entryText {entry : List String} (nonempty : entry ≠ []) :
    braceBalance (entryText entry) = balance entry := by
  have feed : braceBalance "\n" = 0 := by decide
  rw [← braceBalance_unlines, unlines_entry nonempty, braceBalance_append, feed, Int.add_zero]

/-! ## Entries of a source -/

/-- Behind entries nothing is left where no line ends the session and no brace is open. -/
theorem Closing.Valid.nothing {closing : Closing} (valid : closing.Valid)
    (stays : ∀ line ∈ closing.lines, Text.trimmed line ∉ farewells)
    (closed : balance closing.lines = 0) : closing = .exhausted [] := by
  cases closing with
  | farewell line unread => exact absurd valid (stays line List.mem_cons_self)
  | exhausted unfinished =>
    by_cases nonempty : unfinished = []
    · rw [nonempty]
    · have open_brace := valid.1 unfinished nonempty List.prefix_rfl
      rw [show balance unfinished = 0 from closed] at open_brace
      exact absurd open_brace (Int.lt_irrefl 0)

/-- An empty source has no statement. -/
theorem Parted.of_empty {tokens : List Token} {values : List Stmt}
    (parted : Parted "" tokens values) : values = [] := by
  obtain ⟨levels, -, reads⟩ := parted.reads
  obtain rfl := List.map_eq_nil_iff.mp parted.spells.of_nil
  cases reads with
  | done => rfl
  | next first _ => exact absurd first.statement_begins (by decide)

/-- The first entry of a source that falls apart is a part of it, and so is what is behind. -/
theorem Parted.entry {entry rest : List String} {tokens : List Token} {values : List Stmt}
    (parted : Parted (unlines (entry ++ rest)) tokens values) (complete : IsEntry entry) :
    ∃ used behind first last, values = first ++ last ∧
      Spells (entryText entry).toList (used.map (·.toLexeme)) ∧
      (∃ levels ≤ Parser.maxNesting, Parser.ReadsProgram levels used first) ∧
      Parted (unlines rest) behind last := by
  have text : unlines (entry ++ rest) = entryText entry ++ "\n" ++ unlines rest := by
    rw [unlines_append, unlines_entry complete.nonempty]
  -- the entry ends at balance zero: it closes every brace, and no brace that is not open
  have rises := parted.rises text
  have closed := complete.closed
  rw [← braceBalance_entryText complete.nonempty] at closed
  exact parted.split text (Int.le_antisymm closed rises)

/-- The entries of a source that falls apart are answered with its statements, and nothing is left
behind them. -/
theorem Answered.agrees {host : Host} {settings : Settings} {entries : List (List String)}
    {outputs : List String} (answered : Answered host settings entries outputs)
    (mode : settings.mode = .program) (asJson : settings.asJson = false) {lines : List String}
    {closing : Closing} (divides : Divides lines entries closing)
    (stays : ∀ line ∈ lines, Text.trimmed line ∉ farewells) {tokens : List Token}
    {values : List Stmt} (parted : Parted (unlines lines) tokens values)
    (fits : ∀ value ∈ values, value.Fits host) :
    String.join outputs = unlines (programLines false ⟨values⟩) ∧ closing = .exhausted [] := by
  -- along the entries; what is left of the source still falls apart
  induction answered generalizing lines tokens values with
  | done =>
    obtain rfl : lines = closing.lines := divides.whole
    have closed := parted.closed
    rw [braceBalance_unlines] at closed
    obtain rfl := divides.closing.nothing stays closed
    obtain rfl := parted.of_empty
    exact ⟨rfl, rfl⟩
  | @next settings entry entries output outputs answer _ ih =>
    have whole := divides.whole
    rw [List.flatten_cons, List.append_assoc] at whole
    rw [whole] at parted stays
    have complete := (divides.entries entry List.mem_cons_self).1
    obtain ⟨used, behind, first, last, rfl, spells, ⟨levels, enough, reads⟩, rest⟩ :=
      parted.entry complete
    obtain ⟨rfl, other⟩ := answer.program_listed mode asJson spells reads enough
      fun value found => fits value (List.mem_append_left last found)
    have same : settings.behind [entryCommand entry] = settings := settings.behind_other other
    -- no entry of a program changes a setting, so the entries behind are answered alike
    rw [same] at ih
    obtain ⟨shown, ended⟩ := ih mode asJson divides.tail
      (fun line found => stays line (List.mem_append_right entry found)) rest
      fun value found => fits value (List.mem_append_right first found)
    refine ⟨?_, ended⟩
    rw [String.join_cons, shown, ← unlines_append]
    simp [programLines]

namespace Session

end Session

end ExprLang
