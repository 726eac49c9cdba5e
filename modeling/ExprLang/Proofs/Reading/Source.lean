import ExprLang.Proofs.Reading.Run
import ExprLang.Proofs.Reading.Trace
import ExprLang.Proofs.Termination

/-!
# Readings of a source

Parsing a source leaves no diagnostic exactly when its tokens have a reading that opens no more
levels than the parser has room for. It gives the trees of the reading then (`parse_reads`,
`parse_clean`); a reading that opens more levels ends in a diagnostic of nesting (`parse_deep`).
-/

namespace ExprLang

/-- Every place of a stream is that of a token of it. -/
theorem TokenStream.toList_getElem? (stream : TokenStream) (index : Nat) :
    stream.toList[min index stream.upcoming.length]? = some (stream.get index) := by
  by_cases inside : index < stream.upcoming.length
  · rw [Nat.min_eq_left (Nat.le_of_lt inside)]
    simp [TokenStream.toList, TokenStream.get, inside, List.getElem?_append_left,
      List.getD_eq_getElem?_getD]
  · have outside := Nat.le_of_not_lt inside
    rw [Nat.min_eq_right outside]
    simp [TokenStream.toList, TokenStream.get, List.getD_eq_getElem?_getD,
      List.getElem?_eq_none outside]

/-- The tokens of a source text, line breaks left out. -/
def sourceStream (source : String) : TokenStream := (Scanner.ofText source false).drain.1

/-- The tokens of a source text in front of its end, line breaks left out. -/
def sourceTokens (source : String) : List Token := (sourceStream source).upcoming

/-- The tokens of a source text are its scan. -/
theorem sourceStream_scans (source : String) :
    (Scanner.ofText source false).Scans (sourceStream source) :=
  Scanner.drain_scans _

/-- Leaving the line breaks out of the scan of a source gives the scan without them. -/
theorem without_breaks_eq (source : String) :
    (⟨(Scanner.ofText source true).drain.1.visible,
      (Scanner.ofText source true).drain.1.ending⟩ : TokenStream) = sourceStream source := by
  have without := (Scanner.drain_scans (Scanner.ofText source true)).without_breaks rfl
  exact without.unique (sourceStream_scans source)

/-- Leaving the line breaks out of the tokens of a source gives the tokens without them. -/
theorem visible_eq_sourceTokens (source : String) :
    (Scanner.ofText source true).drain.1.visible = sourceTokens source :=
  congrArg TokenStream.upcoming (without_breaks_eq source)

/-- The tokens of a source text end with the end of input. -/
theorem tokenize_eq {source : String} (nonempty : source ≠ "") :
    tokenize source false = .ok (sourceTokens source ++ [(sourceStream source).ending]) :=
  tokenize_drain nonempty false

/-- A source text with tokens is not empty. -/
theorem tokenize_sourceStream {source : String} {tokens : List Token}
    (scanned : tokenize source false = .ok tokens) :
    source ≠ "" ∧ tokens = (sourceStream source).toList := by
  have nonempty : source ≠ "" := by
    rintro rfl
    cases scanned
  rw [tokenize_eq nonempty] at scanned
  exact ⟨nonempty, (Except.ok.inj scanned).symm⟩

/-- No token in front of the end is the end of input. -/
theorem sourceTokens_kind {source : String} {token : Token} (found : token ∈ sourceTokens source) :
    token.kind ≠ .endOfInput :=
  (sourceStream_scans source).upcoming_kind token found

namespace Parser

/-- A parser looks at the tokens of its source text and the end for ever. -/
theorem State.ofText_token (source : String) (index : Nat) :
    (State.ofText source).token index = (sourceStream source).get index := by
  unfold State.ofText
  rw [State.ofStream_token]
  exact congrArg (·.get index) (without_breaks_eq source)

/-- At the start of a source text its tokens are in view. -/
theorem State.ofText_views (source : String) : (State.ofText source).At (sourceTokens source) := by
  refine ⟨fun index => ?_, fun token found => sourceTokens_kind found, ?_⟩
  · unfold State.ofText
    rw [Nat.add_zero, State.ofStream_token, State.ofStream_ending, visible_eq_sourceTokens]
  · unfold State.ofText
    rw [State.ofStream_ending]
    exact (Scanner.drain_scans _).ending_kind

/-- The end of a source text is that of its tokens. -/
theorem State.ofText_ending (source : String) :
    (State.ofText source).stream.ending = (sourceStream source).ending := by
  unfold State.ofText
  rw [State.ofStream_ending]
  have same := without_breaks_eq source
  rw [← same]

/-- A diagnostic of nesting has been recorded. -/
def State.Deep (state : State) : Prop :=
  ∃ diagnostic ∈ state.diagnostics.toList, diagnostic.cause.isDepth = true

/-- A recorded diagnostic of nesting stays. -/
theorem State.Framed.deep {before after : State} (framed : Framed before after)
    (deep : before.Deep) : after.Deep := by
  obtain ⟨diagnostic, found, isDepth⟩ := deep
  exact ⟨diagnostic, framed.diagnostics.subset found, isDepth⟩

section

variable {room levels near far : Nat} {told early late : List Diagnostic}
  {tokens middle rest : List Token} {state last : State}

/-- Outside of all constructs a statement is followed where there is room, and a fault of nesting is
recorded where there is none. -/
theorem nextStatement_follows {value : Stmt}
    (follows : (Phrase.statement value).Follows state.stream.ending told levels tokens rest)
    (views : state.At tokens) (outermost : state.nesting = 0) {before next : Array Stmt}
    (ran : nextStatement (Inner.ofRoom room) before state = .ok next last) :
    (levels ≤ room ∧ next = before.push value ∧ last.At rest ∧ State.Tells told state last) ∨
      (room < levels ∧ last.Deep) := by
  obtain ⟨read, middle, attempt, rfl, rfl⟩ := nextStatement_eq_ok.mp ran
  rw [Rule.statement_run] at attempt
  have within : state.Inside state.stream.ending := ⟨Int.le_of_eq outermost.symm, rfl⟩
  cases Phrase.Follows.attempt within views follows with
  | @reads final enough inside stops tells =>
    rw [Rule.tryCatch_ok inside] at attempt
    obtain ⟨rfl, rfl⟩ := EStateM.Result.ok.inj attempt
    have whole := ((state.note_quiet (.statement state.current)).trans tells).trans
      final.advance_quiet
    rw [List.nil_append, List.append_nil] at whole
    exact .inl ⟨enough, by simp, State.Views.step stops, whole⟩
  | @overflows fault final short inside deep =>
    rw [Rule.tryCatch_error inside] at attempt
    have recorded : (final.record fault).Deep := ⟨fault, by simp [State.record], deep⟩
    exact .inr ⟨short, ((recover_framed attempt).trans (State.advance_framed middle)).deep recorded⟩

/-- The parser follows the statements of a source from every state outside of all constructs that
has its tokens in view: it gives their trees where there is room for their levels, and records a
fault of nesting where there is none. -/
def FollowsProgram (ending : Token) (told : List Diagnostic) (levels : Nat) (tokens : List Token)
    (values : List Stmt) : Prop :=
  ∀ (room : Nat) (state last : State) (before found : Array Stmt), state.At tokens →
    state.stream.ending = ending → state.nesting = 0 →
    Rule.Loops (currentIsNot .endOfInput) (nextStatement (Inner.ofRoom room)) before state
      (.ok found last) →
    (levels ≤ room ∧ found.toList = before.toList ++ values ∧
      last.diagnostics.toList = state.diagnostics.toList ++ told) ∨ (room < levels ∧ last.Deep)

/-- No statement. -/
theorem FollowsProgram.done (ending : Token) : FollowsProgram ending [] 0 [] [] := by
  intro room state last before found views _ _ loops
  cases loops with
  | done => exact .inl ⟨Nat.zero_le _, by simp, by simp⟩
  | again going =>
    have ended : state.current.kind = .endOfInput := views.current_kind
    simp [currentIsNot, ended] at going

/-- A statement in front of others. -/
theorem FollowsProgram.next {ending : Token} {value : Stmt} {values : List Stmt}
    (begins : headKind tokens ≠ .endOfInput)
    (first : (Phrase.statement value).Follows ending early near tokens middle)
    (more : FollowsProgram ending late far middle values) :
    FollowsProgram ending (early ++ late) (max near far) tokens (value :: values) := by
  intro room state last before found views same outermost loops
  subst same
  cases loops with
  | done stopped =>
    have ended : state.current.kind = .endOfInput := by simpa [currentIsNot] using stopped
    rw [views.current_kind] at ended
    exact absurd ended begins
  | again _ ran further =>
    rcases nextStatement_follows first views outermost ran with
      ⟨enough, rfl, stops, tells⟩ | ⟨short, deep⟩
    · rcases more _ _ _ _ _ stops tells.ending (tells.nesting.trans outermost) further with
        ⟨enough_behind, trees, recorded⟩ | ⟨short, deep⟩
      · refine .inl ⟨by omega, ?_, ?_⟩
        · rw [trees]
          simp
        · rw [recorded, tells.diagnostics, List.append_assoc]
      · exact .inr ⟨by omega, deep⟩
    · have kept := further.keeps (framed_closed.nextStatement_holds (ofRoom_framed room))
      exact .inr ⟨by omega, kept.deep deep⟩

/-- The parser follows the readings of all statements of a source, and records nothing. -/
theorem ReadsProgram.runs {values : List Stmt} (reads : ReadsProgram levels tokens values)
    (ending : Token) : FollowsProgram ending [] levels tokens values := by
  induction reads with
  | done => exact .done ending
  | next first _ more =>
    refine .next (fun ended => ?_) (first.runs ending) more
    have begins := first.statement_begins
    rw [ended] at begins
    exact absurd begins (by decide)

/-- The statements of a source follow their reading where there is room, and record a fault of
nesting where there is none. -/
theorem program_follows {values : List Stmt} (reads : ReadsProgram levels tokens values)
    (views : state.At tokens) (outermost : state.nesting = 0) {before found : Array Stmt}
    (loops : Rule.Loops (currentIsNot .endOfInput) (nextStatement (Inner.ofRoom room)) before state
      (.ok found last)) :
    (levels ≤ room ∧ found.toList = before.toList ++ values ∧
      last.diagnostics = state.diagnostics) ∨ (room < levels ∧ last.Deep) := by
  rcases reads.runs state.stream.ending room state last before found views rfl outermost loops with
    ⟨enough, trees, recorded⟩ | overflows
  · rw [List.append_nil] at recorded
    exact .inl ⟨enough, trees, Array.toList_inj.mp recorded⟩
  · exact .inr overflows

end

/-- The loop over the statements of a source has the result of its run without a bound. -/
theorem program_loop_eq {inner : Inner} (forward : inner.Holds Rule.Forward) {state : State}
    (ended : state.stream.ending.kind = .endOfInput) {before : Array Stmt}
    {result : EStateM.Result Diagnostic State (Array Stmt)}
    (loops : Rule.Loops (currentIsNot .endOfInput) (nextStatement inner) before state result) :
    Rule.repeatWhile (currentIsNot .endOfInput) (nextStatement inner) before state = result :=
  ((loops_end forward ended).program before).unique loops

/-- Statements that were read before are kept in front. -/
theorem nextStatement_behind {inner : Inner} {statements next : Array Stmt} {state last : State}
    (before : Array Stmt) (ran : nextStatement inner statements state = .ok next last) :
    nextStatement inner (before ++ statements) state = .ok (before ++ next) last := by
  obtain ⟨read, middle, attempt, rfl, rfl⟩ := nextStatement_eq_ok.mp ran
  exact nextStatement_eq_ok.mpr ⟨read, middle, attempt, Array.append_assoc .., rfl⟩

/-- The loop over the statements of a source keeps those read before in front. -/
theorem program_behind {inner : Inner} {statements found : Array Stmt} {state last : State}
    (before : Array Stmt)
    (loops : Rule.Loops (currentIsNot .endOfInput) (nextStatement inner) statements state
      (.ok found last)) :
    Rule.Loops (currentIsNot .endOfInput) (nextStatement inner) (before ++ statements) state
      (.ok (before ++ found) last) := by
  generalize ended : EStateM.Result.ok found last = result at loops
  induction loops with
  | done stopped =>
    cases ended
    exact .done stopped
  | failed => cases ended
  | again going ran _ ih => exact .again going (nextStatement_behind before ran) (ih ended)

/-- The run of the parser over a source text: a loop over its statements from the first token on,
with all the room there is. -/
theorem parse_loops {source : String} (nonempty : source ≠ "") {parsed : Parsed}
    (ran : parse source = .ok parsed) :
    ∃ found last, Rule.Loops (currentIsNot .endOfInput)
        (nextStatement (Inner.ofRoom maxNesting)) #[] (State.ofText source) (.ok found last) ∧
      parsed = ⟨⟨found.toList⟩, last.diagnostics.toList, last.events.toList⟩ := by
  have outermost := State.ofText_outermost source
  obtain ⟨found, last, looped, loops, -⟩ :=
    program_loops (ofRoom_framed maxNesting) (ofRoom_forward maxNesting) outermost
  refine ⟨found, last, loops, ?_⟩
  have whole : withRoom Parser.program (State.ofText source) = .ok ⟨found.toList⟩ last := by
    rw [withRoom_run, outermost.room]
    unfold program
    exact Rule.bind_ok looped
  rw [parse_eq nonempty, State.finish_eq whole] at ran
  exact (Except.ok.inj ran).symm

/-- Where the statements of a source are followed, parsing gives their trees and what is recorded on
the way if there is room, and a diagnostic of nesting if there is none. -/
theorem parse_follows {source : String} (nonempty : source ≠ "") {parsed : Parsed}
    (ran : parse source = .ok parsed) {told : List Diagnostic} {levels : Nat} {values : List Stmt}
    (follows : FollowsProgram (sourceStream source).ending told levels (sourceTokens source)
      values) :
    (levels ≤ maxNesting ∧ parsed.program = ⟨values⟩ ∧ parsed.diagnostics = told) ∨
      (maxNesting < levels ∧
        ∃ diagnostic ∈ parsed.diagnostics, diagnostic.cause.isDepth = true) := by
  obtain ⟨found, last, loops, rfl⟩ := parse_loops nonempty ran
  rcases follows _ _ _ _ _ (State.ofText_views source) (State.ofText_ending source)
    (State.ofText_outermost source).nesting loops with ⟨enough, trees, recorded⟩ | overflows
  · have none_recorded : (State.ofText source).diagnostics = #[] := State.ofStream_diagnostics _
    rw [none_recorded] at recorded
    exact .inl ⟨enough, congrArg Program.mk trees, recorded⟩
  · exact .inr overflows

/-- Where the tokens of a source have a reading and there is room for it, parsing gives its trees
and no diagnostic. -/
theorem parse_reads {source : String} (nonempty : source ≠ "") {parsed : Parsed}
    (ran : parse source = .ok parsed) {levels : Nat} {values : List Stmt}
    (reads : ReadsProgram levels (sourceTokens source) values) (enough : levels ≤ maxNesting) :
    parsed.program = ⟨values⟩ ∧ parsed.diagnostics = [] := by
  rcases parse_follows nonempty ran (reads.runs _) with ⟨-, result⟩ | ⟨short, -⟩
  · exact result
  · exact absurd short (Nat.not_lt.mpr enough)

/-- Where the tokens of a source have a reading without room for it, there is a diagnostic of
nesting. -/
theorem parse_deep {source : String} (nonempty : source ≠ "") {parsed : Parsed}
    (ran : parse source = .ok parsed) {levels : Nat} {values : List Stmt}
    (reads : ReadsProgram levels (sourceTokens source) values) (short : maxNesting < levels) :
    ∃ diagnostic ∈ parsed.diagnostics, diagnostic.cause.isDepth = true := by
  rcases parse_follows nonempty ran (reads.runs _) with ⟨enough, -⟩ | ⟨-, deep⟩
  · exact absurd short (Nat.not_lt.mpr enough)
  · exact deep

/-- Where parsing leaves no diagnostic, the tokens of the source have a reading with the trees
that parsing gives. -/
theorem parse_clean {source : String} (nonempty : source ≠ "") {parsed : Parsed}
    (ran : parse source = .ok parsed) (clean : parsed.diagnostics = []) :
    ∃ levels, levels ≤ maxNesting ∧
      ReadsProgram levels (sourceTokens source) parsed.program.statements := by
  obtain ⟨found, last, loops, rfl⟩ := parse_loops nonempty ran
  have last_clean : last.Clean := Array.toList_eq_nil_iff.mp clean
  obtain ⟨values, levels, same, enough, reads⟩ :=
    program_traced (derive_traced maxNesting) loops last_clean (State.ofText_views source)
  refine ⟨levels, enough, ?_⟩
  rw [same]
  exact reads

end Parser

end ExprLang
