import ExprLang.Proofs.Reading.Extent
import ExprLang.Proofs.Relocation.Grammar
import ExprLang.Proofs.Relocation.Scan

/-!
# Joined sources

Moving all tokens down by some lines moves the whole run down with them: skipping behind a fault
compares lines with each other only (`recover_down`). A clean source whose last statement is over
with its last token is read alike in front of more text (`ReadsProgram.passes`). So the statements
and the diagnostics of two sources with a line feed between them are those of both, with the second
ones further down (`parse_joined`).
-/

namespace ExprLang.Parser

open Movable (moved)

/-! ## Runs further down -/

/-- All positions some lines further down. -/
def down (lines : Nat) : Relocation where
  move := Position.down lines
  lost _ _ := False
  stays lost _ _ := lost

/-- The same tokens are skipped further down. -/
theorem recovering_down {lines : Nat} {state image : State}
    (mirrors : State.Mirrors (down lines).move state image) :
    recovering image = recovering state := by
  have line : image.current.position.line = state.current.position.line + lines := by
    rw [mirrors.current]
    rfl
  have next_line : image.peek.position.line = state.peek.position.line + lines := by
    rw [mirrors.peek]
    rfl
  unfold recovering
  rw [mirrors.current_kind, mirrors.peek_kind, mirrors.depth, line, next_line]
  simp

/-- The way behind a fault does the same further down. -/
theorem recover_down (lines : Nat) : Rule.Natural (down lines) recover := by
  refine recover_natural_of fun state image mirrors _ => ?_
  have turns : Rule.Natural (down lines) skippingTurn :=
    .sequence .advance (.value fun _ => rfl)
  have loop : Rule.Natural (down lines) fun _ : Unit => synchronize :=
    .loop turns (fun _ _ => recovering_down) fun _ _ ended =>
      (loops_end (ofRoom_forward 0) ended).skipping
  have skips : Rule.Natural (down lines) fun _ : Unit => Rule.skipStatement :=
    .sequence loop (.value fun _ => rfl)
  exact skips.agree () state image mirrors

/-! ## Sources behind others -/

/-- The last statement of a source is over with its last token, in front of more tokens: it ends
with a semicolon, or it is a condition and no other branch of it follows. -/
def Complete (tokens : List Token) (values : List Stmt) (more : List Token) : Prop :=
  lastKind tokens = some .semicolon ∨
    (∃ value ∈ values.getLast?, value.isCondition = true) ∧ headKind more ≠ .elseWord

/-- Behind a statement the others are over where all are. -/
theorem Complete.tail {used tokens more : List Token} {value : Stmt} {values : List Stmt}
    (complete : Complete (used ++ tokens) (value :: values) more) (some_tokens : tokens ≠ [])
    (some_values : values ≠ []) : Complete tokens values more := by
  have last : (value :: values).getLast? = values.getLast? := by
    obtain ⟨next, rest, rfl⟩ := List.exists_cons_of_ne_nil some_values
    exact List.getLast?_cons_cons
  unfold Complete at complete ⊢
  rwa [lastKind_append_of_ne_nil used some_tokens, last] at complete

/-- Statements have tokens. -/
theorem ReadsProgram.tokens_ne_nil {levels : Nat} {tokens : List Token} {values : List Stmt}
    (reads : ReadsProgram levels tokens values) (some_values : values ≠ []) : tokens ≠ [] := by
  cases reads with
  | done => exact absurd rfl some_values
  | next first _ =>
    rintro rfl
    have begins := first.statement_begins
    exact absurd begins (by decide)

/-- The first statement of a source is read alike in front of more tokens, where the last one is
over. -/
theorem ReadsProgram.first_reads {near far : Nat} {tokens behind more : List Token} {value : Stmt}
    {values : List Stmt} (first : Reads (.statement value) near tokens behind)
    (others : ReadsProgram far behind values) (complete : Complete tokens (value :: values) more) :
    Reads (.statement value) near (tokens ++ more) (behind ++ more) ∧
      (values ≠ [] → Complete behind values more) := by
  obtain ⟨used, rfl, -, reads⟩ := first.extent
  rw [List.append_assoc]
  cases values with
  | nil =>
    cases others
    refine ⟨reads more (.inr ?_), fun some_values => absurd rfl some_values⟩
    rw [List.append_nil] at complete
    rcases complete with closed | ⟨⟨last, member, tests⟩, follows⟩
    · exact .inl closed
    · obtain rfl : value = last := Option.some.inj member
      exact .inr ⟨tests, follows⟩
  | cons next values =>
    have some_tokens := others.tokens_ne_nil (List.cons_ne_nil _ _)
    have same := headKind_append_of_ne_nil some_tokens more []
    rw [List.append_nil] at same
    exact ⟨reads _ (.inl (.of_head same)), complete.tail some_tokens⟩

/-- A clean source is read alike in front of more tokens, where its last statement is over. -/
theorem ReadsProgram.passes {levels room : Nat} {tokens : List Token} {values : List Stmt}
    (reads : ReadsProgram levels tokens values) (enough : levels ≤ room) {more : List Token}
    (complete : values ≠ [] → Complete tokens values more) {state last : State}
    (views : state.At (tokens ++ more)) (outermost : state.nesting = 0)
    {before found : Array Stmt}
    (loops : Rule.Loops (currentIsNot .endOfInput) (nextStatement (Inner.ofRoom room)) before state
      (.ok found last)) :
    ∃ middle, Rule.Loops (currentIsNot .endOfInput) (nextStatement (Inner.ofRoom room))
        (before ++ values.toArray) middle (.ok found last) ∧ middle.At more ∧
      State.Framed state middle ∧ middle.diagnostics = state.diagnostics := by
  induction reads generalizing state before with
  | done => exact ⟨state, by simpa using loops, views, .refl state, rfl⟩
  | @next near far tokens behind value values first others ih =>
    obtain ⟨reads, complete_behind⟩ := others.first_reads first (complete (List.cons_ne_nil _ _))
    cases loops with
    | done stopped =>
      have ended : last.current.kind = .endOfInput := by simpa [currentIsNot] using stopped
      have begins := reads.statement_begins
      rw [← views.current_kind, ended] at begins
      exact absurd begins (by decide)
    | again _ ran further =>
      rcases nextStatement_follows (reads.runs _) views outermost ran with
        ⟨-, rfl, stops, quiet⟩ | ⟨short, -⟩
      · have kept := framed_closed.nextStatement_holds (ofRoom_framed room) before
        have framed := kept.of_ok ran
        obtain ⟨middle, loops, stops, framed_behind, same⟩ := ih (by omega) complete_behind stops
          (quiet.nesting.trans outermost) further
        refine ⟨middle, ?_, stops, framed.trans framed_behind, same.trans quiet.same⟩
        simpa using loops
      · omega

/-- A source that ends with a condition ends with a brace. -/
theorem ReadsProgram.last_brace {levels : Nat} {tokens : List Token} {values : List Stmt}
    (reads : ReadsProgram levels tokens values) {value : Stmt} (member : value ∈ values.getLast?)
    (tests : value.isCondition = true) : lastKind tokens = some .rightBrace := by
  induction reads with
  | done => cases member
  | @next near far tokens behind value values first others ih =>
    obtain ⟨used, rfl, ends, -⟩ := first.extent
    cases values with
    | nil =>
      cases others
      cases member
      rw [List.append_nil]
      exact ends.2 tests
    | cons next values =>
      rw [lastKind_append_of_ne_nil used (others.tokens_ne_nil (List.cons_ne_nil _ _))]
      refine ih ?_
      rwa [List.getLast?_cons_cons] at member

/-- A source that is complete does not end with an illegal token. -/
theorem ReadsProgram.last_legal {levels : Nat} {tokens more : List Token} {values : List Stmt}
    (reads : ReadsProgram levels tokens values) (complete : Complete tokens values more) :
    ∀ token ∈ tokens.getLast?, token.kind ≠ .illegal := by
  intro token member illegal
  have last : lastKind tokens = some .illegal := by
    rw [lastKind, Option.mem_def.mp member, Option.map_some, illegal]
  rcases complete with closed | ⟨⟨value, ends, tests⟩, -⟩
  · rw [closed] at last
    cases last
  · rw [reads.last_brace ends tests] at last
    cases last

/-! ## Two sources as one -/

/-- A source further down mirrors the source on its own. -/
theorem State.ofText_mirrors_down {second : String} {state : State} {lines : Nat}
    (views : state.At ((sourceTokens second).map (moved (Position.down lines))))
    (ending : state.stream.ending = moved (Position.down lines) (sourceStream second).ending)
    (depth : state.depth = 0) (nesting : state.nesting = 0)
    (none_recorded : state.diagnostics = #[]) :
    Mirrors (Position.down lines) (State.ofText second) state := by
  have start := State.ofText_outermost second
  refine ⟨fun index => ?_, ?_, ?_, ?_, start.ended, views.ended⟩
  · have found := views.along index
    rw [Nat.add_zero, ending] at found
    rw [found, State.ofText_token]
    unfold TokenStream.get
    rw [List.getD_eq_getElem?_getD, List.getD_eq_getElem?_getD, List.getElem?_map]
    unfold sourceTokens
    cases (sourceStream second).upcoming[index]? <;> rfl
  · rw [start.depth, depth]
  · rw [start.nesting, nesting]
  · have fresh : (State.ofText second).diagnostics = #[] := State.ofStream_diagnostics _
    rw [fresh, none_recorded]
    exact (moved_empty _).symm

/-- The loop over the statements of a source does the same further down, behind statements read
before. -/
theorem program_down {lines room : Nat} {state image : State}
    (mirrors : State.Mirrors (Position.down lines) state image) (before : Array Stmt)
    {found image_found : Array Stmt} {last image_last : State}
    (loops : Rule.Loops (currentIsNot .endOfInput) (nextStatement (Inner.ofRoom room)) #[] state
      (.ok found last))
    (image_loops : Rule.Loops (currentIsNot .endOfInput) (nextStatement (Inner.ofRoom room)) before
      image (.ok image_found image_last)) :
    image_found = before ++ moved (Position.down lines) found ∧
      State.Mirrors (Position.down lines) last image_last := by
  have forward := ofRoom_forward room
  have looped := program_loop_eq forward mirrors.ended loops
  have image_looped := (loops_end forward mirrors.image_ended).program #[]
  have agreed := program_agree (recover_down lines) room mirrors
  unfold Rule.LoopEnds at image_looped
  rw [looped] at agreed
  generalize Rule.repeatWhile (currentIsNot .endOfInput) (nextStatement (Inner.ofRoom room)) #[]
    image = result at agreed image_looped
  cases agreed with
  | value _ mirrors =>
    have behind := program_behind before image_looped
    rw [Array.append_empty] at behind
    obtain ⟨rfl, rfl⟩ := EStateM.Result.ok.inj (image_loops.unique behind)
    exact ⟨rfl, mirrors⟩
  | lost lost => exact lost.elim

/-- Parsing is compositional at the ends of statements. A clean source that is complete and any
second source, with a line feed between them, have the statements of both and the diagnostics of
the second one, where everything of the second source is further down by the lines of the first. -/
theorem parse_joined {first second : String} {parsed : Parsed} (ran : parse first = .ok parsed)
    (clean : parsed.diagnostics = [])
    (complete : Complete (sourceTokens first) parsed.program.statements (sourceTokens second))
    (nonempty : second ≠ "") :
    ∃ parsed' joined, parse second = .ok parsed' ∧ parse (first ++ "\n" ++ second) = .ok joined ∧
      joined.program.statements = parsed.program.statements ++ parsed'.program.statements.map
        (Stmt.moved (Position.down (1 + first.toList.count '\n'))) ∧
      joined.diagnostics =
        parsed'.diagnostics.map (moved (Position.down (1 + first.toList.count '\n'))) := by
  have first_nonempty : first ≠ "" := by
    rintro rfl
    cases ran
  have joined_nonempty : first ++ "\n" ++ second ≠ "" := by
    simp
  obtain ⟨levels, enough, reads⟩ := parse_clean first_nonempty ran clean
  have stream := sourceStream_joined (reads.last_legal complete) second
  generalize 1 + first.toList.count '\n' = lines at stream ⊢
  have ran' := parse_eq nonempty
  have joined_ran := parse_eq joined_nonempty
  obtain ⟨found', last', loops', same'⟩ := parse_loops nonempty ran'
  obtain ⟨found, last, loops, same⟩ := parse_loops joined_nonempty joined_ran
  refine ⟨_, _, ran', joined_ran, ?_⟩
  have start := State.ofText_outermost (first ++ "\n" ++ second)
  have views := State.ofText_views (first ++ "\n" ++ second)
  have fresh : (State.ofText (first ++ "\n" ++ second)).diagnostics = #[] :=
    State.ofStream_diagnostics _
  rw [sourceTokens, stream] at views
  obtain ⟨middle, further, stops, framed, quiet⟩ := reads.passes enough
    (fun _ => by rwa [Complete, headKind_moved]) views start.nesting loops
  rw [Array.empty_append] at further
  have ending : middle.stream.ending =
      moved (Position.down lines) (sourceStream second).ending := by
    rw [framed.ending, State.ofText_ending, stream]
  have mirrors := State.ofText_mirrors_down stops ending (framed.depth.trans start.depth)
    (framed.nesting.trans start.nesting) (quiet.trans fresh)
  obtain ⟨trees, mirrors⟩ := program_down mirrors _ loops' further
  rw [same, same', trees, mirrors.diagnostics]
  dsimp only
  rw [Array.toList_append, moved_toList, moved_toList]
  exact ⟨rfl, rfl⟩

/-- A condition in front of a source that is broken on its first line. -/
theorem parse_joined_broken :
    ∃ parsed, parse "if (a) \x7b b; \x7d" = .ok parsed ∧ parsed.diagnostics = [] ∧
      Complete (sourceTokens "if (a) \x7b b; \x7d") parsed.program.statements
        (sourceTokens "let 5 x\nlet y = 1;") ∧
      "let 5 x\nlet y = 1;" ≠ "" ∧
      ∃ parsed' joined, parse "let 5 x\nlet y = 1;" = .ok parsed' ∧
        parse ("if (a) \x7b b; \x7d" ++ "\n" ++ "let 5 x\nlet y = 1;") = .ok joined ∧
        joined.program.statements = parsed.program.statements ++ parsed'.program.statements.map
          (Stmt.moved (Position.down (1 + "if (a) \x7b b; \x7d".toList.count '\n'))) ∧
        joined.diagnostics = parsed'.diagnostics.map
          (moved (Position.down (1 + "if (a) \x7b b; \x7d".toList.count '\n'))) := by
  have ran : parse "if (a) \x7b b; \x7d" =
      .ok (State.ofText "if (a) \x7b b; \x7d").finish := parse_eq (by decide)
  have clean : (State.ofText "if (a) \x7b b; \x7d").finish.diagnostics = [] := by rfl
  have complete : Complete (sourceTokens "if (a) \x7b b; \x7d")
      (State.ofText "if (a) \x7b b; \x7d").finish.program.statements
      (sourceTokens "let 5 x\nlet y = 1;") := by
    refine .inr ⟨⟨_, rfl, rfl⟩, by decide⟩
  exact ⟨_, ran, clean, complete, by decide, parse_joined ran clean complete (by decide)⟩

end ExprLang.Parser
