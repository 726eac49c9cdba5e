import ExprLang.Parser.Source
import ExprLang.Proofs.Loop
import ExprLang.Proofs.Scan

/-!
# The end of a run

Every run over a source text ends with a program: the outermost statement leaves no fault, the
frame brings the counters back to zero, and the loop over the statements ends at the end of the
source only (`program_ends_cleanly`).
-/

namespace ExprLang.Parser

variable {inner : Inner}

/-- Skipping ends with a value. -/
theorem synchronize_ok {state : State} (ended : state.stream.ending.kind = .endOfInput) :
    ∃ last, synchronize state = .ok () last := by
  have loops := (loops_end (ofRoom_forward 0) ended).skipping
  obtain ⟨_, last, ran, _⟩ := loops.succeeds (fun _ => True) trivial
    fun _ state _ _ => ⟨(), state.advance, rfl, trivial⟩
  exact ⟨last, ran⟩

/-- Outside of all constructs a fault of a statement is recorded, and the parser goes on. -/
theorem recover_ok (fault : Diagnostic) {state : State}
    (ended : state.stream.ending.kind = .endOfInput) (outermost : state.nesting ≤ 0) :
    ∃ last, recover fault state = .ok none last := by
  have stays_ended : (state.record fault).stream.ending.kind = .endOfInput := ended
  obtain ⟨last, skipped⟩ := synchronize_ok stays_ended
  have stays : ¬ (fault.cause.isDepth = true ∧ 0 < state.nesting) := fun deep => by omega
  refine ⟨last, ?_⟩
  rw [Rule.recover_run, if_neg stays, Rule.skipStatement, Rule.bind_ok skipped]
  rfl

/-- Outside of all constructs a statement leaves no fault. -/
theorem statement_ok (framed : inner.Holds Rule.Framed) {state : State}
    (ended : state.stream.ending.kind = .endOfInput) (outermost : state.nesting ≤ 0) :
    ∃ read last, statement inner state = .ok read last := by
  have kept := framed_closed.statementOfKind_holds framed state.current.kind
    (state.note (.statement state.current))
  cases ran : statementOfKind inner state.current.kind
      (state.note (.statement state.current)) with
  | ok read last => exact ⟨some read, last, Rule.statement_of_ok ran⟩
  | error fault last =>
    rw [Rule.after_error ran] at kept
    obtain ⟨last, recovered⟩ := recover_ok fault (kept.ending ▸ ended) (kept.nesting ▸ outermost)
    exact ⟨none, last, (Rule.statement_of_error ran).trans recovered⟩

/-- A state between two statements of a source: outside of all constructs, with nothing put
back. -/
structure State.Outermost (state : State) : Prop where
  /-- The stream ends. -/
  ended : state.stream.ending.kind = .endOfInput
  /-- No block is open. -/
  depth : state.depth = 0
  /-- No construct is open. -/
  nesting : state.nesting = 0
  /-- No token is put back. -/
  empty : state.putBack = []

/-- Between two statements the state is tidy. -/
theorem State.Outermost.tidy {state : State} (outermost : state.Outermost) : state.Tidy :=
  ⟨by simp [outermost.empty], fun _ => outermost.empty⟩

/-- Between two statements there is all the room. -/
theorem State.Outermost.room {state : State} (outermost : state.Outermost) :
    state.room = maxNesting := by
  unfold State.room
  rw [outermost.nesting]
  rfl

/-- From one statement of a source to the next the parser leaves no fault. -/
theorem nextStatement_ok (framed : inner.Holds Rule.Framed) (statements : Array Stmt)
    {state : State} (outermost : state.Outermost) :
    ∃ read last, nextStatement inner statements state = .ok read last ∧ last.Outermost := by
  obtain ⟨read, middle, ran⟩ := statement_ok framed outermost.ended (Int.le_of_eq outermost.nesting)
  have kept := framed_closed.statement_holds framed state
  rw [Rule.after_ok ran] at kept
  refine ⟨statements ++ read.toArray, middle.advance, ?_, ?_⟩
  · unfold nextStatement
    rw [Rule.bind_ok ran, Rule.bind_ok (Rule.advance_run middle)]
    rfl
  · have single := (kept.tidy outermost.tidy).single
    refine ⟨?_, ?_, ?_, ?_⟩
    · rw [State.advance_ending, kept.ending, outermost.ended]
    · rw [State.advance_depth, kept.depth, outermost.depth]
    · rw [State.advance_nesting, kept.nesting, outermost.nesting]
    · apply List.eq_nil_of_length_eq_zero
      rw [State.advance_putBack, List.length_tail]
      omega

/-- The loop over the statements of a source ends by itself and with a value, whatever is wrong
with the source. -/
theorem program_loops (framed : inner.Holds Rule.Framed) (forward : inner.Holds Rule.Forward)
    {state : State} (outermost : state.Outermost) :
    ∃ statements last,
      Rule.repeatWhile (currentIsNot .endOfInput) (nextStatement inner) #[] state =
        .ok statements last ∧
      Rule.Loops (currentIsNot .endOfInput) (nextStatement inner) #[] state
        (.ok statements last) ∧ last.Outermost := by
  have loops := (loops_end forward outermost.ended).program #[]
  obtain ⟨statements, last, ran, kept⟩ := loops.succeeds State.Outermost outermost
    fun statements state outside _ => nextStatement_ok framed statements outside
  unfold Rule.LoopEnds at loops
  rw [ran] at loops
  exact ⟨statements, last, ran, loops, kept⟩

/-- All statements of a source are read, whatever is wrong with it. -/
theorem program_ok (framed : inner.Holds Rule.Framed) (forward : inner.Holds Rule.Forward)
    {state : State} (outermost : state.Outermost) :
    ∃ read last, program inner state = .ok read last ∧ last.Outermost ∧
      last.current.kind = .endOfInput := by
  obtain ⟨statements, last, ran, loops, kept⟩ := program_loops framed forward outermost
  refine ⟨⟨statements.toList⟩, last, ?_, kept, ?_⟩
  · unfold program
    rw [Rule.bind_ok ran]
    rfl
  · simpa [currentIsNot] using loops.stopped

/-- At the start of a stream nothing is open and nothing is put back. -/
theorem State.ofStream_outermost {stream : TokenStream}
    (ended : stream.ending.kind = .endOfInput) : (State.ofStream stream).Outermost := by
  obtain ⟨-, -, -, putBack, depth, nesting, -⟩ := (State.blank stream).pull_rest
  obtain ⟨-, -, -, putBack', depth', nesting', -⟩ := (State.blank stream).pull.2.pull_rest
  refine ⟨?_, ?_, ?_, ?_⟩
  · rw [State.ofStream_ending]
    exact ended
  · exact depth'.trans depth
  · exact nesting'.trans nesting
  · refine putBack'.trans ?_
    rw [putBack]
    rfl

/-- At the start of a source text nothing is open and nothing is put back. -/
theorem State.ofText_outermost (source : String) : (State.ofText source).Outermost :=
  State.ofStream_outermost (Scanner.drain_scans _).ending_kind

/-- The parser of a source text starts at its first token. -/
theorem State.ofSource_eq {source : String} (nonempty : source ≠ "") :
    State.ofSource source = .ok (State.ofText source) := by
  unfold State.ofSource Scanner.start
  rw [if_neg nonempty]
  rfl

/-- Parsing a source text runs the rule of programs from the first token. -/
theorem parse_eq {source : String} (nonempty : source ≠ "") :
    parse source = .ok (State.ofText source).finish := by
  unfold parse
  rw [State.ofSource_eq nonempty]
  rfl

/-- A source text that is parsed is not empty. -/
theorem nonempty_of_parse {source : String} {parsed : Parsed} (ran : parse source = .ok parsed) :
    source ≠ "" := by
  rintro rfl
  cases ran

/-- A rule in the room that a state has. -/
theorem withRoom_run {α : Type} (rule : Inner → Rule α) (state : State) :
    withRoom rule state = rule (Inner.ofRoom state.room) state := by
  unfold withRoom
  exact Rule.bind_ok (show (get : Rule State) state = .ok state state from rfl)

/-- The result of parsing is what the rule of programs leaves. -/
theorem State.finish_eq {state last : State} {read : Program}
    (ran : withRoom Parser.program state = .ok read last) :
    state.finish = ⟨read, last.diagnostics.toList, last.events.toList⟩ := by
  unfold State.finish
  rw [ran]

/-- Parsing a source text ends cleanly. The rule of programs ends with a program and no fault, at
the end of the source, with the counters back at zero and nothing put back. Every statement, in
whatever state it starts, ends at its first token or behind it, with a value or with a fault.
And each loop on the way ends by itself. -/
theorem program_ends_cleanly {source : String} (nonempty : source ≠ "") :
    (∃ start read last, State.ofSource source = .ok start ∧
      withRoom Parser.program start = .ok read last ∧
      parse source = .ok ⟨read, last.diagnostics.toList, last.events.toList⟩ ∧
      last.current.kind = .endOfInput ∧ last.depth = 0 ∧ last.nesting = 0 ∧
      last.putBack = []) ∧
    (∀ room state, State.Reaches state ((statement (Inner.ofRoom room)).after state)) ∧
    ∀ room (state : State), state.stream.ending.kind = .endOfInput →
      LoopsEnd (Inner.ofRoom room) state := by
  refine ⟨?_, fun room state => ?_, fun room state ended => ?_⟩
  · obtain ⟨read, last, ran, outermost, atEnd⟩ := program_ok
      (ofRoom_framed (State.ofText source).room) (ofRoom_forward _) (State.ofText_outermost source)
    have whole := (withRoom_run Parser.program (State.ofText source)).trans ran
    have parsed := parse_eq nonempty
    rw [State.finish_eq whole] at parsed
    exact ⟨State.ofText source, read, last, State.ofSource_eq nonempty, whole, parsed, atEnd,
      outermost.depth, outermost.nesting, outermost.empty⟩
  · exact Rule.forward_closed.statement_holds (ofRoom_forward room) state
  · exact loops_end (ofRoom_forward room) ended

/-- A source that breaks off inside a block, behind a missing name and a missing operand. -/
theorem program_ends_cleanly_broken :
    "let f = fn() \x7b let = ; -" ≠ "" ∧
    (∃ start read last, State.ofSource "let f = fn() \x7b let = ; -" = .ok start ∧
      withRoom Parser.program start = .ok read last ∧
      parse "let f = fn() \x7b let = ; -" =
        .ok ⟨read, last.diagnostics.toList, last.events.toList⟩ ∧
      last.current.kind = .endOfInput ∧ last.depth = 0 ∧ last.nesting = 0 ∧
      last.putBack = []) ∧
    (∀ room state, State.Reaches state ((statement (Inner.ofRoom room)).after state)) ∧
    ∀ room (state : State), state.stream.ending.kind = .endOfInput →
      LoopsEnd (Inner.ofRoom room) state :=
  ⟨by decide, program_ends_cleanly (by decide)⟩

end ExprLang.Parser
