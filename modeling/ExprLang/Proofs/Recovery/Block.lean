import ExprLang.Proofs.Reading.Source

/-!
# Recovery inside a block

Skipping behind a fault inside a block does not count braces: it ends at the next semicolon, before
the next closing brace and before the next keyword, whatever construct these belong to. So a
binding without a name that has none of them up to its semicolon (`Unnamed`) costs its block nothing
else (`block_recovers`), and the source around the block is read as without it, with one diagnostic
more (`program_recovers`).
-/

namespace ExprLang

/-- Whether skipping behind a fault passes a token of a kind inside a block. -/
def Kind.isSkipped : Kind → Bool
  | .semicolon | .rightBrace => false
  | kind => !kind.startsStatement

/-- What is skipped is no semicolon, no keyword of a statement and no closing brace. -/
theorem Kind.isSkipped_iff {kind : Kind} : kind.isSkipped = true ↔
    kind ≠ .semicolon ∧ kind.startsStatement = false ∧ kind ≠ .rightBrace := by
  cases kind <;> simp [isSkipped, startsStatement]

namespace Parser

/-! ## Skipping up to a semicolon -/

section

variable {close : Token} {rest : List Token} {line : Int}

/-- A token is skipped if the next one is on its line and is passed too. -/
theorem recovering_on {token next : Token} {tokens : List Token} {state : State}
    (views : state.At (token :: next :: tokens)) (first : token.kind ≠ .semicolon)
    (inside : next.kind.startsStatement = false ∧ next.kind ≠ .rightBrace)
    (same : next.position.line = token.position.line) : recovering state = true := by
  have solid := views.solid token List.mem_cons_self
  have next_solid := views.solid next (List.mem_cons_of_mem _ List.mem_cons_self)
  unfold recovering
  rw [views.current_eq, views.behind.peek_eq, same]
  simp [first, solid, next_solid, inside]

/-- Skipping passes the tokens of a line up to a semicolon, if no keyword and no closing brace is
among them. -/
theorem synchronize_skips (closing : close.kind = .semicolon) {skipped : List Token}
    {token : Token} {state : State} (views : state.At (token :: (skipped ++ close :: rest)))
    (first : token.kind ≠ .semicolon) (inside : ∀ other ∈ skipped, other.kind.isSkipped = true)
    (lines : ∀ other ∈ token :: (skipped ++ [close]), other.position.line = line) :
    ∃ last, synchronize state = .ok () last ∧ last.At (close :: rest) ∧ State.Quiet state last := by
  have loop : ∀ other : State, other.stream.ending.kind = .endOfInput →
      Rule.LoopEnds recovering skippingTurn () other := fun _ ended =>
    (loops_end (ofRoom_forward 0) ended).skipping
  induction skipped generalizing token state with
  | nil =>
    have next_line := lines close (List.mem_cons_of_mem _ List.mem_cons_self)
    have going := recovering_on views first (by simp [closing, Kind.startsStatement])
      (next_line.trans (lines token List.mem_cons_self).symm)
    have stops := views.behind.step
    have stopped : recovering state.advance = false := by
      unfold recovering
      rw [stops.current_eq, closing]
      rfl
    refine ⟨state.advance, ?_, stops, state.advance_quiet⟩
    exact ((loop state views.ended).again (loop _ stops.ended) going rfl).trans
      ((loop _ stops.ended).done stopped)
  | cons next skipped ih =>
    have plain := Kind.isSkipped_iff.mp (inside next List.mem_cons_self)
    have next_line := lines next (List.mem_cons_of_mem _ List.mem_cons_self)
    have going := recovering_on views first plain.2
      (next_line.trans (lines token List.mem_cons_self).symm)
    have stops := views.behind.step
    obtain ⟨last, ran, views_last, quiet⟩ := ih stops plain.1
      (fun other found => inside other (List.mem_cons_of_mem _ found))
      (fun other found => lines other (List.mem_cons_of_mem _ found))
    refine ⟨last, ?_, views_last, state.advance_quiet.trans quiet⟩
    exact ((loop state views.ended).again (loop _ stops.ended) going rfl).trans ran

end

/-! ## A binding without a name -/

section

variable {close keyword sign : Token} {skipped : List Token} {line : Int}

/-- Tokens of a line that a block skips as one broken statement: a binding without a name, with
nothing among its tokens where skipping ends before its semicolon. -/
structure Unnamed (keyword sign : Token) (skipped : List Token) (close : Token) (line : Int) :
    Prop where
  /-- The keyword of a binding. -/
  binds : keyword.kind = .letWord
  /-- No name behind it. -/
  unnamed : sign.kind ≠ .identifier
  /-- Nothing to stop at. -/
  inside : ∀ other ∈ sign :: skipped, other.kind.isSkipped = true
  /-- The semicolon. -/
  closing : close.kind = .semicolon
  /-- All on one line. -/
  lines : ∀ other ∈ keyword :: sign :: (skipped ++ [close]), other.position.line = line

/-- What is wrong with a token in the place of a name. -/
def nameExpected (found : Token) : Diagnostic :=
  ⟨.expected "identifier" found.toLexeme, found.position⟩

variable {rest : List Token} (broken : Unnamed keyword sign skipped close line)

include broken

/-- In a block a binding without a name costs its own tokens, and is one diagnostic. -/
theorem nextInBlock_unnamed (inner : Inner) (room : Nat) (before : Array Stmt) {state : State}
    (views : state.At (keyword :: sign :: (skipped ++ close :: rest))) :
    (nextInBlock inner before).Yields state [nameExpected sign] 0 room before (·.At rest) := by
  obtain rfl := views.current_eq
  have noted : (state.note (.statement state.current)).At
      (state.current :: sign :: (skipped ++ close :: rest)) :=
    views.congr (fun index => state.token_note _ index) rfl
  have here := noted.behind.peek_eq
  have failed : binding inner (state.note (.statement state.current)) =
      .error (nameExpected sign) (state.note (.statement state.current)) := by
    refine (Rule.current_bind _ _).trans (Rule.bind_error ?_)
    have absent := Rule.expect_failed "identifier" (show _ ≠ _ by rw [here]; exact broken.unnamed)
    rwa [here] at absent
  have recorded : ((state.note (.statement state.current)).record (nameExpected sign)).At
      (state.current :: ((sign :: skipped) ++ close :: rest)) :=
    noted.congr (fun index => State.token_record _ (nameExpected sign) index) rfl
  obtain ⟨last, skips, stops, quiet⟩ := synchronize_skips broken.closing recorded
    (by rw [broken.binds]; decide) broken.inside broken.lines
  have ran : statement inner state = .ok none last := by
    rw [Rule.statement_run, broken.binds, map_eq_pure_bind]
    refine (Rule.tryCatch_error (Rule.bind_error failed)).trans ?_
    rw [Rule.recover_run, if_neg (by simp [nameExpected, Cause.isDepth])]
    exact (Rule.bind_ok skips).trans rfl
  have more : state.current.kind ≠ .endOfInput := by
    rw [broken.binds]
    decide
  refine .of_ok ?_ stops.behind.step ⟨?_, ?_, ?_⟩
  · unfold nextInBlock
    rw [Rule.current_bind, if_neg more]
    unfold nextStatement
    rw [Rule.bind_ok ran, Rule.advance_bind, Option.toArray_none, Array.append_empty]
    rfl
  · rw [State.advance_nesting, quiet.nesting]
    rfl
  · rw [State.advance_ending, quiet.ending]
    rfl
  · rw [State.advance_diagnostics, quiet.same]
    simp [State.record, State.note]

/-- A block that begins with a binding without a name has the statements behind it. -/
theorem block_recovers {inside : List Token} {levels : Nat} {values : List Stmt}
    (reads : Reads (.statements values) levels inside rest) (ending : Token) :
    (Phrase.block values).Follows ending [nameExpected sign] (levels + 1)
      (keyword :: sign :: (skipped ++ close :: inside)) rest := by
  refine .block fun room state within views positive before => ?_
  have going : currentIsNot .rightBrace state = true := by
    unfold currentIsNot
    rw [views.current_eq, broken.binds]
    rfl
  have whole := Rule.Yields.again
    (fun values _ ended => (loops_end (ofRoom_forward room) ended).block values) views.ended
    going (nextInBlock_unnamed broken (Inner.ofRoom room) room before views)
    (fun _ stops => stops.ended) fun middle stops tells => by
      have positive_behind : 0 < middle.nesting := by
        rw [tells.nesting]
        exact positive
      exact reads.runs ending room middle (within.told tells) stops positive_behind before
  rwa [List.append_nil, Nat.zero_max] at whole

end

/-! ## Around the block -/

section

variable {room : Nat} {tokens inside : List Token}

/-- A source that binds a function whose block begins with a binding without a name has this one
statement, with what stands behind the broken one in the function, or a fault of nesting. -/
theorem program_recovers
    {keyword target sign word opening brace first other semicolon close : Token}
    {skipped : List Token} {names : List Ident} {values : List Stmt} {levels : Nat} {line : Int}
    (binds : keyword.kind = .letWord) (named : target.kind = .identifier)
    (assigned : sign.kind = .assign) (kind : word.kind = .functionWord)
    (paren : opening.kind = .leftParen)
    (parameters : ReadsNames tokens
      (brace :: first :: other :: (skipped ++ semicolon :: inside)) names)
    (curly : brace.kind = .leftBrace) (broken : Unnamed first other skipped semicolon line)
    (reads : Reads (.statements values) levels inside [close]) (closing : close.kind = .semicolon)
    {state last : State}
    (views : state.At (keyword :: target :: sign :: word :: opening :: tokens))
    (outermost : state.nesting = 0) {found : Array Stmt}
    (loops : Rule.Loops (currentIsNot .endOfInput) (nextStatement (Inner.ofRoom room)) #[] state
      (.ok found last)) :
    found.toList = [.binding ⟨target.text, target.position⟩ (.function names values word.position)
        keyword.position] ∧
      last.diagnostics.toList = state.diagnostics.toList ++ [nameExpected other] ∨ last.Deep := by
  have looser : ¬ Precedence.lowest < .ofKind (headKind [close]) := by
    rw [headKind, closing]
    decide
  have literal : (Phrase.operand (.function names values word.position)).Follows
      state.stream.ending [nameExpected other] (levels + 1) (word :: opening :: tokens) [close] :=
    .function kind paren parameters curly (block_recovers broken reads _)
  have statement := Phrase.Follows.binding binds named assigned
    (.expression literal (.noOperator looser)) closing
  have follows := FollowsProgram.next (by rw [headKind, binds]; decide) statement (.done _)
  rcases follows room state last _ found views rfl outermost loops with
    ⟨-, trees, added⟩ | ⟨-, deep⟩
  · exact .inl ⟨trees, added⟩
  · exact .inr deep

end

end Parser

end ExprLang
