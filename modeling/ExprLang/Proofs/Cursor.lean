import ExprLang.Proofs.Reading.Source

/-!
# The cursor of a parser

A parser pulls its tokens from a stream with line breaks, looks at two of them at a time, and can
put one back. None of this shows. What it pulls is what a scanner reads that drops line breaks, and
the end for ever (`tokenize_without_breaks`). Stepping forward and back moves no more than an index
into these tokens (`window_follows`): the step lemma is `Tracks.step`, and a step back goes back
exactly where the last step went forward.
-/

namespace ExprLang.Parser

/-! ## Pulling tokens -/

/-- The token that is pulled behind a number of others. -/
def State.pulled (state : State) : Nat → Token
  | 0 => state.pull.1
  | index + 1 => state.pull.2.pulled index

/-- What is pulled are the tokens behind the window. -/
theorem State.pulled_eq (state : State) (index : Nat) :
    state.pulled index = state.token (index + 2) := by
  induction index generalizing state with
  | zero => exact state.pull_fst
  | succ index ih =>
    calc
      state.pulled (index + 1) = state.pull.2.token (index + 2) := ih state.pull.2
      _ = state.advance.token (index + 2) := rfl
      _ = state.token (index + 3) := state.advance_token (index + 2)

/-- Both ways to treat line breaks agree. Without the line breaks, the tokens of a scanner that
keeps them are the tokens of a scanner that drops them, each at its place. A parser of the source
has pulled the first two of these at its start, and pulls the others and then the end for ever. -/
theorem tokenize_without_breaks {source : String} (nonempty : source ≠ "") :
    ∃ kept tokens ending start, tokenize source true = .ok kept ∧
      tokenize source false = .ok (kept.filter (·.kind ≠ .lineBreak)) ∧
      kept.filter (·.kind ≠ .lineBreak) = tokens ++ [ending] ∧ ending.kind = .endOfInput ∧
      State.ofSource source = .ok start ∧ start.current = tokens.getD 0 ending ∧
      start.peek = tokens.getD 1 ending ∧
      ∀ index, start.pulled index = tokens.getD (index + 2) ending := by
  have scans := Scanner.drain_scans (Scanner.ofText source true)
  have same := without_breaks_eq source
  have last : (Scanner.ofText source true).drain.1.ending.kind ≠ .lineBreak := by
    rw [scans.ending_kind]
    decide
  have visible : (Scanner.ofText source true).drain.1.toList.filter (·.kind ≠ .lineBreak) =
      sourceTokens source ++ [(sourceStream source).ending] := by
    rw [TokenStream.toList, List.filter_append, ← visible_eq_sourceTokens, ← same]
    simp [TokenStream.visible, last]
  refine ⟨_, sourceTokens source, (sourceStream source).ending, State.ofText source,
    tokenize_drain nonempty true, ?_, visible, (sourceStream_scans source).ending_kind,
    State.ofSource_eq nonempty, State.ofText_token source 0, State.ofText_token source 1,
    fun index => ?_⟩
  · rw [visible]
    exact tokenize_eq nonempty
  · rw [State.pulled_eq]
    exact State.ofText_token source (index + 2)

/-- A source with both line breaks, a lone carriage return and blanks between them. -/
theorem tokenize_without_breaks_mixed :
    "\n let \r\n\t\r\n x \r\n\n" ≠ "" ∧
    ∃ kept tokens ending start, tokenize "\n let \r\n\t\r\n x \r\n\n" true = .ok kept ∧
      tokenize "\n let \r\n\t\r\n x \r\n\n" false = .ok (kept.filter (·.kind ≠ .lineBreak)) ∧
      kept.filter (·.kind ≠ .lineBreak) = tokens ++ [ending] ∧ ending.kind = .endOfInput ∧
      State.ofSource "\n let \r\n\t\r\n x \r\n\n" = .ok start ∧
      start.current = tokens.getD 0 ending ∧ start.peek = tokens.getD 1 ending ∧
      ∀ index, start.pulled index = tokens.getD (index + 2) ending :=
  ⟨by decide, tokenize_without_breaks (by decide)⟩

/-! ## Stepping along the tokens -/

/-- A step of a parser along its tokens. -/
inductive Move where
  /-- One token forward. -/
  | forward
  /-- One token back. -/
  | back
deriving DecidableEq, Repr

/-- What a step does to a state. -/
def Move.apply : Move → State → State
  | forward, state => state.advance
  | back, state => state.stepBack

/-- The state behind some steps. -/
def State.along (state : State) (moves : List Move) : State :=
  moves.foldl (fun state move => move.apply state) state

/-- A place among tokens. -/
structure Place where
  /-- The number of tokens before it. -/
  index : Nat
  /-- Whether the last step went forward. -/
  fresh : Bool
deriving DecidableEq, Repr

namespace Place

/-- The place before the first step. -/
def start : Place := ⟨0, false⟩

/-- The place behind a step. A step back counts only right behind a step forward. -/
def after (place : Place) : Move → Place
  | .forward => ⟨place.index + 1, true⟩
  | .back => ⟨if place.fresh then place.index - 1 else place.index, false⟩

/-- The place behind some steps. -/
def along (place : Place) (moves : List Move) : Place := moves.foldl after place

end Place

/-- A state looks at the tokens from a place on. -/
structure Tracks (tokens : Nat → Token) (place : Place) (state : State) : Prop where
  /-- The window is at the place. -/
  window : ∀ index, state.token index = tokens (place.index + index)
  /-- The token before the place is known exactly if the last step went forward. -/
  previous : state.previous = if place.fresh then some (tokens (place.index - 1)) else none
  /-- A step forward leaves a token behind. -/
  behind : place.fresh = true → 0 < place.index
  /-- At most one token is put back. -/
  tidy : state.Tidy

/-- A step moves the place. -/
theorem Tracks.step {tokens : Nat → Token} {place : Place} {state : State}
    (tracks : Tracks tokens place state) (move : Move) :
    Tracks tokens (place.after move) (move.apply state) := by
  cases move with
  | forward =>
    have current : state.current = tokens place.index := tracks.window 0
    refine ⟨fun index => ?_, ?_, fun _ => Nat.succ_pos _,
      state.advance_framed.tidy tracks.tidy⟩
    · have further : place.index + (index + 1) = place.index + 1 + index := by omega
      change state.advance.token index = tokens (place.index + 1 + index)
      rw [State.advance_token, tracks.window, further]
    · change state.advance.previous = some (tokens place.index)
      rw [State.advance_previous, current]
  | back =>
    have tidy := state.stepBack_framed.tidy tracks.tidy
    by_cases fresh : place.fresh = true
    · have known : state.previous = some (tokens (place.index - 1)) := by
        rw [tracks.previous, if_pos fresh]
      have positive := tracks.behind fresh
      have back := state.stepBack_token known
      have moved : place.after .back = ⟨place.index - 1, false⟩ := by
        rw [Place.after, if_pos fresh]
      rw [moved]
      refine ⟨fun index => ?_, state.stepBack_previous, nofun, tidy⟩
      cases index with
      | zero => exact back.1
      | succ index =>
        have further : place.index - 1 + (index + 1) = place.index + index := by omega
        dsimp only [Move.apply]
        rw [back.2, tracks.window, further]
    · have unknown : state.previous = none := by rw [tracks.previous, if_neg fresh]
      have moved : place.after .back = ⟨place.index, false⟩ := by
        rw [Place.after, if_neg fresh]
      rw [moved]
      refine ⟨fun index => ?_, state.stepBack_previous, nofun, tidy⟩
      dsimp only [Move.apply]
      rw [State.stepBack_none unknown, tracks.window]

/-- Some steps move the place. -/
theorem Tracks.along {tokens : Nat → Token} {place : Place} {state : State}
    (tracks : Tracks tokens place state) (moves : List Move) :
    Tracks tokens (place.along moves) (state.along moves) := by
  induction moves generalizing place state with
  | nil => exact tracks
  | cons move moves ih => exact ih (tracks.step move)

/-- A parser starts in front of the tokens of its source. -/
theorem State.ofText_tracks (source : String) :
    Tracks (sourceStream source).get .start (State.ofText source) where
  window index := by
    rw [State.ofText_token]
    exact congrArg _ (Nat.zero_add index).symm
  previous := State.ofStream_previous _
  behind := nofun
  tidy := (State.ofText_outermost source).tidy

/-- The window of a parser is an index into the tokens of its source, continued by their end for
ever. Each step forward adds one to the index, and a step back takes one from it where the last step
went forward and nothing otherwise. Behind every sequence of steps the current token is the one at
the index, the next token is the one behind it, and at most one token is put back. -/
theorem window_follows {source : String} (nonempty : source ≠ "") :
    ∃ tokens ending start, tokenize source false = .ok (tokens ++ [ending]) ∧
      ending.kind = .endOfInput ∧ State.ofSource source = .ok start ∧
      ∀ moves : List Move,
        (start.along moves).current = tokens.getD (Place.start.along moves).index ending ∧
        (start.along moves).peek = tokens.getD ((Place.start.along moves).index + 1) ending ∧
        (start.along moves).putBack.length ≤ 1 := by
  refine ⟨sourceTokens source, (sourceStream source).ending, State.ofText source,
    tokenize_eq nonempty, (sourceStream_scans source).ending_kind, State.ofSource_eq nonempty,
    fun moves => ?_⟩
  have tracks := (State.ofText_tracks source).along moves
  exact ⟨tracks.window 0, tracks.window 1, tracks.tidy.single⟩

/-- A short source, left behind and come back to. -/
theorem window_follows_short :
    "a\n;" ≠ "" ∧
    ∃ tokens ending start, tokenize "a\n;" false = .ok (tokens ++ [ending]) ∧
      ending.kind = .endOfInput ∧ State.ofSource "a\n;" = .ok start ∧
      ∀ moves : List Move,
        (start.along moves).current = tokens.getD (Place.start.along moves).index ending ∧
        (start.along moves).peek = tokens.getD ((Place.start.along moves).index + 1) ending ∧
        (start.along moves).putBack.length ≤ 1 :=
  ⟨by decide, window_follows (by decide)⟩

/-- Only the first of two steps back counts. -/
example : Place.start.along [.back, .forward, .forward, .back, .back, .forward] = ⟨2, true⟩ := by
  decide

end ExprLang.Parser
