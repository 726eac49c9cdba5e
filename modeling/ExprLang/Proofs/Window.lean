import ExprLang.Proofs.Rule

/-!
# The window on the tokens

A parser state looks at an endless sequence of tokens: the current one, the next one, those put
back, those of the stream, and then the end for ever. Advancing drops the first token of the
sequence and going back restores it, so that no rule depends on where a token waits. A rule
also keeps the counters of depth and nesting, and of the diagnostics it only adds to the end
(`Rule.Framed`).
-/

namespace ExprLang.Parser

namespace State

/-- The token after a number of others, counted from the current one. -/
def token (state : State) : Nat → Token
  | 0 => state.current
  | 1 => state.peek
  | index + 2 => (state.putBack ++ state.stream.visible).getD index state.stream.ending

/-! ## Steps of the window -/

/-- The token that is taken is the first one behind the window. -/
theorem pull_fst (state : State) : state.pull.1 = state.token 2 := by
  unfold pull token
  cases waiting : state.putBack with
  | nil => simp [TokenStream.take_fst, List.headD_eq_head?_getD, List.getD_eq_getElem?_getD,
      List.head?_eq_getElem?]
  | cons first rest => rfl

/-- Taking a token leaves the ones after it. -/
theorem pull_queue (state : State) :
    state.pull.2.putBack ++ state.pull.2.stream.visible =
      (state.putBack ++ state.stream.visible).tail := by
  unfold pull
  cases waiting : state.putBack with
  | nil =>
    dsimp only
    split <;> simp [State.note, TokenStream.take_snd_visible]
  | cons first rest => rfl

/-- Taking a token leaves everything but the tokens and the events. -/
theorem pull_rest (state : State) :
    state.pull.2.current = state.current ∧ state.pull.2.peek = state.peek ∧
      state.pull.2.stream.ending = state.stream.ending ∧
      state.pull.2.putBack = state.putBack.tail ∧ state.pull.2.depth = state.depth ∧
      state.pull.2.nesting = state.nesting ∧ state.pull.2.diagnostics = state.diagnostics := by
  unfold pull
  cases waiting : state.putBack with
  | nil =>
    dsimp only
    split <;> simp [State.note, TokenStream.take_snd_ending]
  | cons first rest => simp

/-- Taking a token keeps the previous one. -/
theorem pull_previous (state : State) : state.pull.2.previous = state.previous := by
  unfold pull
  cases waiting : state.putBack with
  | nil =>
    dsimp only
    split <;> rfl
  | cons first rest => rfl

/-- Advancing drops the first token. -/
theorem advance_token (state : State) (index : Nat) :
    state.advance.token index = state.token (index + 1) := by
  obtain ⟨-, peek, ending, -⟩ := state.pull_rest
  match index with
  | 0 => exact peek
  | 1 => exact state.pull_fst
  | index + 2 =>
    change (state.pull.2.putBack ++ state.pull.2.stream.visible).getD index
      state.pull.2.stream.ending = (state.putBack ++ state.stream.visible).getD (index + 1) _
    rw [pull_queue, ending]
    cases state.putBack ++ state.stream.visible <;> rfl

@[simp]
theorem advance_current (state : State) : state.advance.current = state.peek :=
  state.advance_token 0

@[simp]
theorem advance_peek (state : State) : state.advance.peek = state.token 2 :=
  state.advance_token 1

@[simp]
theorem advance_previous (state : State) : state.advance.previous = some state.current := by
  change some state.pull.2.current = _
  rw [state.pull_rest.1]

@[simp]
theorem advance_putBack (state : State) : state.advance.putBack = state.putBack.tail :=
  state.pull_rest.2.2.2.1

@[simp]
theorem advance_ending (state : State) : state.advance.stream.ending = state.stream.ending :=
  state.pull_rest.2.2.1

@[simp]
theorem advance_depth (state : State) : state.advance.depth = state.depth :=
  state.pull_rest.2.2.2.2.1

@[simp]
theorem advance_nesting (state : State) : state.advance.nesting = state.nesting :=
  state.pull_rest.2.2.2.2.2.1

@[simp]
theorem advance_diagnostics (state : State) : state.advance.diagnostics = state.diagnostics :=
  state.pull_rest.2.2.2.2.2.2

/-- Going back puts the previous token in front. -/
theorem stepBack_token (state : State) {before : Token} (known : state.previous = some before) :
    state.stepBack.token 0 = before ∧
      ∀ index, state.stepBack.token (index + 1) = state.token index := by
  unfold stepBack
  rw [known]
  refine ⟨rfl, fun index => ?_⟩
  match index with
  | 0 | 1 | index + 2 => rfl

/-- Nothing happens when the last step has been undone already. -/
theorem stepBack_none {state : State} (unknown : state.previous = none) :
    state.stepBack = state := by
  unfold stepBack
  rw [unknown]

/-- Going back leaves the diagnostics. -/
theorem stepBack_diagnostics (state : State) : state.stepBack.diagnostics = state.diagnostics := by
  unfold stepBack
  split <;> rfl

/-- Going back cannot be repeated. -/
theorem stepBack_previous (state : State) : state.stepBack.previous = none := by
  unfold stepBack
  cases known : state.previous with
  | none => exact known
  | some before => rfl

/-- The tokens do not depend on the counters. -/
@[simp]
theorem token_counters (state : State) (depth nesting : Int) (index : Nat) :
    State.token { state with depth, nesting } index = state.token index := by
  match index with
  | 0 | 1 | index + 2 => rfl

/-- The tokens do not depend on the diagnostics. -/
@[simp]
theorem token_record (state : State) (diagnostic : Diagnostic) (index : Nat) :
    (state.record diagnostic).token index = state.token index := by
  match index with
  | 0 | 1 | index + 2 => rfl

/-- The tokens do not depend on the events. -/
@[simp]
theorem token_note (state : State) (event : Event) (index : Nat) :
    (state.note event).token index = state.token index := by
  match index with
  | 0 | 1 | index + 2 => rfl

/-! ## The start of a stream -/

/-- At the start of a stream its visible tokens are in view, and the end for ever. -/
theorem ofStream_token (stream : TokenStream) (index : Nat) :
    (ofStream stream).token index = stream.visible.getD index stream.ending := by
  have first : (blank stream).pull.1 = stream.visible.getD 0 stream.ending :=
    (blank stream).pull_fst
  have second : (blank stream).pull.2.pull.1 = stream.visible.getD 1 stream.ending := by
    rw [pull_fst]
    simp only [token]
    rw [pull_queue, (blank stream).pull_rest.2.2.1]
    change stream.visible.tail.getD 0 _ = _
    cases stream.visible <;> rfl
  match index with
  | 0 => exact first
  | 1 => exact second
  | index + 2 =>
    change ((blank stream).pull.2.pull.2.putBack ++
      (blank stream).pull.2.pull.2.stream.visible).getD index _ = _
    rw [pull_queue, pull_queue]
    change stream.visible.tail.tail.getD index (blank stream).pull.2.pull.2.stream.ending = _
    rw [(blank stream).pull.2.pull_rest.2.2.1, (blank stream).pull_rest.2.2.1]
    cases stream.visible with
    | nil => rfl
    | cons head tail => cases tail <;> rfl

/-- At the start of a stream its end is that of the stream. -/
theorem ofStream_ending (stream : TokenStream) :
    (ofStream stream).stream.ending = stream.ending := by
  obtain ⟨-, -, first, -⟩ := (blank stream).pull_rest
  obtain ⟨-, -, second, -⟩ := (blank stream).pull.2.pull_rest
  exact second.trans first

/-- At the start of a stream there is no token to go back to. -/
theorem ofStream_previous (stream : TokenStream) : (ofStream stream).previous = none := by
  calc
    (ofStream stream).previous = (blank stream).pull.2.pull.2.previous := rfl
    _ = (blank stream).previous := by rw [pull_previous, pull_previous]
    _ = none := rfl

/-- At the start of a stream nothing has been recorded. -/
theorem ofStream_diagnostics (stream : TokenStream) : (ofStream stream).diagnostics = #[] := by
  obtain ⟨-, -, -, -, -, -, first⟩ := (blank stream).pull_rest
  obtain ⟨-, -, -, -, -, -, second⟩ := (blank stream).pull.2.pull_rest
  exact second.trans first

/-! ## What every rule keeps -/

/-- At most one token is put back, and none right behind a step forward. -/
structure Tidy (state : State) : Prop where
  /-- There is room for one token. -/
  single : state.putBack.length ≤ 1
  /-- A step that can be undone leaves no token put back. -/
  fresh : state.previous ≠ none → state.putBack = []

/-- One state keeps the frame of another: the counters, the end of the stream, and the
diagnostics recorded so far. -/
structure Framed (before after : State) : Prop where
  /-- The number of blocks around the current token. -/
  depth : after.depth = before.depth
  /-- The number of constructs around the current token. -/
  nesting : after.nesting = before.nesting
  /-- The token that ends the stream. -/
  ending : after.stream.ending = before.stream.ending
  /-- Diagnostics are only added. -/
  diagnostics : before.diagnostics.toList <+: after.diagnostics.toList
  /-- No more tokens are put back than one. -/
  tidy : before.Tidy → after.Tidy

/-- A state keeps its own frame. -/
theorem Framed.refl (state : State) : Framed state state :=
  ⟨rfl, rfl, rfl, List.prefix_rfl, id⟩

/-- Frames are kept one after the other. -/
theorem Framed.trans {first second third : State} (left : Framed first second)
    (right : Framed second third) : Framed first third where
  depth := right.depth.trans left.depth
  nesting := right.nesting.trans left.nesting
  ending := right.ending.trans left.ending
  diagnostics := left.diagnostics.trans right.diagnostics
  tidy := right.tidy ∘ left.tidy

/-- Advancing keeps the frame. -/
theorem advance_framed (state : State) : Framed state state.advance where
  depth := by simp
  nesting := by simp
  ending := by simp
  diagnostics := by simp
  tidy tidy := by
    have single := tidy.single
    have none_left : state.putBack.tail = [] := by
      apply List.eq_nil_of_length_eq_zero
      rw [List.length_tail]
      omega
    exact ⟨by simp [none_left], by simp [none_left]⟩

/-- Going back keeps the frame. -/
theorem stepBack_framed (state : State) : Framed state state.stepBack := by
  cases known : state.previous with
  | none =>
    rw [stepBack_none known]
    exact .refl state
  | some before =>
    unfold stepBack
    rw [known]
    refine ⟨rfl, rfl, rfl, List.prefix_rfl, fun tidy => ⟨?_, fun undone => absurd rfl undone⟩⟩
    simp [tidy.fresh (by simp [known])]

/-- Recording keeps the frame. -/
theorem record_framed (state : State) (diagnostic : Diagnostic) :
    Framed state (state.record diagnostic) :=
  ⟨rfl, rfl, rfl, by simp [record], fun tidy => ⟨tidy.single, tidy.fresh⟩⟩

end State

/-- A rule keeps the frame of every state, whether it ends with a value or with a fault. -/
def Rule.Framed {α : Type} (rule : Rule α) : Prop :=
  ∀ state, State.Framed state (rule.after state)

/-- A rule that keeps the frame keeps it up to its value. -/
theorem Rule.Framed.of_ok {α : Type} {rule : Rule α} (framed : rule.Framed) {state last : State}
    {value : α} (ran : rule state = .ok value last) : State.Framed state last := by
  have kept := framed state
  rwa [Rule.after_ok ran] at kept

/-- The steps of the grammar keep the frame. -/
theorem framed_closed : Closed Rule.Framed :=
  Closed.of_relation .refl .trans State.advance_framed State.record_framed fun _ _ =>
    ⟨rfl, rfl, rfl, List.prefix_rfl, fun tidy => ⟨tidy.single, tidy.fresh⟩⟩

namespace Rule

variable {α : Type}

/-- A rule inside a construct runs with the counters raised, and gives them back. -/
theorem after_inside (blocks : Int) (rule : Rule α) (state : State) :
    (Rule.inside blocks rule).after state =
      let entered :=
        { state with depth := state.depth + blocks, nesting := state.nesting + 1 }
      let last := rule.after entered
      { last with depth := last.depth - blocks, nesting := last.nesting - 1 } := by
  unfold after Rule.inside
  dsimp only
  cases rule { state with depth := state.depth + blocks, nesting := state.nesting + 1 } <;> rfl

/-- A construct around a rule that keeps the frame keeps it too. -/
theorem Framed.inside {blocks : Int} {rule : Rule α} (framed : rule.Framed) :
    (Rule.inside blocks rule).Framed := by
  intro state
  rw [after_inside]
  have kept := framed { state with depth := state.depth + blocks, nesting := state.nesting + 1 }
  refine ⟨?_, ?_, kept.ending, kept.diagnostics, fun tidy => ?_⟩
  · simp [kept.depth]
  · simp [kept.nesting]
  · have inner := kept.tidy ⟨tidy.single, tidy.fresh⟩
    exact ⟨inner.single, inner.fresh⟩

/-- Going back keeps the frame. -/
theorem stepBack_framed : Rule.stepBack.Framed := fun state => state.stepBack_framed

end Rule

/-- A nonterminal keeps the frame, however many constructs may still be opened. -/
theorem derive_framed (room : Nat) {α : Type} (target : Nonterminal α) :
    ((Inner.ofRoom room).derive target).Framed :=
  framed_closed.derive_holds Rule.stepBack_framed (fun _ _ => framed_closed.fault _)
    Rule.Framed.inside id room target

/-- The parts of a construct keep the frame, however many constructs may still be opened. -/
theorem ofRoom_framed (room : Nat) : (Inner.ofRoom room).Holds Rule.Framed :=
  framed_closed.inner_holds (derive_framed room)

end ExprLang.Parser
