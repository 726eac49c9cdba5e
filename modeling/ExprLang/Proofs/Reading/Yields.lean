import ExprLang.Proofs.Reading.View

/-!
# Runs that end with a value

A rule that follows a reading records nothing, and one that goes on behind something wrong records
it. Both end with a value where the levels that are opened are not more than those that are left,
and with a fault of nesting where they are more (`Rule.Yields`). This module owns the laws of such
runs, one for each way to put rules together.
-/

namespace ExprLang.Parser

/-- From one state to another some diagnostics were recorded, and no construct was left open. -/
structure State.Tells (told : List Diagnostic) (before after : State) : Prop where
  /-- The number of constructs around the current token. -/
  nesting : after.nesting = before.nesting
  /-- The token that ends the stream. -/
  ending : after.stream.ending = before.stream.ending
  /-- The diagnostics. -/
  diagnostics : after.diagnostics.toList = before.diagnostics.toList ++ told

/-- Nothing was recorded from one state to another, and no construct was left open. -/
abbrev State.Quiet (before after : State) : Prop := Tells [] before after

/-- No step is quiet. -/
theorem State.Tells.refl (state : State) : Tells [] state state :=
  ⟨rfl, rfl, (List.append_nil _).symm⟩

/-- A quiet step leaves the diagnostics as they are. -/
theorem State.Tells.same {before after : State} (quiet : Quiet before after) :
    after.diagnostics = before.diagnostics := by
  have same := quiet.diagnostics
  rw [List.append_nil] at same
  exact Array.toList_inj.mp same

/-- What is recorded in one step and in the next. -/
theorem State.Tells.trans {first second third : State} {early late : List Diagnostic}
    (left : Tells early first second) (right : Tells late second third) :
    Tells (early ++ late) first third where
  nesting := right.nesting.trans left.nesting
  ending := right.ending.trans left.ending
  diagnostics := by rw [right.diagnostics, left.diagnostics, List.append_assoc]

/-- Recording a diagnostic tells it. -/
theorem State.record_tells (state : State) (diagnostic : Diagnostic) :
    Tells [diagnostic] state (state.record diagnostic) :=
  ⟨rfl, rfl, by simp [record]⟩

/-- Advancing is quiet. -/
theorem State.advance_quiet (state : State) : Quiet state state.advance := by
  constructor <;> simp

/-- Noting an event is quiet. -/
theorem State.note_quiet (state : State) (event : Event) : Quiet state (state.note event) :=
  ⟨rfl, rfl, (List.append_nil _).symm⟩

/-- Going back is quiet. -/
theorem State.stepBack_quiet (state : State) : Quiet state state.stepBack := by
  have framed := state.stepBack_framed
  refine ⟨framed.nesting, framed.ending, ?_⟩
  rw [stepBack_diagnostics, List.append_nil]

namespace Rule

variable {α β : Type}

/-- What a rule gives that needs some levels: the value where there is room for them, and a fault of
nesting where there is not. The diagnostics are those that it records up to the value. -/
inductive Yields (rule : Rule α) (state : State) (told : List Diagnostic) (levels room : Nat)
    (value : α) (ends : State → Prop) : Prop where
  /-- There is room. -/
  | reads {last : State} (enough : levels ≤ room) (ran : rule state = .ok value last)
      (stops : ends last) (tells : State.Tells told state last)
  /-- There is no room. -/
  | overflows {fault : Diagnostic} {last : State} (short : room < levels)
      (ran : rule state = .error fault last) (deep : fault.cause.isDepth = true)
      (nesting : last.nesting = state.nesting)

namespace Yields

variable {state : State} {levels near far room : Nat} {told early late : List Diagnostic}
  {ends : State → Prop}

/-- A run with a value needs no level. -/
theorem of_ok {rule : Rule α} {last : State} {value : α} (ran : rule state = .ok value last)
    (stops : ends last) (tells : State.Tells told state last) :
    rule.Yields state told 0 room value ends :=
  .reads (Nat.zero_le _) ran stops tells

/-- Rules with one result yield the same. -/
theorem congr {rule other : Rule α} {value : α}
    (yields : rule.Yields state told levels room value ends) (same : other state = rule state) :
    other.Yields state told levels room value ends := by
  cases yields with
  | reads enough ran stops tells => exact .reads enough (same.trans ran) stops tells
  | overflows short ran deep nesting => exact .overflows short (same.trans ran) deep nesting

/-- A run that opens the same levels. -/
theorem opening {rule : Rule α} {value : α} (yields : rule.Yields state told near room value ends)
    (same : near = far) : rule.Yields state told far room value ends := same ▸ yields

/-- A value without a step. -/
theorem value {found : α} (stops : ends state) :
    (pure found : Rule α).Yields state [] 0 room found ends :=
  of_ok rfl stops (.refl state)

/-- Where the run ends. -/
theorem stops {rule : Rule α} {value found : α} {last : State}
    (yields : rule.Yields state told levels room value ends) (ran : rule state = .ok found last) :
    ends last := by
  cases yields with
  | reads _ ran' stops _ =>
    obtain ⟨-, rfl⟩ := EStateM.Result.ok.inj (ran'.symm.trans ran)
    exact stops
  | overflows _ ran' => cases ran'.symm.trans ran

/-- The levels of a sequence are those of its deeper part, and it records what its parts record. -/
theorem sequence {first : Rule α} {next : α → Rule β} {found : α} {value : β}
    {between : State → Prop} (head : first.Yields state early near room found between)
    (rest : ∀ middle, between middle → State.Tells early state middle →
      (next found).Yields middle late far room value ends) :
    (first >>= next).Yields state (early ++ late) (max near far) room value ends := by
  cases head with
  | overflows short ran deep nesting => exact .overflows (by omega) (bind_error ran) deep nesting
  | reads enough ran stops tells =>
    cases rest _ stops tells with
    | reads enough' ran' stops' tells' =>
      exact .reads (by omega) ((bind_ok ran).trans ran') stops' (tells.trans tells')
    | overflows short' ran' deep' nesting' =>
      exact .overflows (by omega) ((bind_ok ran).trans ran') deep' (nesting'.trans tells.nesting)

/-- Behind the deep part of a sequence come rules that open nothing and record nothing. -/
theorem followed {first : Rule α} {next : α → Rule β} {found : α} {value : β}
    {between : State → Prop} (head : first.Yields state told levels room found between)
    (rest : ∀ middle, between middle → (next found).Yields middle [] 0 room value ends) :
    (first >>= next).Yields state told levels room value ends := by
  have whole := head.sequence fun middle stops _ => rest middle stops
  rwa [Nat.max_zero, List.append_nil] at whole

/-- A quiet step in front of a rule. -/
theorem step {first : Rule α} {next : α → Rule β} {middle : State} {found : α} {value : β}
    (ran : first state = .ok found middle) (quiet : State.Quiet state middle)
    (rest : (next found).Yields middle told levels room value ends) :
    (first >>= next).Yields state told levels room value ends := by
  have head : first.Yields state [] 0 room found (· = middle) := of_ok ran rfl quiet
  have whole := head.sequence fun other same _ => by
    subst same
    exact rest
  rwa [Nat.zero_max, List.nil_append] at whole

variable {value : β}

/-- A look at the current token in front of a rule. -/
theorem look {next : Token → Rule β}
    (rest : (next state.current).Yields state told levels room value ends) :
    (Rule.current >>= next).Yields state told levels room value ends :=
  step (current_run state) (.refl state) rest

/-- A step in front of a rule. -/
theorem advance {next : Token → Rule β}
    (rest : (next state.advance.current).Yields state.advance told levels room value ends) :
    (Rule.advance >>= next).Yields state told levels room value ends :=
  step (advance_run state) state.advance_quiet rest

/-- A step to a token in view in front of a rule. -/
theorem expect {kind : Kind} {wanted : String} {next : Token → Rule β}
    (found : state.peek.kind = kind)
    (rest : (next state.peek).Yields state.advance told levels room value ends) :
    (Rule.expect kind wanted >>= next).Yields state told levels room value ends :=
  step (expect_ok wanted found) state.advance_quiet rest

/-- A token in view is taken in front of a rule. -/
theorem taken {kind : Kind} {next : Bool → Rule β} (found : state.peek.kind = kind)
    (rest : (next true).Yields state.advance told levels room value ends) :
    (Rule.accept kind >>= next).Yields state told levels room value ends :=
  step (accept_taken found) state.advance_quiet rest

/-- A token of another kind is left in front of a rule. -/
theorem left {kind : Kind} {next : Bool → Rule β} (absent : state.peek.kind ≠ kind)
    (rest : (next false).Yields state told levels room value ends) :
    (Rule.accept kind >>= next).Yields state told levels room value ends :=
  step (accept_left absent) (.refl state) rest

/-- A loop that is over in front of a rule. -/
theorem done {continues : State → Bool} {turn : α → Rule α} {start : α} {next : α → Rule β}
    (loop : LoopEnds continues turn start state) (stopped : continues state = false)
    (rest : (next start).Yields state told levels room value ends) :
    (Rule.repeatWhile continues turn start >>= next).Yields state told levels room value ends :=
  step (loop.done stopped) (.refl state) rest

/-- A turn of a loop in front of the others. -/
theorem again {continues : State → Bool} {turn : α → Rule α} {start found : α}
    {next : α → Rule β} {between : State → Prop}
    (loop : ∀ start state, state.stream.ending.kind = .endOfInput →
      LoopEnds continues turn start state)
    (ended : state.stream.ending.kind = .endOfInput) (going : continues state = true)
    (head : (turn start).Yields state early near room found between)
    (onward : ∀ middle, between middle → middle.stream.ending.kind = .endOfInput)
    (rest : ∀ middle, between middle → State.Tells early state middle →
      (Rule.repeatWhile continues turn found >>= next).Yields middle late far room value ends) :
    (Rule.repeatWhile continues turn start >>= next).Yields state (early ++ late) (max near far)
      room value ends := by
  have behind : ∀ next middle, turn start state = .ok next middle →
      LoopEnds continues turn next middle :=
    fun next middle ran => loop next middle (onward middle (head.stops ran))
  have turn_first := (loop start state ended).bind_again behind going next
  exact (head.sequence rest).congr turn_first

/-- A construct takes a level. -/
theorem inside {blocks : Int} {rule : Rule β} {tokens : List Token}
    (within : rule.Yields
      { state with depth := state.depth + blocks, nesting := state.nesting + 1 } told levels room
      value (·.Ahead tokens)) :
    (Rule.inside blocks rule).Yields state told (levels + 1) (room + 1) value (·.Ahead tokens) := by
  cases within with
  | @reads last enough ran stops tells =>
    refine .reads (by omega) (inside_ok ran) ?_ ⟨?_, tells.ending, tells.diagnostics⟩
    · exact stops.congr (fun index => State.token_counters _ _ _ index) rfl
    · have nesting := tells.nesting
      dsimp only at nesting ⊢
      omega
  | @overflows fault last short ran deep nesting =>
    refine .overflows (by omega) (inside_error ran) deep ?_
    dsimp only at nesting ⊢
    omega

/-- A nonterminal without room is a fault of nesting. -/
theorem no_room (target : Nonterminal β) :
    ((Inner.ofRoom 0).derive target).Yields state told (levels + 1) 0 value ends := by
  have left : (Inner.ofRoom 0).derive target state =
      .error ⟨target.overflow, state.current.position⟩ { state with
        depth := state.depth + target.blocks - target.blocks
        nesting := state.nesting + 1 - 1 } := by
    rw [derive_zero]
    rfl
  refine .overflows (by omega) left ?_ ?_
  · cases target <;> rfl
  · dsimp only
    omega

end Yields

end Rule

end ExprLang.Parser
