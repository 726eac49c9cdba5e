import ExprLang.Proofs.Reading.Extent
import ExprLang.Proofs.Reading.Run

/-!
# Expressions without room

Where a reading of an expression opens more levels than are left, the parser ends with a fault of
nesting somewhere amid its tokens, and has recorded nothing up to there (`Rule.Breaks`). In which
part of the expression this is does not matter: the parts in front of it are followed by their
readings, and the parts around it pass the fault on (`Reads.overflows`). Function literals are left
out, for blocks have a fault of their own.
-/

namespace ExprLang.Parser

/-! ## Tokens of a construct -/

/-- A list of tokens begins at one of the tokens of a construct, which is read from a list of tokens
up to the rest of it. -/
structure Amid (tokens rest here : List Token) : Prop where
  /-- The construct begins in front of it or with it. -/
  start : here <:+ tokens
  /-- The construct goes on. -/
  behind : rest <:+ here
  /-- The construct is not over. -/
  more : rest.length < here.length

/-- Amid the tokens of a part is amid those of the whole. -/
theorem Amid.widen {tokens inner middle rest here : List Token} (amid : Amid inner middle here)
    (near : inner <:+ tokens) (far : rest <:+ middle) : Amid tokens rest here where
  start := amid.start.trans near
  behind := far.trans amid.behind
  more := Nat.lt_of_le_of_lt far.length_le amid.more

/-- No token of a construct begins a function literal. -/
def Unnested (tokens rest : List Token) : Prop :=
  ∀ used, tokens = used ++ rest → ∀ token ∈ used, token.kind ≠ .functionWord

/-- Where this is so of a construct, it is so of its parts. -/
theorem Unnested.within {tokens inner middle rest : List Token} (plain : Unnested tokens rest)
    (near : inner <:+ tokens) (far : rest <:+ middle) : Unnested inner middle := by
  obtain ⟨front, rfl⟩ := near
  obtain ⟨back, rfl⟩ := far
  intro used same token found
  subst same
  refine plain (front ++ (used ++ back)) (by simp) token ?_
  exact List.mem_append_right _ (List.mem_append_left _ found)

/-- A reading passes tokens from the front. -/
theorem Reads.suffix {phrase : Phrase} {levels : Nat} {tokens rest : List Token}
    (reads : Reads phrase levels tokens rest) : rest <:+ tokens := by
  obtain ⟨used, rfl, -⟩ := reads.extent
  exact List.suffix_append used rest

/-! ## Faults of nesting -/

namespace Rule

variable {α β : Type}

/-- A rule ends with a fault of nesting of an expression at one of the tokens of a construct, and
records nothing. -/
inductive Breaks (rule : Rule α) (state : State) (tokens rest : List Token) : Prop where
  /-- The fault, and the state that it leaves. -/
  | fault {fault : Diagnostic} {last : State} {here : List Token}
      (ran : rule state = .error fault last) (deep : fault.cause = .deepExpression)
      (quiet : State.Quiet state last) (amid : Amid tokens rest here) (stands : last.At here)

namespace Breaks

variable {rule : Rule α} {state : State} {tokens inner middle rest : List Token}

/-- Rules with one result break alike. -/
theorem congr {other : Rule α} (breaks : rule.Breaks state tokens rest)
    (same : other state = rule state) : other.Breaks state tokens rest := by
  obtain ⟨ran, deep, quiet, amid, stands⟩ := breaks
  exact ⟨same.trans ran, deep, quiet, amid, stands⟩

/-- A rule that breaks amid a part breaks amid the whole. -/
theorem widen (breaks : rule.Breaks state inner middle) (near : inner <:+ tokens)
    (far : rest <:+ middle) : rule.Breaks state tokens rest := by
  obtain ⟨ran, deep, quiet, amid, stands⟩ := breaks
  exact ⟨ran, deep, quiet, amid.widen near far, stands⟩

/-- A sequence breaks with its first rule. -/
theorem first {next : α → Rule β} (breaks : rule.Breaks state tokens rest) :
    (rule >>= next).Breaks state tokens rest := by
  obtain ⟨ran, deep, quiet, amid, stands⟩ := breaks
  exact ⟨bind_error ran, deep, quiet, amid, stands⟩

/-- A sequence breaks behind its first rule. -/
theorem behind {next : α → Rule β} {found : α} {last : State}
    (ran : rule state = .ok found last) (quiet : State.Quiet state last)
    (breaks : (next found).Breaks last tokens rest) : (rule >>= next).Breaks state tokens rest := by
  obtain ⟨failed, deep, quiet_behind, amid, stands⟩ := breaks
  exact ⟨(bind_ok ran).trans failed, deep, quiet.trans quiet_behind, amid, stands⟩

/-- A look at the current token in front of a rule. -/
theorem look {next : Token → Rule β} (breaks : (next state.current).Breaks state tokens rest) :
    (Rule.current >>= next).Breaks state tokens rest :=
  behind (current_run state) (.refl state) breaks

/-- A step in front of a rule. -/
theorem advance {next : Token → Rule β}
    (breaks : (next state.advance.current).Breaks state.advance tokens rest) :
    (Rule.advance >>= next).Breaks state tokens rest :=
  behind (advance_run state) state.advance_quiet breaks

variable {continues : State → Bool} {turn : α → Rule α} {value next : α}

/-- A loop breaks with its turn. -/
theorem in_turn (ends : LoopEnds continues turn value state) (going : continues state = true)
    (breaks : (turn value).Breaks state tokens rest) :
    (Rule.repeatWhile continues turn value).Breaks state tokens rest := by
  obtain ⟨ran, deep, quiet, amid, stands⟩ := breaks
  exact ⟨ends.failed going ran, deep, quiet, amid, stands⟩

/-- A loop breaks behind its turn. -/
theorem again {last : State} (ends : LoopEnds continues turn value state)
    (onward : LoopEnds continues turn next last) (going : continues state = true)
    (ran : turn value state = .ok next last) (quiet : State.Quiet state last)
    (breaks : (Rule.repeatWhile continues turn next).Breaks last tokens rest) :
    (Rule.repeatWhile continues turn value).Breaks state tokens rest := by
  obtain ⟨failed, deep, quiet_behind, amid, stands⟩ := breaks
  exact ⟨(ends.again onward going ran).trans failed, deep, quiet.trans quiet_behind, amid, stands⟩

/-- A construct passes a fault on, and closes what it has opened. -/
theorem inside {blocks : Int}
    (breaks : rule.Breaks
      { state with depth := state.depth + blocks, nesting := state.nesting + 1 } tokens rest) :
    (Rule.inside blocks rule).Breaks state tokens rest := by
  obtain @⟨fault, last, here, ran, deep, quiet, amid, stands⟩ := breaks
  refine ⟨inside_error ran, deep, ⟨?_, quiet.ending, quiet.diagnostics⟩, amid, ?_⟩
  · have nesting := quiet.nesting
    dsimp only at nesting ⊢
    omega
  · exact stands.congr (fun index => State.token_counters _ _ _ index) rfl

/-- An expression without room breaks at its first token. -/
theorem no_room {above : Precedence} (views : state.At tokens) (amid : Amid tokens rest tokens) :
    ((Inner.ofRoom 0).derive (.expression above)).Breaks state tokens rest := by
  rw [derive_zero]
  refine .inside ⟨rfl, rfl, .refl _, amid, ?_⟩
  exact views.congr (fun index => State.token_counters _ _ _ index) rfl

end Breaks

/-- Where there is room, a rule ends with its value and records nothing. -/
theorem Yields.ran {rule : Rule α} {state : State} {levels room : Nat} {value : α}
    {ends : State → Prop} (yields : rule.Yields state [] levels room value ends)
    (enough : levels ≤ room) :
    ∃ last, rule state = .ok value last ∧ ends last ∧ State.Quiet state last := by
  cases yields with
  | reads _ ran stops tells => exact ⟨_, ran, stops, tells⟩
  | overflows short => omega

end Rule

open Rule (Breaks)

/-! ## Expressions -/

/-- What the rule for a part of an expression does where there is no room for it. -/
def Phrase.Overflows (room : Nat) (tokens rest : List Token) : Phrase → State → Prop
  | .expression above _, state => state.At tokens →
    ((Inner.ofRoom room).derive (.expression above)).Breaks state tokens rest
  | .operand _, state => state.At tokens →
    ∃ rule, operand? (Inner.ofRoom room) state.current.kind = some rule ∧
      rule.Breaks state tokens rest
  | .operators above left _, state => state.Ahead tokens →
    (Parser.operators (Inner.ofRoom room) above left).Breaks state tokens rest
  | .arguments _, state => state.Ahead tokens →
    (Parser.arguments (Inner.ofRoom room)).Breaks state tokens rest
  | .moreArguments _, state => state.Ahead tokens → ∀ before : Array Expr,
    (Rule.repeatWhile commaFollows (argumentTurn (Inner.ofRoom room)) before).Breaks state tokens
      rest
  | _, _ => True

/-- The operators behind an expression break in their first turn or in those behind it. -/
theorem Rule.Breaks.operators {room near far : Nat} {above : Precedence} {sign : Token}
    {tokens middle rest : List Token} {left found : Expr} {state : State}
    (tighter : above < .ofKind sign.kind) (short : room < max near far) (passed : middle <:+ tokens)
    (back : rest <:+ middle) (views : state.Ahead (sign :: tokens))
    (extended : room < near →
      (extend (Inner.ofRoom room) left).Breaks state.advance (sign :: tokens) middle)
    (yields : (extend (Inner.ofRoom room) left).Yields state.advance [] near room found
      (·.Ahead middle))
    (more : room < far → ∀ last : State, last.Ahead middle → State.Quiet state last →
      (Parser.operators (Inner.ofRoom room) above found).Breaks last middle rest) :
    (Parser.operators (Inner.ofRoom room) above left).Breaks state (sign :: tokens) rest := by
  have loop := (loops_end (ofRoom_forward room) views.ended).operators above left
  have going : bindsTighter above state = true := by
    rw [bindsTighter, views.peek_eq]
    simpa using tighter
  by_cases deep : room < near
  · exact .in_turn loop going (.advance ((extended deep).widen List.suffix_rfl back))
  · have turn : (operatorTurn (Inner.ofRoom room) left).Yields state [] near room found
      (·.Ahead middle) := .advance yields
    obtain ⟨last, ran, stops, quiet⟩ := turn.ran (Nat.le_of_not_lt deep)
    have onward := (loops_end (ofRoom_forward room) stops.ended).operators above found
    have breaks := more (by omega) last stops quiet
    exact .again loop onward going ran quiet
      (breaks.widen (passed.trans (List.suffix_cons sign tokens)) List.suffix_rfl)

/-- Where there is no room for an expression, the parser ends with a fault amid its tokens and has
recorded nothing. -/
theorem Reads.overflows {phrase : Phrase} {levels : Nat} {tokens rest : List Token}
    (reads : Reads phrase levels tokens rest) (plain : Unnested tokens rest) {room : Nat}
    (short : room < levels) (ending : Token) {state : State} (within : state.Inside ending) :
    phrase.Overflows room tokens rest state := by
  induction reads generalizing room state with
  | @expression above near far tokens middle rest left value first more first_ih more_ih =>
    intro views
    have front := first.suffix
    have back := more.suffix
    cases room with
    | zero =>
      obtain ⟨used, rfl, ends, -⟩ := (Reads.expression first more).extent
      refine .no_room views ⟨List.suffix_rfl, List.suffix_append _ _, ?_⟩
      have some_used := List.length_pos_iff.mpr ends.1
      rw [List.length_append]
      omega
    | succ room =>
      rw [derive_expression]
      refine .inside ?_
      have deeper := within.deeper 0
      have entered : State.At { state with depth := state.depth + 0, nesting := state.nesting + 1 }
        tokens := views.congr (fun index => State.token_counters _ _ _ index) rfl
      by_cases deep : room < near
      · obtain ⟨rule, found, breaks⟩ := first_ih (plain.within List.suffix_rfl back) deep deeper
          entered
        exact (breaks.widen List.suffix_rfl back).first.congr (expressionBody_operand above found)
      · obtain ⟨rule, found, yields⟩ := first.runs ending room _ deeper entered
        obtain ⟨last, ran, stops, quiet⟩ := yields.ran (Nat.le_of_not_lt deep)
        have breaks := more_ih (plain.within front List.suffix_rfl) (show room < far by omega)
          (deeper.told quiet) stops
        have whole := Breaks.behind ran quiet (breaks.widen front List.suffix_rfl)
        exact whole.congr (expressionBody_operand above found)
  | @unary sign levels tokens rest value kind operand ih =>
    intro views
    obtain rfl := views.current_eq
    have front := List.suffix_cons state.current tokens
    refine ⟨Parser.unary (Inner.ofRoom room), ?_, .look (.advance ?_)⟩
    · rcases kind with kind | kind <;> rw [kind] <;> rfl
    · have breaks := ih (plain.within front List.suffix_rfl) short within.advance
        views.behind.step
      exact (breaks.widen front List.suffix_rfl).first
  | @grouped opening close levels tokens rest value kind inside closing ih =>
    intro views
    obtain rfl := views.current_eq
    have front := List.suffix_cons state.current tokens
    have back := List.suffix_cons close rest
    refine ⟨Parser.grouped (Inner.ofRoom room), by rw [kind]; rfl, .advance ?_⟩
    have breaks := ih (plain.within front back) short within.advance views.behind.step
    exact (breaks.widen front back).first
  | @function keyword opening brace levels tokens inside rest names body kind paren parameters curly
      block =>
    obtain ⟨used, split, ends, -⟩ := (Reads.function kind paren parameters curly block).extent
    obtain ⟨token, used, rfl⟩ := List.exists_cons_of_ne_nil ends.1
    obtain rfl := (List.cons.inj split).1
    exact absurd kind (plain _ split _ List.mem_cons_self)
  | @binary above sign near far tokens middle rest left right value tighter kind operand more
      operand_ih more_ih =>
    intro views
    have front := List.suffix_cons sign tokens
    have back := more.suffix
    have passed := operand.suffix
    have stands := views.step
    have yields := Phrase.Follows.extend_binary left kind (operand.runs ending) room within.advance
      stands
    refine Breaks.operators tighter short passed back views (fun deep => ?_) yields
      fun deep last stops quiet => ?_
    · refine .look ?_
      rw [stands.current_eq, if_neg kind]
      refine .look (.advance ?_)
      rw [stands.current_eq]
      have breaks := operand_ih (plain.within front back) deep within.advance.advance
        stands.behind.step
      exact (breaks.widen front List.suffix_rfl).first
    · exact more_ih (plain.within (passed.trans front) List.suffix_rfl) deep (within.told quiet)
        stops
  | @call above opening near far tokens middle rest left value values tighter kind arguments more
      arguments_ih more_ih =>
    intro views
    have front := List.suffix_cons opening tokens
    have back := more.suffix
    have passed := arguments.suffix
    have stands := views.step
    have tighter_kind : above < .ofKind opening.kind := by
      rw [kind]
      exact tighter
    have yields := Phrase.Follows.extend_call left kind (arguments.runs ending) room within.advance
      stands
    refine Breaks.operators tighter_kind short passed back views (fun deep => ?_) yields
      fun deep last stops quiet => ?_
    · refine .look ?_
      rw [stands.current_eq, if_pos kind]
      have breaks := arguments_ih (plain.within front back) deep within.advance stands.behind
      exact .look (breaks.widen front List.suffix_rfl).first
    · exact more_ih (plain.within (passed.trans front) List.suffix_rfl) deep (within.told quiet)
        stops
  | @arguments near far tokens middle rest value values first more first_ih more_ih =>
    intro views
    have front := first.suffix
    have back := more.suffix
    have absent : state.peek.kind ≠ .rightParen := by
      rw [views.peek_kind]
      exact first.begins_apart rfl
    refine .behind (Rule.accept_left absent) (.refl state) (.advance ?_)
    by_cases deep : room < near
    · have breaks := first_ih (plain.within List.suffix_rfl back) deep within.advance views.step
      exact (breaks.widen List.suffix_rfl back).first
    · have yields := first.runs ending room state.advance within.advance views.step
        fun _ => State.advance_known _
      obtain ⟨last, ran, stops, quiet⟩ := yields.ran (Nat.le_of_not_lt deep)
      have breaks := more_ih (plain.within front List.suffix_rfl) (show room < far by omega)
        (within.advance.told quiet) stops #[value]
      exact .behind ran quiet (breaks.widen front List.suffix_rfl).first
  | @nextArgument comma near far tokens middle rest value values separator first more first_ih
      more_ih =>
    intro views before
    have front := List.suffix_cons comma tokens
    have back := more.suffix
    have loop := (loops_end (ofRoom_forward room) views.ended).arguments before
    have going : commaFollows state = true := by
      simp [commaFollows, views.peek_eq, separator]
    by_cases deep : room < near
    · have breaks := first_ih (plain.within front back) deep within.advance.advance views.pass.step
      exact .in_turn loop going (.advance (.advance (breaks.widen front back).first))
    · have yields := Phrase.Follows.argument_turn (first.runs ending) room within views before
      obtain ⟨last, ran, stops, quiet⟩ := yields.ran (Nat.le_of_not_lt deep)
      have passed := first.suffix.trans front
      have breaks := more_ih (plain.within passed List.suffix_rfl) (show room < far by omega)
        (within.told quiet) stops (before.push value)
      exact .again loop ((loops_end (ofRoom_forward room) stops.ended).arguments _) going ran quiet
        (breaks.widen passed List.suffix_rfl)
  | name => exact absurd short (Nat.not_lt_zero room)
  | integer => exact absurd short (Nat.not_lt_zero room)
  | boolean => exact absurd short (Nat.not_lt_zero room)
  | noOperator => exact absurd short (Nat.not_lt_zero room)
  | noArgument => exact absurd short (Nat.not_lt_zero room)
  | lastArgument => exact absurd short (Nat.not_lt_zero room)
  | _ => trivial

end ExprLang.Parser
