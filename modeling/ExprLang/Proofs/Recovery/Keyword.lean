import ExprLang.Proofs.Account.Basic
import ExprLang.Proofs.Reading.Source

/-!
# Recovery in front of a keyword

A statement that breaks off leaves the keyword behind it alone: skipping ends before it, and no
rule takes it for anything else. There are two exceptions, and both are for the tokens in front of
the keyword to rule out (`Plain`). Behind a token that awaits an operand the keyword is taken in
place of the operand, and inside of parentheses or braces it may belong to another construct.
Plain tokens are passed without the keyword by every rule (`ofRoom_stays`), so that the parser
comes to stand at the keyword, between two statements (`program_resumes`).
-/

namespace ExprLang

/-- Whether a token of a kind opens or closes a construct. -/
def Kind.isBracket : Kind → Bool
  | .leftParen | .rightParen | .leftBrace | .rightBrace => true
  | _ => false

/-- Whether an operand may be missing behind a token of a kind. -/
def Kind.awaitsOperand : Kind → Bool
  | .assign | .returnWord | .bang => true
  | kind => kind.isInfix

namespace Parser

open Rule (current_bind)

/-- Tokens that are read on their own: none of them opens or closes a construct, and no operand is
missing behind the last one. -/
structure Plain (tokens : List Token) : Prop where
  /-- No parenthesis and no brace. -/
  flat : ∀ token ∈ tokens, token.kind.isBracket = false
  /-- The last token awaits no operand. -/
  ended : ∀ token ∈ tokens.getLast?, token.kind.awaitsOperand = false

/-- Plain tokens but for the first one are plain. -/
theorem Plain.tail {token : Token} {tokens : List Token} (plain : Plain (token :: tokens)) :
    Plain tokens := by
  refine ⟨fun other found => plain.flat other (List.mem_cons_of_mem _ found), ?_⟩
  intro last found
  refine plain.ended last ?_
  rw [List.getLast?_cons, Option.mem_def.mp found]
  rfl

/-- The current token is one of plain tokens in front of a list of tokens. -/
def State.Within (rest : List Token) (state : State) : Prop :=
  ∃ token tokens, state.At (token :: (tokens ++ rest)) ∧ Plain (token :: tokens)

variable {rest : List Token}

namespace State.Within

variable {state : State}

/-- Where the current token is depends on the window only. -/
theorem congr {other : State} (within : state.Within rest)
    (window : ∀ index, other.token index = state.token index)
    (ending : other.stream.ending = state.stream.ending) : other.Within rest := by
  obtain ⟨token, tokens, views, plain⟩ := within
  exact ⟨token, tokens, views.congr window ending, plain⟩

/-- The current token opens and closes nothing. -/
theorem current_flat (within : state.Within rest) : state.current.kind.isBracket = false := by
  obtain ⟨token, tokens, views, plain⟩ := within
  rw [views.current_eq]
  exact plain.flat token List.mem_cons_self

/-- Where the next token is plain, the parser may step to it. -/
theorem next {token : Token} {tokens : List Token} (views : state.At (token :: (tokens ++ rest)))
    (plain : Plain (token :: tokens)) (more : tokens ≠ []) : state.advance.Within rest := by
  obtain ⟨next, tokens, rfl⟩ := List.exists_cons_of_ne_nil more
  exact ⟨next, tokens, views.behind.step, plain.tail⟩

/-- A token that awaits an operand is not the last of plain tokens. -/
theorem operand (within : state.Within rest) (awaits : state.current.kind.awaitsOperand = true) :
    state.advance.Within rest := by
  obtain ⟨token, tokens, views, plain⟩ := within
  refine next views plain ?_
  rintro rfl
  rw [views.current_eq, plain.ended token rfl] at awaits
  cases awaits

section

variable (begins : (headKind rest).startsStatement = true)

include begins

/-- Any token but a keyword that begins a statement is still one of the plain tokens. -/
theorem step (within : state.Within rest) (other : state.peek.kind.startsStatement = false) :
    state.advance.Within rest := by
  obtain ⟨token, tokens, views, plain⟩ := within
  refine next views plain ?_
  rintro rfl
  rw [views.behind.peek_kind, List.nil_append, begins] at other
  cases other

/-- The next token opens and closes nothing. -/
theorem peek_flat (within : state.Within rest) : state.peek.kind.isBracket = false := by
  by_cases other : state.peek.kind.startsStatement = true
  · cases keyword : state.peek.kind <;> first | rfl | (rw [keyword] at other; cases other)
  · have stepped := within.step begins (Bool.eq_false_iff.mpr other)
    rw [← state.advance_current]
    exact stepped.current_flat

end

end State.Within

/-! ## Rules in front of a keyword -/

/-- A rule leaves the parser in front of a list of tokens, whether it ends with a value or with a
fault. -/
def Rule.Stays (rest : List Token) {α : Type} (rule : Rule α) : Prop :=
  ∀ state, state.Within rest → (rule.after state).Within rest

namespace Rule

variable {α β : Type}

/-- A value passes nothing. -/
theorem Stays.value (found : α) : (pure found : Rule α).Stays rest := fun _ within => within

/-- The second rule of a sequence starts where the first one ends. -/
theorem Stays.sequence_at {first : Rule α} {next : α → Rule β} {state : State}
    (head : (first.after state).Within rest)
    (behind : ∀ found middle, first state = .ok found middle → middle.Within rest →
      ((next found).after middle).Within rest) : ((first >>= next).after state).Within rest := by
  rw [after_bind]
  cases ran : first state with
  | ok found middle =>
    rw [after_ok ran] at head
    exact behind found middle ran head
  | error fault middle => rwa [after_error ran] at head

/-- A sequence stays where its rules do. -/
theorem Stays.sequence {first : Rule α} {next : α → Rule β} (head : first.Stays rest)
    (behind : ∀ found, (next found).Stays rest) : (first >>= next).Stays rest :=
  fun state within => Stays.sequence_at (head state within)
    fun found middle _ inside => behind found middle inside

/-- The current token is not passed. -/
theorem current_stays : Rule.current.Stays rest := fun _ within => within

/-- A construct stays where the rule inside does. -/
theorem inside_stays {blocks : Int} {rule : Rule α} {state : State}
    (within : (rule.after
      { state with depth := state.depth + blocks, nesting := state.nesting + 1 }).Within rest) :
    ((Rule.inside blocks rule).after state).Within rest := by
  rw [after_inside]
  exact within.congr (fun index => State.token_counters _ _ _ index) rfl

/-- A loop stays where its turns do. -/
theorem repeatWhile_stays {continues : State → Bool} {turn : α → Rule α}
    (turns : ∀ value (state : State), continues state = true → state.Within rest →
      ((turn value).after state).Within rest) (value : α) :
    (Rule.repeatWhile continues turn value).Stays rest := by
  have along : ∀ (tokens : List Token) (value : α),
      (Rule.repeatAlong continues turn tokens value).Stays rest := by
    intro tokens
    induction tokens with
    | nil => exact fun value => .value value
    | cons token tokens ih =>
      intro value state within
      unfold Rule.repeatAlong
      rw [after_bind]
      dsimp only [get, getThe, MonadStateOf.get, EStateM.get]
      by_cases going : continues state = true
      · rw [if_pos going]
        exact Stays.sequence_at (turns value state going within)
          fun next middle _ inside => ih next middle inside
      · rw [if_neg going]
        exact within
  exact fun state within => along _ value state within

section

variable (begins : (headKind rest).startsStatement = true)

include begins

/-- A step to a token other than the keyword. -/
theorem expect_stays {kind : Kind} (other : kind.startsStatement = false) (wanted : String) :
    (Rule.expect kind wanted).Stays rest := by
  intro state within
  by_cases found : state.peek.kind = kind
  · rw [after_ok (expect_ok wanted found)]
    exact within.step begins (found ▸ other)
  · rw [after_error (expect_failed wanted found)]
    exact within

/-- An optional token other than the keyword. -/
theorem accept_stays {kind : Kind} (other : kind.startsStatement = false) :
    (Rule.accept kind).Stays rest := by
  intro state within
  by_cases found : state.peek.kind = kind
  · rw [after_ok (accept_taken found)]
    exact within.step begins (found ▸ other)
  · rw [after_ok (accept_left found)]
    exact within

/-- A rule behind a step to a token other than the keyword. -/
theorem expect_then_stays {kind : Kind} (other : kind.startsStatement = false) (wanted : String)
    {next : Token → Rule β} {state : State} (within : state.Within rest)
    (behind : state.advance.Within rest → state.advance.current.kind = kind →
      ((next state.peek).after state.advance).Within rest) :
    ((Rule.expect kind wanted >>= next).after state).Within rest := by
  rw [after_bind]
  by_cases found : state.peek.kind = kind
  · rw [expect_ok wanted found]
    exact behind (within.step begins (found ▸ other)) (by rwa [State.advance_current])
  · rw [expect_failed wanted found]
    exact within

/-- Neither a parenthesis nor a brace follows: a rule that asks for one ends in a fault at once. -/
theorem bracket_stays {kind : Kind} (bracket : kind.isBracket = true) (wanted : String)
    (next : Token → Rule β) : (Rule.expect kind wanted >>= next).Stays rest := by
  intro state within
  have absent : state.peek.kind ≠ kind := by
    intro found
    rw [← found, within.peek_flat begins] at bracket
    cases bracket
  rw [after_bind, expect_failed wanted absent]
  exact within

end

end Rule

/-! ## Expressions in front of a keyword -/

/-- The constructs inside stay in front of a list of tokens: an expression behind a token that
awaits an operand, and the one that a statement begins with. -/
structure Inner.Stays (rest : List Token) (inner : Inner) : Prop where
  /-- An expression behind a step. -/
  operand : ∀ above (state : State), state.Within rest → state.current.kind.awaitsOperand = true →
    (Rule.after (do _ ← Rule.advance; inner.derive (.expression above)) state).Within rest
  /-- The expression that a statement begins with. -/
  leading : (do let first ← Rule.current; leading inner first.kind).Stays rest

/-- A missing operand passes nothing. -/
theorem missingOperand_stays : missingOperand.Stays rest := by
  intro state within
  rw [Rule.after_ok (missingOperand_run state)]
  exact within.congr (fun index => state.token_record _ index) rfl

section

variable {inner : Inner} (inside : inner.Stays rest)

include inside

/-- An expression behind a token that awaits an operand, and what follows it. -/
theorem operandThen_stays {β : Type} (above : Precedence) {next : Expr → Rule β} {state : State}
    (within : state.Within rest) (awaits : state.current.kind.awaitsOperand = true)
    (behind : ∀ value, (next value).Stays rest) :
    (Rule.after (do _ ← Rule.advance; let value ← inner.derive (.expression above); next value)
      state).Within rest := by
  have grouped := Rule.Stays.sequence_at (inside.operand above state within awaits)
    fun value middle _ within => behind value middle within
  rwa [bind_assoc] at grouped

/-- An operator before its operand. -/
theorem unary_stays {state : State} (within : state.Within rest)
    (awaits : state.current.kind.awaitsOperand = true) :
    ((unary inner).after state).Within rest := by
  unfold unary
  rw [Rule.after_congr (current_bind _ state)]
  exact operandThen_stays inside _ within awaits fun _ => .value _

/-- An operator behind its left operand. -/
theorem binary_stays (left : Expr) {state : State} (within : state.Within rest)
    (awaits : state.current.kind.awaitsOperand = true) :
    ((binary inner left).after state).Within rest := by
  unfold binary
  rw [Rule.after_congr (current_bind _ state)]
  exact operandThen_stays inside _ within awaits fun _ => .value _

/-- An operator behind an expression. -/
theorem extend_stays {above : Precedence} (left : Expr) {state : State} (within : state.Within rest)
    (tighter : above < .ofKind state.current.kind) :
    ((extend inner left).after state).Within rest := by
  have plain : state.current.kind ≠ .leftParen := by
    intro paren
    have flat := within.current_flat
    rw [paren] at flat
    cases flat
  have awaits : state.current.kind.awaitsOperand = true := by
    have between := Kind.isInfix_of_tighter tighter plain
    unfold Kind.awaitsOperand
    split
    · rfl
    · rfl
    · rfl
    · exact between
  unfold extend
  rw [Rule.after_congr (current_bind _ state), if_neg plain]
  exact binary_stays inside left within awaits

section

variable (begins : (headKind rest).startsStatement = true)

include begins

/-- An operand, whatever token it begins with. -/
theorem operand_stays {rule : Rule Expr} {state : State} (within : state.Within rest)
    (found : operand? inner state.current.kind = some rule) :
    (rule.after state).Within rest := by
  unfold operand? at found
  split at found <;> cases found
  case h_1 => exact within
  case h_2 =>
    unfold integer
    rw [Rule.after_congr (current_bind _ state)]
    cases readInteger? state.current.text with
    | some value => exact within
    | none => exact within
  case h_3 => exact within
  case h_4 => exact within
  case h_5 kind => exact unary_stays inside within (by rw [kind]; rfl)
  case h_6 kind => exact unary_stays inside within (by rw [kind]; rfl)
  case h_7 kind =>
    have flat := within.current_flat
    rw [kind] at flat
    cases flat
  case h_8 =>
    unfold function
    rw [Rule.after_congr (current_bind _ state)]
    exact Rule.bracket_stays begins rfl _ _ state within

/-- Operators behind an operand. -/
theorem operators_stays (above : Precedence) (left : Expr) :
    (operators inner above left).Stays rest := by
  refine Rule.repeatWhile_stays (fun left state going within => ?_) left
  have tighter : above < .ofKind state.peek.kind := by simpa [bindsTighter] using going
  have other : state.peek.kind.startsStatement = false := by
    cases keyword : state.peek.kind <;> first | rfl | skip
    all_goals
      rw [keyword] at tighter
      exact absurd tighter (by cases above <;> decide)
  rw [← state.advance_current] at tighter
  rw [Rule.after_bind, Rule.advance_run]
  exact extend_stays inside left (within.step begins other) tighter

/-- An expression at its operand. -/
theorem expressionBody_stays (above : Precedence) {state : State} (within : state.Within rest)
    (found : (operand? inner state.current.kind).isSome) :
    ((expressionBody inner above).after state).Within rest := by
  obtain ⟨operand, found⟩ := Option.isSome_iff_exists.mp found
  rw [Rule.after_congr (expressionBody_operand above found)]
  exact Rule.Stays.sequence_at (operand_stays inside begins within found)
    fun left middle _ within => operators_stays inside begins above left middle within

/-- An expression behind a step. Where its operand is missing, the parser may go back to the token
before it. -/
theorem expressionBody_behind_stays (above : Precedence) {state moved : State}
    (within : state.Within rest) (stepped : moved.Within rest)
    (window : ∀ index, moved.token index = state.token (index + 1))
    (known : moved.previous = some state.current)
    (ending : moved.stream.ending = state.stream.ending) :
    ((expressionBody inner above).after moved).Within rest := by
  cases found : operand? inner moved.current.kind with
  | some operand =>
    exact expressionBody_stays inside begins above stepped (by rw [found]; rfl)
  | none =>
    rw [Rule.after_congr (expressionBody_placeholder above found)]
    have kept : (placeholder.after moved).stream.ending = moved.stream.ending := by
      rw [Rule.after_ok (placeholder_run moved)]
      dsimp only
      split
      · exact (State.stepBack_framed _).ending
      · rfl
    rcases placeholder_window window known with stays | back
    · exact stepped.congr stays kept
    · exact within.congr back (kept.trans ending)

/-! ## Statements in front of a keyword -/

/-- A binding. -/
theorem binding_stays : (binding inner).Stays rest := by
  refine Rule.current_stays.sequence fun keyword => ?_
  refine (Rule.expect_stays begins rfl _).sequence fun target => ?_
  intro state within
  refine Rule.expect_then_stays begins rfl _ within fun stepped kind => ?_
  refine operandThen_stays inside _ stepped (by rw [kind]; rfl) fun value => ?_
  exact (Rule.expect_stays begins rfl _).sequence fun _ => .value _

/-- The end of a function. -/
theorem result_stays {state : State} (within : state.Within rest)
    (kind : state.current.kind = .returnWord) : ((result inner).after state).Within rest := by
  unfold result
  rw [Rule.after_congr (current_bind _ state), Rule.after_bind]
  by_cases bare : state.peek.kind = .semicolon
  · rw [Rule.accept_taken bare]
    exact within.step begins (by rw [bare]; rfl)
  · rw [Rule.accept_left bare]
    refine operandThen_stays inside _ within (by rw [kind]; rfl) fun value => ?_
    exact (Rule.expect_stays begins rfl _).sequence fun _ => .value _

/-- An expression on its own. -/
theorem expressionStatement_stays : (expressionStatement inner).Stays rest := by
  rw [expressionStatement_eq]
  exact Rule.current_stays.sequence fun _ => inside.leading.sequence fun _ =>
    (Rule.accept_stays begins rfl).sequence fun _ => .value _

omit inside in
/-- A condition, which ends where its parenthesis is missing. -/
theorem condition_stays : (condition inner).Stays rest :=
  Rule.current_stays.sequence fun _ => Rule.bracket_stays begins rfl _ _

/-- A statement, whatever token it begins with. -/
theorem statementOfKind_stays {state : State} (within : state.Within rest) {kind : Kind}
    (same : state.current.kind = kind) :
    ((statementOfKind inner kind).after state).Within rest := by
  unfold statementOfKind
  split
  · exact binding_stays inside begins state within
  · exact result_stays inside begins within same
  · exact condition_stays begins state within
  · exact expressionStatement_stays inside begins state within

omit inside in
/-- Skipping tokens ends before the keyword. -/
theorem skipStatement_stays : Rule.skipStatement.Stays rest := by
  refine Rule.Stays.sequence (Rule.repeatWhile_stays (fun _ state going within => ?_) ())
    fun _ => .value _
  have other : state.peek.kind.startsStatement = false := by
    unfold recovering at going
    simp only [Bool.not_eq_true', Bool.or_eq_false_iff] at going
    exact going.1.1.1.2
  rw [Rule.after_bind, Rule.advance_run]
  exact within.step begins other

omit inside in
/-- The way to the next statement leads to the keyword at the most. -/
theorem recover_stays (fault : Diagnostic) : (recover fault).Stays rest := by
  intro state within
  rw [← Rule.left_run, Rule.recover_run]
  split
  · exact within
  · rw [Rule.left_run]
    have recorded := within.congr (fun index => state.token_record fault index) rfl
    exact skipStatement_stays begins (state.record fault) recorded

/-- A statement with the remedy for its faults. -/
theorem statement_stays : (statement inner).Stays rest := by
  intro state within
  rw [← Rule.left_run, Rule.statement_run, Rule.left_run, Rule.after_tryCatch]
  have noted := within.congr
    (fun index => state.token_note (.statement state.current) index) rfl
  have attempted : ((some <$> statementOfKind inner state.current.kind).after
      (state.note (.statement state.current))).Within rest := by
    rw [map_eq_pure_bind]
    exact Rule.Stays.sequence_at (statementOfKind_stays inside begins noted rfl)
      fun value _ _ within => Rule.Stays.value (some value) _ within
  cases ran : (some <$> statementOfKind inner state.current.kind)
      (state.note (.statement state.current)) with
  | ok read last => rwa [Rule.after_ok ran] at attempted
  | error fault last =>
    rw [Rule.after_error ran] at attempted
    exact recover_stays begins fault last attempted

end

end

/-! ## Up to the keyword -/

/-- Without room a construct passes nothing. -/
theorem derive_zero_stays {α : Type} (target : Nonterminal α) :
    ((Inner.ofRoom 0).derive target).Stays rest := by
  intro state within
  rw [derive_zero]
  exact Rule.inside_stays (within.congr (fun index => state.token_counters _ _ index) rfl)

/-- The expression that a statement begins with stays where an expression at its operand does. -/
theorem leading_stays {inner : Inner}
    (operand : ∀ state : State, (operand? inner state.current.kind).isSome → state.Within rest →
      (inner.expression.after state).Within rest) :
    (do let first ← Rule.current; leading inner first.kind).Stays rest := by
  intro state within
  rw [Rule.after_congr (current_bind _ state)]
  unfold leading
  by_cases found : (operand? inner state.current.kind).isSome = true
  · rw [if_pos found]
    exact operand state found within
  · rw [if_neg found]
    exact missingOperand_stays state within

section

variable (begins : (headKind rest).startsStatement = true)

include begins

/-- The parts of a construct stay in front of the keyword, however many constructs may still be
opened. -/
theorem ofRoom_stays : ∀ room : Nat, (Inner.ofRoom room).Stays rest
  | 0 => by
    refine ⟨fun above state within awaits => ?_, leading_stays fun state _ within => ?_⟩
    · rw [Rule.after_bind, Rule.advance_run]
      exact derive_zero_stays _ _ (within.operand awaits)
    · exact derive_zero_stays _ state within
  | room + 1 => by
    have inside := ofRoom_stays room
    refine ⟨fun above state within awaits => ?_, leading_stays fun state found within => ?_⟩
    · rw [Rule.after_bind, Rule.advance_run, derive_expression]
      have stepped := within.operand awaits
      refine Rule.inside_stays (expressionBody_behind_stays inside begins above within ?_
        (fun index => ?_) state.advance_previous state.advance_ending)
      · exact stepped.congr (fun index => State.token_counters _ _ _ index) rfl
      · rw [State.token_counters, State.advance_token]
    · rw [Inner.expression, derive_expression]
      refine Rule.inside_stays (expressionBody_stays inside begins _ ?_ ?_)
      · exact within.congr (fun index => state.token_counters _ _ index) rfl
      · rwa [operand?_isSome _ (Inner.ofRoom (room + 1))]

/-- In front of the keyword a source has whatever statements; at the keyword the parser stands
between two statements. -/
theorem program_resumes {room : Nat} {before found : Array Stmt} {state last : State}
    (loops : Rule.Loops (currentIsNot .endOfInput) (nextStatement (Inner.ofRoom room)) before state
      (.ok found last)) {tokens : List Token} (views : state.At (tokens ++ rest))
    (plain : Plain tokens) :
    ∃ more middle, Rule.Loops (currentIsNot .endOfInput) (nextStatement (Inner.ofRoom room)) more
      middle (.ok found last) ∧ middle.At rest ∧ State.Framed state middle := by
  generalize ended : EStateM.Result.ok found last = result at loops
  induction loops generalizing tokens with
  | @done value state stopped =>
    cases tokens with
    | nil => exact ⟨value, state, .done stopped, views, .refl state⟩
    | cons token tokens =>
      have kind : state.current.kind = .endOfInput := by simpa [currentIsNot] using stopped
      rw [views.current_eq] at kind
      exact absurd kind (views.solid token List.mem_cons_self)
  | failed => cases ended
  | @again value next state middle result going ran further ih =>
    subst ended
    cases tokens with
    | nil => exact ⟨value, state, .again going ran further, views, .refl state⟩
    | cons token tokens =>
      have framed := (framed_closed.nextStatement_holds (ofRoom_framed room) value).of_ok ran
      obtain ⟨read, final, attempt, -, rfl⟩ := nextStatement_eq_ok.mp ran
      have within := statement_stays (ofRoom_stays begins room) begins state
        ⟨token, tokens, views, plain⟩
      rw [Rule.after_ok attempt] at within
      obtain ⟨other, others, stops, plain⟩ := within
      obtain ⟨more, middle, loops, here, kept⟩ := ih stops.behind.step plain.tail rfl
      exact ⟨more, middle, loops, here, framed.trans kept⟩

end

end Parser

end ExprLang
