import ExprLang.Proofs.Reading.Yields

/-!
# From readings to runs

A rule follows a construct where it gives the tree of the construct as long as there is room for
its levels, and a fault of nesting where there is none (`Phrase.Follows`). It may record diagnostics
on the way: for each construct there is a lemma by which it is followed, with all that its parts
record. Where a list of tokens has a reading, each rule of the parser follows it and records nothing
(`Reads.runs`).
-/

namespace ExprLang.Parser

open Rule (Yields)

/-- What a rule does along a construct, in a state with the tokens in view. An expression or a
statement starts at its first token, everything else behind the token before. An expression may be
missing in front of a token that ends it where the parser can go back. -/
def Phrase.Runs (room : Nat) (told : List Diagnostic) (levels : Nat) (tokens rest : List Token) :
    Phrase → State → Prop
  | .expression above value, state => state.At tokens →
    ((headKind tokens).endsExpression = true → state.previous ≠ none) →
    ((Inner.ofRoom room).derive (.expression above)).Yields state told levels room value
      (·.Ahead rest)
  | .operand value, state => state.At tokens →
    ∃ rule, operand? (Inner.ofRoom room) state.current.kind = some rule ∧
      rule.Yields state told levels room value (·.Ahead rest)
  | .operators above left value, state => state.Ahead tokens →
    (Parser.operators (Inner.ofRoom room) above left).Yields state told levels room value
      (·.Ahead rest)
  | .arguments values, state => state.Ahead tokens →
    (Parser.arguments (Inner.ofRoom room)).Yields state told levels room values (·.Ahead rest)
  | .moreArguments values, state => state.Ahead tokens → ∀ before : Array Expr,
    (do
      let found ← Rule.repeatWhile commaFollows (argumentTurn (Inner.ofRoom room)) before
      _ ← Rule.expect .rightParen "`)`"
      return found.toList : Rule (List Expr)).Yields state told levels room
      (before.toList ++ values) (·.Ahead rest)
  | .block body, state => state.Ahead tokens →
    (Inner.ofRoom room).block.Yields state told levels room body (·.Ahead rest)
  | .statements values, state => state.At tokens → 0 < state.nesting → ∀ before : Array Stmt,
    (do
      let found ← Rule.repeatWhile (currentIsNot .rightBrace) (nextInBlock (Inner.ofRoom room))
        before
      return found.toList : Rule (List Stmt)).Yields state told levels room
      (before.toList ++ values) (·.Ahead rest)
  | .statement value, state => state.At tokens →
    (statementOfKind (Inner.ofRoom room) state.current.kind).Yields state told levels room value
      (·.Ahead rest)

/-! ## Parameters -/

/-- Further parameters follow their reading. -/
theorem ReadsMoreNames.runs {tokens rest : List Token} {names : List Ident}
    (reads : ReadsMoreNames tokens rest names) (room : Nat) {state : State}
    (views : state.Ahead tokens) (before : Array Ident) :
    (do
      let found ← Rule.repeatWhile commaFollows parameterTurn before
      _ ← Rule.expect .rightParen "`)`"
      return found.toList : Rule (List Ident)).Yields state [] 0 room (before.toList ++ names)
      (·.Ahead rest) := by
  have loop : ∀ (names : Array Ident) (state : State),
      state.stream.ending.kind = .endOfInput →
      Rule.LoopEnds commaFollows parameterTurn names state := fun names _ ended =>
    (loops_end (ofRoom_forward 0) ended).parameters names
  induction reads generalizing state before with
  | last closing =>
    refine .done (loop _ _ views.ended) ?_ (.expect (views.peek_kind.trans closing) ?_)
    · have other : state.peek.kind = .rightParen := views.peek_kind.trans closing
      simp [commaFollows, other]
    · rw [List.append_nil]
      exact .value views.pass
  | @next comma name tokens rest names separator named _ ih =>
    have further := views.pass
    have turn : (parameterTurn before).Yields state [] 0 room
        (before.push ⟨name.text, name.position⟩) (·.Ahead tokens) := by
      have named_here : parameter state.advance =
          .ok ⟨name.text, name.position⟩ state.advance.advance := by
        refine (Rule.bind_ok (Rule.expect_ok _ (further.peek_kind.trans named))).trans ?_
        rw [further.peek_eq]
        rfl
      exact .advance (.step named_here state.advance.advance_quiet (.value further.pass))
    have going : commaFollows state = true := by
      simp [commaFollows, views.peek_eq, separator]
    have whole := Yields.again loop views.ended going turn (fun _ stops => stops.ended)
      fun middle stops _ => ih stops (before.push ⟨name.text, name.position⟩)
    simpa using whole

/-- Parameters follow their reading. -/
theorem ReadsNames.runs {tokens rest : List Token} {names : List Ident}
    (reads : ReadsNames tokens rest names) (room : Nat) {state : State}
    (views : state.Ahead tokens) :
    parameters.Yields state [] 0 room names (·.Ahead rest) := by
  cases reads with
  | none closing => exact .taken (views.peek_kind.trans closing) (.value views.pass)
  | @some name tokens _ names named more =>
    have other : state.peek.kind ≠ .rightParen := by
      rw [views.peek_eq, named]
      decide
    have named_here : parameter state = .ok ⟨name.text, name.position⟩ state.advance := by
      refine (Rule.bind_ok (Rule.expect_ok _ (views.peek_kind.trans named))).trans ?_
      rw [views.peek_eq]
      rfl
    exact .left other (.step named_here state.advance_quiet
      (more.runs room views.pass #[⟨name.text, name.position⟩]))

/-! ## Constructs -/

/-- The parser can go back behind a step. -/
theorem State.advance_known (state : State) : state.advance.previous ≠ none := by simp

/-- A state in a source with a given end, where the constructs around it are counted from none. -/
structure State.Inside (ending : Token) (state : State) : Prop where
  /-- The number of constructs around the current token. -/
  nonneg : 0 ≤ state.nesting
  /-- The token that ends the stream. -/
  ends : state.stream.ending = ending

namespace State.Inside

variable {ending : Token} {state : State}

/-- Advancing stays in the source. -/
theorem advance (within : state.Inside ending) : state.advance.Inside ending :=
  ⟨by rw [advance_nesting]; exact within.nonneg, (advance_ending state).trans within.ends⟩

/-- A run that leaves no construct open stays in the source. -/
theorem told {told : List Diagnostic} {last : State} (within : state.Inside ending)
    (tells : Tells told state last) : last.Inside ending :=
  ⟨by rw [tells.nesting]; exact within.nonneg, tells.ending.trans within.ends⟩

/-- One construct deeper in the source. -/
theorem deeper (within : state.Inside ending) (blocks : Int) :
    State.Inside ending
      { state with depth := state.depth + blocks, nesting := state.nesting + 1 } :=
  ⟨Int.add_nonneg within.nonneg (by decide), within.ends⟩

end State.Inside

/-- The parser follows a construct from every state of a source that has its tokens in view,
however many constructs may still be opened. -/
def Phrase.Follows (phrase : Phrase) (ending : Token) (told : List Diagnostic) (levels : Nat)
    (tokens rest : List Token) : Prop :=
  ∀ (room : Nat) (state : State), state.Inside ending →
    phrase.Runs room told levels tokens rest state

namespace Phrase.Follows

variable {ending : Token} {told early late : List Diagnostic} {levels near far : Nat}
  {tokens middle rest : List Token}

/-- An expression follows its operand and its operators, one level deeper. -/
theorem expression {above : Precedence} {left value : Expr}
    (first : (Phrase.operand left).Follows ending early near tokens middle)
    (more : (Phrase.operators above left value).Follows ending late far middle rest) :
    (Phrase.expression above value).Follows ending (early ++ late) (max near far + 1) tokens
      rest := by
  intro room state within views _
  cases room with
  | zero => exact .no_room _
  | succ room =>
    rw [derive_expression]
    refine .inside ?_
    obtain ⟨rule, found, yields⟩ := first room _ (within.deeper 0)
      (views.congr (fun index => State.token_counters _ _ _ index) rfl)
    refine (yields.sequence fun last stops tells => ?_).congr (expressionBody_operand above found)
    exact more room last ((within.deeper 0).told tells) stops

/-- A name is an operand. -/
theorem name {token : Token} (kind : token.kind = .identifier) :
    (Phrase.operand (.name ⟨token.text, token.position⟩)).Follows ending [] 0 (token :: rest)
      rest := by
  intro room state _ views
  obtain rfl := views.current_eq
  refine ⟨Parser.name, by rw [kind]; rfl, ?_⟩
  exact .look (.value views.behind)

/-- A readable integer is an operand. -/
theorem integer {token : Token} {value : Int} (kind : token.kind = .integer)
    (readable : readInteger? token.text = some value) :
    (Phrase.operand (.integer value token.position)).Follows ending [] 0 (token :: rest) rest := by
  intro room state _ views
  obtain rfl := views.current_eq
  refine ⟨Parser.integer, by rw [kind]; rfl, .look ?_⟩
  simp only [readable]
  exact .value views.behind

/-- A truth value is an operand. -/
theorem boolean {token : Token} (kind : token.kind = .trueWord ∨ token.kind = .falseWord) :
    (Phrase.operand (.boolean (token.kind = .trueWord) token.position)).Follows ending [] 0
      (token :: rest) rest := by
  intro room state _ views
  obtain rfl := views.current_eq
  refine ⟨Parser.boolean, ?_, .look (.value views.behind)⟩
  rcases kind with kind | kind <;> rw [kind] <;> rfl

/-- An operator before its operand. -/
theorem unary {sign : Token} {value : Expr} (kind : sign.kind = .bang ∨ sign.kind = .minus)
    (operand : (Phrase.expression .unary value).Follows ending told levels tokens rest) :
    (Phrase.operand (.unary sign.text value sign.position)).Follows ending told levels
      (sign :: tokens) rest := by
  intro room state within views
  obtain rfl := views.current_eq
  refine ⟨Parser.unary (Inner.ofRoom room), ?_, .look (.advance ?_)⟩
  · rcases kind with kind | kind <;> rw [kind] <;> rfl
  · have yields := operand room state.advance within.advance views.behind.step
      fun _ => State.advance_known _
    exact yields.followed fun last stops => .value stops

/-- An expression in parentheses. -/
theorem grouped {opening close : Token} {value : Expr} (kind : opening.kind = .leftParen)
    (inside : (Phrase.expression .lowest value).Follows ending told levels tokens (close :: rest))
    (closing : close.kind = .rightParen) :
    (Phrase.operand value).Follows ending told levels (opening :: tokens) rest := by
  intro room state within views
  obtain rfl := views.current_eq
  refine ⟨Parser.grouped (Inner.ofRoom room), by rw [kind]; rfl, .advance ?_⟩
  have yields := inside room state.advance within.advance views.behind.step
    fun _ => State.advance_known _
  refine yields.followed fun last stops => ?_
  exact .expect (stops.peek_kind.trans closing) (.value stops.pass)

/-- A function literal. -/
theorem function {keyword opening brace : Token} {inside : List Token} {names : List Ident}
    {body : List Stmt} (kind : keyword.kind = .functionWord) (paren : opening.kind = .leftParen)
    (parameters : ReadsNames tokens (brace :: inside) names) (curly : brace.kind = .leftBrace)
    (block : (Phrase.block body).Follows ending told levels inside rest) :
    (Phrase.operand (.function names body keyword.position)).Follows ending told levels
      (keyword :: opening :: tokens) rest := by
  intro room state within views
  obtain rfl := views.current_eq
  refine ⟨Parser.function (Inner.ofRoom room), by rw [kind]; rfl, .look ?_⟩
  refine .expect (views.behind.peek_kind.trans paren) ?_
  refine ((parameters.runs room views.behind.pass).sequence fun last stops tells => ?_).opening
    (Nat.zero_max levels)
  refine .expect (stops.peek_kind.trans curly) ?_
  have yields := block room last.advance (within.advance.told tells).advance stops.pass
  exact yields.followed fun last stops => .value stops

/-- The operators behind an expression are a loop of turns. -/
theorem operators_eq (inner : Inner) (above : Precedence) (left : Expr) :
    Parser.operators inner above left =
      Rule.repeatWhile (bindsTighter above) (operatorTurn inner) left >>= pure :=
  (bind_pure _).symm

/-- No operator comes next. -/
theorem noOperator {above : Precedence} {left : Expr}
    (looser : ¬ above < .ofKind (headKind rest)) :
    (Phrase.operators above left left).Follows ending [] 0 rest rest := by
  intro room state _ views
  rw [operators_eq]
  refine .done ((loops_end (ofRoom_forward room) views.ended).operators above left) ?_
    (.value views)
  rw [bindsTighter, views.peek_kind]
  simpa using looser

/-- A turn of the operators in front of the others. -/
theorem turn {above : Precedence} {sign : Token} {left found value : Expr}
    (tighter : above < .ofKind sign.kind)
    (extended : ∀ room (state : State), state.Inside ending → state.At (sign :: tokens) →
      (extend (Inner.ofRoom room) left).Yields state early near room found (·.Ahead middle))
    (more : (Phrase.operators above found value).Follows ending late far middle rest) :
    (Phrase.operators above left value).Follows ending (early ++ late) (max near far)
      (sign :: tokens) rest := by
  intro room state within views
  rw [operators_eq]
  have head : (operatorTurn (Inner.ofRoom room) left).Yields state early near room found
      (·.Ahead middle) :=
    .advance (extended room state.advance within.advance views.step)
  refine .again (fun left _ ended => (loops_end (ofRoom_forward room) ended).operators above left)
    views.ended ?_ head (fun _ stops => stops.ended) fun last stops tells => ?_
  · rw [bindsTighter, views.peek_eq]
    simpa using tighter
  · have behind := more room last (within.told tells) stops
    rwa [operators_eq] at behind

/-- An operator behind its left operand follows its right operand. -/
theorem extend_binary {sign : Token} {right : Expr} (left : Expr) (kind : sign.kind ≠ .leftParen)
    (operand : (Phrase.expression (.ofKind sign.kind) right).Follows ending told levels tokens rest)
    (room : Nat) {state : State} (within : state.Inside ending)
    (views : state.At (sign :: tokens)) :
    (extend (Inner.ofRoom room) left).Yields state told levels room
      (.binary sign.text left right sign.position) (·.Ahead rest) := by
  obtain rfl := views.current_eq
  refine .look ?_
  rw [if_neg kind]
  refine .look (.advance ?_)
  have yields := operand room state.advance within.advance views.behind.step
    fun _ => State.advance_known _
  exact yields.followed fun last stops => .value stops

/-- An operator with its right operand. -/
theorem binary {above : Precedence} {sign : Token} {left right value : Expr}
    (tighter : above < .ofKind sign.kind) (kind : sign.kind ≠ .leftParen)
    (operand : (Phrase.expression (.ofKind sign.kind) right).Follows ending early near tokens
      middle)
    (more : (Phrase.operators above (.binary sign.text left right sign.position) value).Follows
      ending late far middle rest) :
    (Phrase.operators above left value).Follows ending (early ++ late) (max near far)
      (sign :: tokens) rest :=
  turn tighter (fun room _ within views => extend_binary left kind operand room within views) more

/-- A parenthesis behind an expression follows the arguments. -/
theorem extend_call {opening : Token} {values : List Expr} (callee : Expr)
    (kind : opening.kind = .leftParen)
    (arguments : (Phrase.arguments values).Follows ending told levels tokens rest) (room : Nat)
    {state : State} (within : state.Inside ending) (views : state.At (opening :: tokens)) :
    (extend (Inner.ofRoom room) callee).Yields state told levels room
      (.call callee values opening.position) (·.Ahead rest) := by
  obtain rfl := views.current_eq
  refine .look ?_
  rw [if_pos kind]
  exact .look ((arguments room state within views.behind).followed fun last stops => .value stops)

/-- A call. -/
theorem call {above : Precedence} {opening : Token} {left value : Expr} {values : List Expr}
    (tighter : above < .call) (kind : opening.kind = .leftParen)
    (arguments : (Phrase.arguments values).Follows ending early near tokens middle)
    (more : (Phrase.operators above (.call left values opening.position) value).Follows
      ending late far middle rest) :
    (Phrase.operators above left value).Follows ending (early ++ late) (max near far)
      (opening :: tokens) rest := by
  have tighter_kind : above < .ofKind opening.kind := by
    rw [kind]
    exact tighter
  exact turn tighter_kind
    (fun room _ within views => extend_call left kind arguments room within views) more

/-- No argument. -/
theorem noArgument {close : Token} (closing : close.kind = .rightParen) :
    (Phrase.arguments []).Follows ending [] 0 (close :: rest) rest := by
  intro room state _ views
  exact .taken (views.peek_kind.trans closing) (.value views.pass)

/-- A first argument and those behind it. -/
theorem arguments {value : Expr} {values : List Expr} (open_ended : headKind tokens ≠ .rightParen)
    (first : (Phrase.expression .lowest value).Follows ending early near tokens middle)
    (more : (Phrase.moreArguments values).Follows ending late far middle rest) :
    (Phrase.arguments (value :: values)).Follows ending (early ++ late) (max near far) tokens
      rest := by
  intro room state within views
  have other : state.peek.kind ≠ .rightParen := by rwa [views.peek_kind]
  refine .left other (.advance ?_)
  have yields := first room state.advance within.advance views.step fun _ => State.advance_known _
  refine yields.sequence fun last stops tells => ?_
  exact more room last (within.advance.told tells) stops #[value]

/-- No further argument. -/
theorem lastArgument {close : Token} (closing : close.kind = .rightParen) :
    (Phrase.moreArguments []).Follows ending [] 0 (close :: rest) rest := by
  intro room state _ views before
  have other : state.peek.kind = .rightParen := views.peek_kind.trans closing
  refine .done ((loops_end (ofRoom_forward room) views.ended).arguments before) ?_
    (.expect other ?_)
  · simp [commaFollows, other]
  · rw [List.append_nil]
    exact .value views.pass

/-- A comma follows the argument behind it. -/
theorem argument_turn {comma : Token} {value : Expr}
    (first : (Phrase.expression .lowest value).Follows ending told levels tokens rest) (room : Nat)
    {state : State} (within : state.Inside ending) (views : state.Ahead (comma :: tokens))
    (before : Array Expr) :
    (argumentTurn (Inner.ofRoom room) before).Yields state told levels room (before.push value)
      (·.Ahead rest) := by
  refine .advance (.advance ?_)
  have yields := first room state.advance.advance within.advance.advance views.pass.step
    fun _ => State.advance_known _
  exact yields.followed fun last stops => .value stops

/-- An argument in front of others. -/
theorem nextArgument {comma : Token} {value : Expr} {values : List Expr}
    (separator : comma.kind = .comma)
    (first : (Phrase.expression .lowest value).Follows ending early near tokens middle)
    (more : (Phrase.moreArguments values).Follows ending late far middle rest) :
    (Phrase.moreArguments (value :: values)).Follows ending (early ++ late) (max near far)
      (comma :: tokens) rest := by
  intro room state within views before
  have head := argument_turn first room within views before
  have going : commaFollows state = true := by
    simp [commaFollows, views.peek_eq, separator]
  refine .again (fun values _ ended => (loops_end (ofRoom_forward room) ended).arguments values)
    views.ended going head (fun _ stops => stops.ended) fun last stops tells => ?_
  have behind := more room last (within.told tells) stops (before.push value)
  simpa using behind

/-! ## Statements -/

/-- A block follows its statements, one level deeper. -/
theorem block {body : List Stmt}
    (inside : (Phrase.statements body).Follows ending told levels tokens rest) :
    (Phrase.block body).Follows ending told (levels + 1) tokens rest := by
  intro room state within views
  cases room with
  | zero => exact .no_room _
  | succ room =>
    rw [Inner.block, derive_block]
    have entered : State.Ahead
        { state with depth := state.depth + 1, nesting := state.nesting + 1 } tokens :=
      views.congr (fun index => State.token_counters _ _ _ index) rfl
    refine .inside (.advance ?_)
    have positive : 0 < (State.advance
        { state with depth := state.depth + 1, nesting := state.nesting + 1 }).nesting := by
      rw [State.advance_nesting]
      exact Int.lt_add_one_of_le within.nonneg
    exact inside room _ (within.deeper 1).advance entered.step positive #[]

/-- No further statement. -/
theorem lastStatement {close : Token} (closing : close.kind = .rightBrace) :
    (Phrase.statements []).Follows ending [] 0 (close :: rest) rest := by
  intro room state _ views _ before
  refine .done ((loops_end (ofRoom_forward room) views.ended).block before) ?_ ?_
  · simp [currentIsNot, views.current_eq, closing]
  · rw [List.append_nil]
    exact .value views.behind

/-- The attempt at a statement follows the statement. -/
theorem attempt {value : Stmt} {room : Nat} {state : State} (within : state.Inside ending)
    (views : state.At tokens)
    (first : (Phrase.statement value).Follows ending told levels tokens rest) :
    (some <$> statementOfKind (Inner.ofRoom room) state.current.kind).Yields
      (state.note (.statement state.current)) told levels room (some value) (·.Ahead rest) := by
  have noted : (state.note (.statement state.current)).At tokens :=
    views.congr (fun index => state.token_note _ index) rfl
  have yields := first room (state.note (.statement state.current))
    ⟨within.nonneg, within.ends⟩ noted
  rw [map_eq_pure_bind]
  exact yields.followed fun last stops => .value stops

/-- Inside of a block a statement passes its faults of nesting on, and has no other. -/
theorem inBlock {value : Stmt} {room : Nat} {state : State} (within : state.Inside ending)
    (positive : 0 < state.nesting) (views : state.At tokens)
    (first : (Phrase.statement value).Follows ending told levels tokens rest) :
    (Parser.statement (Inner.ofRoom room)).Yields state told levels room (some value)
      (·.Ahead rest) := by
  have run := Rule.statement_run (Inner.ofRoom room) state
  cases attempt within views first with
  | reads enough ran stops tells =>
    exact .reads enough (run.trans (Rule.tryCatch_ok ran)) stops
      ⟨tells.nesting, tells.ending, tells.diagnostics⟩
  | @overflows fault last short ran deep nesting =>
    refine .overflows short (run.trans ((Rule.tryCatch_error ran).trans ?_)) deep nesting
    have nested : 0 < last.nesting := by
      rw [nesting]
      exact positive
    unfold recover
    rw [Rule.bind_ok (show (get : Rule State) last = .ok last last from rfl),
      if_pos ⟨deep, nested⟩]
    rfl

/-- A statement in front of others. -/
theorem nextStatement {value : Stmt} {values : List Stmt} (begins : headKind tokens ≠ .rightBrace)
    (more_input : headKind tokens ≠ .endOfInput)
    (first : (Phrase.statement value).Follows ending early near tokens middle)
    (more : (Phrase.statements values).Follows ending late far middle rest) :
    (Phrase.statements (value :: values)).Follows ending (early ++ late) (max near far) tokens
      rest := by
  intro room state within views positive before
  have head : (nextInBlock (Inner.ofRoom room) before).Yields state early near room
      (before.push value) (·.At middle) := by
    refine .look ?_
    rw [if_neg (by rwa [views.current_kind])]
    refine (inBlock within positive views first).followed fun last stops => .advance ?_
    exact .value stops.step
  have going : currentIsNot .rightBrace state = true := by
    simp [currentIsNot, views.current_kind, begins]
  refine .again (fun values _ ended => (loops_end (ofRoom_forward room) ended).block values)
    views.ended going head (fun _ stops => stops.ended) fun last stops tells => ?_
  have positive_behind : 0 < last.nesting := by
    rw [tells.nesting]
    exact positive
  have behind := more room last (within.told tells) stops positive_behind (before.push value)
  simpa using behind

/-- A binding. -/
theorem binding {keyword target sign close : Token} {value : Expr} (kind : keyword.kind = .letWord)
    (named : target.kind = .identifier) (assigned : sign.kind = .assign)
    (inside : (Phrase.expression .lowest value).Follows ending told levels tokens (close :: rest))
    (closing : close.kind = .semicolon) :
    (Phrase.statement (.binding ⟨target.text, target.position⟩ value keyword.position)).Follows
      ending told levels (keyword :: target :: sign :: tokens) rest := by
  intro room state within views
  obtain rfl := views.current_eq
  obtain rfl := views.behind.peek_eq
  rw [kind]
  refine .look (.expect named (.expect (views.behind.pass.peek_kind.trans assigned) (.advance ?_)))
  have yields := inside room state.advance.advance.advance within.advance.advance.advance
    views.behind.pass.pass.step fun _ => State.advance_known _
  refine yields.followed fun last stops => ?_
  exact .expect (stops.peek_kind.trans closing) (.value stops.pass)

/-- The end of a function without a value. -/
theorem bareResult {keyword close : Token} (kind : keyword.kind = .returnWord)
    (closing : close.kind = .semicolon) :
    (Phrase.statement (.result none keyword.position)).Follows ending [] 0
      (keyword :: close :: rest) rest := by
  intro room state _ views
  obtain rfl := views.current_eq
  rw [kind]
  exact .look (.taken (views.behind.peek_kind.trans closing) (.value views.behind.pass))

/-- The end of a function with a value. -/
theorem result {keyword close : Token} {value : Expr} (some_value : headKind tokens ≠ .semicolon)
    (kind : keyword.kind = .returnWord)
    (inside : (Phrase.expression .lowest value).Follows ending told levels tokens (close :: rest))
    (closing : close.kind = .semicolon) :
    (Phrase.statement (.result (some value) keyword.position)).Follows ending told levels
      (keyword :: tokens) rest := by
  intro room state within views
  obtain rfl := views.current_eq
  rw [kind]
  have other : state.peek.kind ≠ .semicolon := by rwa [views.behind.peek_kind]
  refine .look (.left other (.advance ?_))
  have yields := inside room state.advance within.advance views.behind.step
    fun _ => State.advance_known _
  refine yields.followed fun last stops => ?_
  exact .expect (stops.peek_kind.trans closing) (.value stops.pass)

/-- A semicolon behind an expression on its own is taken, and may be left out. -/
theorem semicolon {value : Stmt} {room : Nat} {state : State} (views : state.Ahead middle)
    (closed : (∃ close : Token, close.kind = .semicolon ∧ middle = close :: rest) ∨
      headKind rest ≠ .semicolon ∧ middle = rest) :
    (do
      _ ← Rule.accept .semicolon
      return value : Rule Stmt).Yields state [] 0 room value (·.Ahead rest) := by
  rcases closed with ⟨close, closing, rfl⟩ | ⟨following, rfl⟩
  · exact .taken (views.peek_kind.trans closing) (.value views.pass)
  · exact .left (by rwa [State.Views.peek_kind views]) (.value views)

/-- An expression on its own and what follows it. -/
theorem expressionStatement {first : Token} {value : Expr}
    (begins : first.kind.startsOperand = true)
    (inside : (Phrase.expression .lowest value).Follows ending told levels (first :: tokens) middle)
    (closed : (∃ close : Token, close.kind = .semicolon ∧ middle = close :: rest) ∨
      headKind rest ≠ .semicolon ∧ middle = rest) :
    (Phrase.statement (.expression value first.position)).Follows ending told levels
      (first :: tokens) rest := by
  intro room state within views
  obtain rfl := views.current_eq
  rw [statementOfKind_operand _ begins]
  refine .look ?_
  rw [leading, if_pos (by rwa [operand?_isSome_eq])]
  have yields := inside room state within views fun ends =>
    absurd ends (by simp [headKind, Kind.endsExpression_of_startsOperand begins])
  exact yields.followed fun last stops => semicolon stops closed

/-- A condition up to the end of its first branch, and what follows it. -/
theorem branch {keyword opening close brace : Token} {further : Nat} {final : List Diagnostic}
    {inside : List Token} {test : Expr} {consequence : List Stmt} {value : Stmt}
    (kind : keyword.kind = .ifWord) (paren : opening.kind = .leftParen)
    (tested : (Phrase.expression .lowest test).Follows ending early near tokens
      (close :: brace :: inside))
    (closing : close.kind = .rightParen) (curly : brace.kind = .leftBrace)
    (first : (Phrase.block consequence).Follows ending late far inside middle)
    (behind : ∀ (room : Nat) (last : State), last.Inside ending → last.Ahead middle →
      (do
        if ← Rule.accept .elseWord then
          _ ← Rule.expect .leftBrace "`\x7b`"
          let alternative ← (Inner.ofRoom room).block
          return .condition test consequence (some alternative) keyword.position
        else
          return .condition test consequence none keyword.position : Rule Stmt).Yields last final
        further room value (·.Ahead rest)) :
    (Phrase.statement value).Follows ending (early ++ (late ++ final)) (max near (max far further))
      (keyword :: opening :: tokens) rest := by
  intro room state within views
  obtain rfl := views.current_eq
  rw [kind]
  refine .look (.expect (views.behind.peek_kind.trans paren) (.advance ?_))
  have yields := tested room state.advance.advance within.advance.advance views.behind.pass.step
    fun _ => State.advance_known _
  refine yields.sequence fun last stops tells => ?_
  have within_inside := (within.advance.advance.told tells).advance.advance
  refine .expect (stops.peek_kind.trans closing) (.expect (stops.pass.peek_kind.trans curly) ?_)
  refine (first room last.advance.advance within_inside stops.pass.pass).sequence
    fun final stops tells => ?_
  exact behind room final (within_inside.told tells) stops

/-- A condition with one branch. -/
theorem condition {keyword opening close brace : Token} {inside : List Token} {test : Expr}
    {consequence : List Stmt} (kind : keyword.kind = .ifWord) (paren : opening.kind = .leftParen)
    (tested : (Phrase.expression .lowest test).Follows ending early near tokens
      (close :: brace :: inside))
    (closing : close.kind = .rightParen) (curly : brace.kind = .leftBrace)
    (first : (Phrase.block consequence).Follows ending late far inside rest)
    (following : headKind rest ≠ .elseWord) :
    (Phrase.statement (.condition test consequence none keyword.position)).Follows ending
      (early ++ late) (max near far) (keyword :: opening :: tokens) rest := by
  have whole : (Phrase.statement (.condition test consequence none keyword.position)).Follows ending
      (early ++ (late ++ [])) (max near (max far 0)) (keyword :: opening :: tokens) rest :=
    branch kind paren tested closing curly first fun _ _ _ stops =>
      .left (by rwa [State.Views.peek_kind stops]) (.value stops)
  rwa [Nat.max_zero, List.append_nil] at whole

/-- A condition with two branches. -/
theorem alternative {keyword opening close brace other curl : Token} {further : Nat}
    {final : List Diagnostic} {inside behind : List Token} {test : Expr}
    {consequence alternative : List Stmt} (kind : keyword.kind = .ifWord)
    (paren : opening.kind = .leftParen)
    (tested : (Phrase.expression .lowest test).Follows ending early near tokens
      (close :: brace :: inside))
    (closing : close.kind = .rightParen) (curly : brace.kind = .leftBrace)
    (first : (Phrase.block consequence).Follows ending late far inside (other :: curl :: behind))
    (otherwise : other.kind = .elseWord) (curled : curl.kind = .leftBrace)
    (second : (Phrase.block alternative).Follows ending final further behind rest) :
    (Phrase.statement (.condition test consequence (some alternative) keyword.position)).Follows
      ending (early ++ (late ++ final)) (max near (max far further)) (keyword :: opening :: tokens)
      rest := by
  refine branch kind paren tested closing curly first fun room last within stops => ?_
  refine .taken (stops.peek_kind.trans otherwise) ?_
  refine .expect (stops.pass.peek_kind.trans curled) ?_
  have yields := second room last.advance.advance within.advance.advance stops.pass.pass
  exact yields.followed fun final stops => .value stops

end Phrase.Follows

/-- The parser follows every reading, and records nothing. -/
theorem Reads.runs {phrase : Phrase} {levels : Nat} {tokens rest : List Token}
    (reads : Reads phrase levels tokens rest) (ending : Token) :
    phrase.Follows ending [] levels tokens rest := by
  induction reads with
  | expression _ _ first more => exact .expression first more
  | name kind => exact .name kind
  | integer kind readable => exact .integer kind readable
  | boolean kind => exact .boolean kind
  | unary kind _ operand => exact .unary kind operand
  | grouped kind _ closing inside => exact .grouped kind inside closing
  | function kind paren parameters curly _ block =>
    exact .function kind paren parameters curly block
  | noOperator looser => exact .noOperator looser
  | binary tighter kind _ _ operand more => exact .binary tighter kind operand more
  | call tighter kind _ _ arguments more => exact .call tighter kind arguments more
  | noArgument closing => exact .noArgument closing
  | arguments reads _ first more => exact .arguments (reads.begins_apart rfl) first more
  | lastArgument closing => exact .lastArgument closing
  | nextArgument separator _ _ first more => exact .nextArgument separator first more
  | block _ inside => exact .block inside
  | lastStatement closing => exact .lastStatement closing
  | nextStatement reads _ first more =>
    have begins := reads.statement_begins
    refine .nextStatement (fun closing => ?_) (fun ended => ?_) first more
    · rw [closing] at begins
      exact absurd begins (by decide)
    · rw [ended] at begins
      exact absurd begins (by decide)
  | binding kind named assigned _ closing inside =>
    exact .binding kind named assigned inside closing
  | bareResult kind closing => exact .bareResult kind closing
  | result kind reads closing inside => exact .result (reads.begins_apart rfl) kind inside closing
  | terminated reads closing inside =>
    exact .expressionStatement reads.expression_begins inside (.inl ⟨_, closing, rfl⟩)
  | unterminated reads following inside =>
    exact .expressionStatement reads.expression_begins inside (.inr ⟨following, rfl⟩)
  | condition kind paren _ closing curly _ following tested first =>
    exact .condition kind paren tested closing curly first following
  | alternative kind paren _ closing curly _ otherwise curled _ tested first second =>
    exact .alternative kind paren tested closing curly first otherwise curled second

end ExprLang.Parser
