import ExprLang.Proofs.Hollow.Basic
import ExprLang.Proofs.Reading.Source

/-!
# Runs around a hole

Where an expression is taken out of a source, the parser blames the token that it finds there and
puts a placeholder in its place. Then it follows the constructs around the hole as it did around the
expression (`Around.follows`), and so it does with the program (`AroundProgram.follows`). What is
left in the place of the expression is nothing, in front of a token that ends expressions, or one
token that begins nothing (`Hole.Lacks`).
-/

namespace ExprLang.Parser

/-- Whether a construct asks for an expression whatever token comes next. A call without arguments,
a function that ends without a value and the end of a block have nothing in its place. -/
def Slot.asks : Slot → Bool
  | .operand | .right | .group | .argument | .binding | .test => true
  | .soleArgument | .result | .statement => false

/-- What is wrong with a token in the place of an expression. -/
def missed (token : Token) : Diagnostic := ⟨.missingOperand token.toLexeme, token.position⟩

/-- What stands in the place of an expression, with the token that is blamed: nothing, in front of a
token that ends expressions, or a token that begins nothing. -/
inductive Hole.Lacks (hole : Hole) (ending : Token) : List Token → Token → Prop where
  /-- Nothing. -/
  | nothing (ends : (headKind hole.after).endsExpression = true) :
      Lacks hole ending [] (hole.after.headD ending)
  /-- A token that is not legal. -/
  | stray {token : Token} (kind : token.kind = .illegal) : Lacks hole ending [token] token

/-- No operand begins in the place of an expression. -/
theorem Hole.Lacks.begins {hole : Hole} {ending blamed : Token} {gap : List Token}
    (lacks : hole.Lacks ending gap blamed) :
    (headKind (gap ++ hole.after)).startsOperand = false := by
  cases lacks with
  | nothing ends =>
    by_contra begins
    rw [Bool.not_eq_false] at begins
    exact absurd (ends.symm.trans (Kind.endsExpression_of_startsOperand begins)) (by decide)
  | stray kind =>
    rw [List.singleton_append, headKind, kind]
    rfl

/-! ## Placeholders -/

/-- Behind a step back the tokens in view are those behind the current one. -/
theorem State.Views.back {state : State} {tokens : List Token} (views : state.At tokens)
    (known : state.previous ≠ none) : state.stepBack.Ahead tokens := by
  obtain ⟨before, before_known⟩ := Option.ne_none_iff_exists'.mp known
  have ending := state.stepBack_framed.ending
  refine ⟨fun index => ?_, views.solid, ?_⟩
  · rw [ending, (state.stepBack_token before_known).2]
    exact views.along index
  · rw [ending]
    exact views.ended

/-- Where no operand begins an expression is missing. -/
theorem operand?_eq_none (inner : Inner) {kind : Kind} (absent : kind.startsOperand = false) :
    operand? inner kind = none := by
  rw [← Option.not_isSome_iff_eq_none, operand?_isSome_eq, absent]
  decide

namespace Phrase.Follows

variable {hole : Hole} {ending blamed : Token} {gap : List Token}

/-- In the place of an expression the parser blames a token and gives a placeholder. -/
theorem missing (above : Precedence) (lacks : hole.Lacks ending gap blamed) :
    (Phrase.expression above (.missing blamed.position)).Follows ending [missed blamed] 1
      (gap ++ hole.after) hole.after := by
  intro room state within views known
  cases room with
  | zero => exact .no_room _
  | succ room =>
    rw [derive_expression]
    refine .inside ?_
    have entered : State.At
        { state with depth := state.depth + 0, nesting := state.nesting + 1 } (gap ++ hole.after) :=
      views.congr (fun index => State.token_counters _ _ _ index) rfl
    have absent := operand?_eq_none (Inner.ofRoom room)
      ((congrArg Kind.startsOperand entered.current_kind).trans lacks.begins)
    refine Rule.Yields.congr ?_ (expressionBody_placeholder above absent)
    have recorded := State.record_tells
      { state with depth := state.depth + 0, nesting := state.nesting + 1 } (missed state.current)
    have in_view := entered.congr
      (fun index => State.token_record _ (missed state.current) index) rfl
    have ran := placeholder_run
      { state with depth := state.depth + 0, nesting := state.nesting + 1 }
    cases lacks with
    | nothing ends =>
      have here : state.current = hole.after.headD ending := by
        rw [← within.ends, List.headD_eq_head?_getD, List.head?_eq_getElem?,
          ← List.getD_eq_getElem?_getD]
        exact views.along 0
      have current_ends : state.current.kind.endsExpression = true := by
        rw [views.current_kind]
        exact ends
      rw [if_pos current_ends] at ran
      rw [← here]
      have tells := recorded.trans (State.stepBack_quiet _)
      exact .of_ok ran (in_view.back (known ends)) tells
    | stray kind =>
      obtain rfl := views.current_eq
      rw [if_neg (by rw [kind]; decide)] at ran
      exact .of_ok ran in_view.behind recorded

/-- A token that begins nothing, as a statement of its own. -/
theorem stray {token : Token} {middle rest : List Token} (kind : token.kind = .illegal)
    (closed : (∃ close : Token, close.kind = .semicolon ∧ middle = close :: rest) ∨
      headKind rest ≠ .semicolon ∧ middle = rest) :
    (Phrase.statement (.expression (.missing token.position) token.position)).Follows ending
      [missed token] 0 (token :: middle) rest := by
  intro room state _ views
  obtain rfl := views.current_eq
  rw [kind]
  refine .look ?_
  rw [leading, kind, operand?_eq_none _ rfl, if_neg (by decide)]
  have recorded := views.congr
    (fun index => State.token_record _ (missed state.current) index) rfl
  have head : missingOperand.Yields state [missed state.current] 0 room
      (.missing state.current.position) (·.Ahead middle) :=
    .of_ok (missingOperand_run state) recorded.behind (state.record_tells _)
  exact head.followed fun last stops => semicolon stops closed

end Phrase.Follows

/-! ## Contexts without tokens in front -/

/-- What a context is that has no tokens in front of the expression. -/
def Phrase.Bare (hole : Hole) (rest : List Token) (slot : Option Slot) : Phrase → Prop
  | .expression _ _ => slot = none ∧ rest = hole.after
  | .operand _ | .operators _ _ _ | .moreArguments _ => False
  | .arguments _ => True
  | .block _ | .statements _ | .statement _ => slot = some .statement

namespace Around

variable {hole : Hole} {before rest : List Token} {slot : Option Slot} {phrase lacking : Phrase}
  {levels : Nat}

/-- Without tokens in front, an expression is a whole expression, the first argument or a
statement. -/
theorem bare (around : Around hole before rest slot phrase lacking levels) (empty : before = []) :
    phrase.Bare hole rest slot := by
  induction around with
  | here => exact ⟨rfl, rfl⟩
  | first _ _ first => exact (first empty).elim
  | operators _ _ more => exact (more (List.append_eq_nil_iff.mp empty).2).elim
  | argument | behindArgument => exact trivial
  | block _ inside => exact inside empty
  | nextStatement _ _ first => exact first empty
  | behindStatement _ _ more => exact more (List.append_eq_nil_iff.mp empty).2
  | wholeTerminated | wholeUnterminated => exact rfl
  | _ => cases empty

/-- An operand begins with the expression. -/
theorem hole_begins (around : Around hole before rest slot phrase lacking levels) :
    (headKind hole.tokens).startsOperand = true := by
  induction around with
  | here reads => exact reads.expression_begins
  | wholeTerminated _ _ reads => exact reads.expression_begins
  | wholeUnterminated _ reads => exact reads.expression_begins
  | _ => assumption

end Around

/-! ## Around a hole -/

/-- Nothing is left in the place of an expression only where one is asked for. -/
def Slot.Asked (gap : List Token) (slot : Option Slot) : Prop :=
  gap = [] → ∀ asking, slot = some asking → asking.asks = true

/-- Where an expression is asked for, anything may be left in its place. -/
theorem Slot.asked {slot : Slot} (asks : slot.asks = true) (gap : List Token) :
    Asked gap (some slot) := fun _ _ same => Option.some.inj same ▸ asks

/-- What the construct directly around an expression asks for is what those further out ask for. -/
theorem Slot.Asked.inner {gap : List Token} {slot : Option Slot} {direct : Slot}
    (asked : Asked gap (some (slot.getD direct))) : Asked gap slot := by
  rintro empty asking rfl
  exact asked empty asking rfl

section

variable {hole : Hole} {ending blamed : Token} {gap before rest : List Token}
  {slot : Option Slot} {lacking : Phrase} {levels : Nat}

/-- In front of a hole the first kind is the one in front of the expression. -/
theorem Kindred.hollow (hole : Hole) (gap : List Token) (some_before : before ≠ []) :
    Kindred (before ++ (gap ++ hole.after)) (before ++ hole.tokens) :=
  .of_head (headKind_append_of_ne_nil some_before _ _)

/-- An expression with a hole begins with no token that begins no operand, where this is so of a
hole that is the whole expression. -/
theorem Around.expression_apart {above : Precedence} {value : Expr}
    (around : Around hole before rest slot (.expression above value) lacking levels)
    (lacks : hole.Lacks ending gap blamed) (kind : Kind) (other : kind.startsOperand = false)
    (legal : kind ≠ .illegal)
    (bare : slot = none → rest = hole.after → gap = [] → headKind rest ≠ kind) :
    headKind (before ++ (gap ++ hole.after)) ≠ kind := by
  by_cases empty : before = []
  · obtain ⟨whole, behind⟩ := around.bare empty
    subst empty
    cases lacks with
    | nothing =>
      rw [behind] at bare
      exact bare whole rfl rfl
    | stray stray_kind => exact fun same => legal (same.symm.trans stray_kind)
  · rw [headKind_append_of_ne_nil empty _ hole.tokens]
    exact around.reads.begins_apart other

/-- A statement with a hole begins as a statement does, or with a token that begins nothing. -/
theorem Around.statement_begins {value : Stmt}
    (around : Around hole before rest slot (.statement value) lacking levels)
    (lacks : hole.Lacks ending gap blamed) (asked : Slot.Asked gap slot) :
    headKind (before ++ (gap ++ hole.after)) = .illegal ∨
      (headKind (before ++ (gap ++ hole.after))).startsStatement = true ∨
        (headKind (before ++ (gap ++ hole.after))).startsOperand = true := by
  by_cases empty : before = []
  · have whole : slot = some .statement := around.bare empty
    subst empty whole
    cases lacks with
    | nothing => exact absurd (asked rfl .statement rfl) (by decide)
    | stray kind => exact .inl kind
  · rw [headKind_append_of_ne_nil empty _ hole.tokens]
    exact .inr around.reads.statement_begins

/-- A statement in front of an expression is read in front of a hole. -/
theorem Reads.statement_hollow {value : Stmt} {near : Nat} {front : List Token}
    (reads : Reads (.statement value) near (front ++ (before ++ hole.tokens))
      (before ++ hole.tokens))
    (begins : (headKind hole.tokens).startsOperand = true) (lacks : hole.Lacks ending gap blamed)
    (filled : before = [] → gap ≠ []) :
    Reads (.statement value) near (front ++ (before ++ (gap ++ hole.after)))
      (before ++ (gap ++ hole.after)) := by
  apply reads.exchange
  by_cases empty : before = []
  · subst empty
    cases lacks with
    | nothing => exact absurd rfl (filled rfl)
    | stray kind =>
      have illegal : headKind ([] ++ ([blamed] ++ hole.after)) = .illegal := kind
      apply reads.statement_permits (.inr begins) <;> rw [illegal] <;> decide
  · exact .inl (.hollow hole gap empty)

/-- The parser follows the constructs around a hole with a placeholder in it, and blames one
token. -/
theorem Around.follows {phrase : Phrase}
    (around : Around hole before rest slot phrase lacking levels)
    (lacks : hole.Lacks ending gap blamed) (place : hole.place = blamed.position)
    (asked : Slot.Asked gap slot) :
    ∃ fewer ≤ levels, lacking.Follows ending [missed blamed] fewer (before ++ (gap ++ hole.after))
      rest := by
  induction around with
  | @here above levels reads =>
    have positive : 1 ≤ levels := by
      cases reads with
      | expression => exact Nat.le_add_left 1 _
    rw [place]
    exact ⟨1, positive, .missing above lacks⟩
  | @first _ _ near far _ _ _ _ _ _ _ _ more first =>
    obtain ⟨fewer, enough, follows⟩ := first asked
    exact ⟨max fewer far + 1, by omega, .expression follows (more.reads_other.runs ending)⟩
  | @operators _ _ near far front before _ _ _ _ first context more =>
    obtain ⟨fewer, enough, follows⟩ := more asked
    have binds := (Kindred.hollow hole gap context.bare).binds
    rw [List.append_assoc]
    exact ⟨max near fewer + 1, by omega,
      .expression ((first.exchange _ binds).runs ending) follows⟩
  | unary kind _ operand =>
    obtain ⟨fewer, enough, follows⟩ := operand asked.inner
    exact ⟨fewer, enough, .unary kind follows⟩
  | grouped kind _ closing inside =>
    obtain ⟨fewer, enough, follows⟩ := inside asked.inner
    exact ⟨fewer, enough, .grouped kind follows closing⟩
  | function kind paren parameters curly _ block =>
    obtain ⟨fewer, enough, follows⟩ := block asked
    simp only [List.cons_append, List.append_assoc]
    exact ⟨fewer, enough, .function kind paren (parameters.exchange _) curly follows⟩
  | @right _ _ _ near far _ _ _ _ _ _ _ _ tighter kind _ more operand =>
    obtain ⟨fewer, enough, follows⟩ := operand asked.inner
    exact ⟨max fewer far, by omega, .binary tighter kind follows (more.reads_other.runs ending)⟩
  | @behindBinary _ _ _ near far front before _ _ _ _ _ tighter kind operand context more =>
    obtain ⟨fewer, enough, follows⟩ := more asked
    have binds := (Kindred.hollow hole gap context.bare).binds
    rw [List.cons_append, List.append_assoc]
    exact ⟨max near fewer, by omega,
      .binary tighter kind ((operand.exchange _ binds).runs ending) follows⟩
  | @called _ _ _ near far _ _ _ _ _ _ _ _ tighter kind _ more arguments =>
    obtain ⟨fewer, enough, follows⟩ := arguments asked
    exact ⟨max fewer far, by omega, .call tighter kind follows (more.reads_other.runs ending)⟩
  | @behindCall _ _ _ near far _ _ _ _ _ _ _ tighter kind arguments _ more =>
    obtain ⟨fewer, enough, follows⟩ := more asked
    rw [List.cons_append, List.append_assoc]
    exact ⟨max near fewer, by omega,
      .call tighter kind ((arguments.exchange _ trivial).runs ending) follows⟩
  | @argument _ near far _ _ _ _ _ values context more first =>
    obtain ⟨fewer, enough, follows⟩ := first asked.inner
    -- the only argument of a call is not asked for, so that a comma follows where nothing is left
    have apart := context.expression_apart lacks .rightParen rfl (by decide)
      fun whole behind empty closing => by
        subst whole
        cases more with
        | lastArgument => exact absurd (asked empty .soleArgument rfl) (by decide)
        | nextArgument separator =>
          rw [headKind, separator] at closing
          cases closing
    exact ⟨max fewer far, by omega, .arguments apart follows (more.runs ending)⟩
  | @behindArgument _ near far _ before _ _ _ _ first context more =>
    obtain ⟨fewer, enough, follows⟩ := more asked
    have binds := (Kindred.hollow hole gap context.bare).binds
    have again := first.exchange _ binds
    rw [List.append_assoc]
    exact ⟨max near fewer, by omega,
      .arguments (again.begins_apart rfl) (again.runs ending) follows⟩
  | @nextArgument _ _ near far _ _ _ _ _ _ separator _ more first =>
    obtain ⟨fewer, enough, follows⟩ := first asked.inner
    exact ⟨max fewer far, by omega, .nextArgument separator follows (more.runs ending)⟩
  | @behindNextArgument _ _ near far _ before _ _ _ _ separator first context more =>
    obtain ⟨fewer, enough, follows⟩ := more asked
    have binds := (Kindred.hollow hole gap context.bare).binds
    rw [List.cons_append, List.append_assoc]
    exact ⟨max near fewer, by omega,
      .nextArgument separator ((first.exchange _ binds).runs ending) follows⟩
  | block _ inside =>
    obtain ⟨fewer, enough, follows⟩ := inside asked
    exact ⟨fewer + 1, Nat.succ_le_succ enough, .block follows⟩
  | @nextStatement _ near far _ _ _ _ _ _ context more first =>
    obtain ⟨fewer, enough, follows⟩ := first asked
    have begins := context.statement_begins lacks asked
    refine ⟨max fewer far, by omega, .nextStatement ?_ ?_ follows (more.runs ending)⟩
    · intro closing
      rw [closing] at begins
      exact absurd begins (by decide)
    · intro ended
      rw [ended] at begins
      exact absurd begins (by decide)
  | @behindStatement _ near far _ before _ _ _ _ first context more =>
    obtain ⟨fewer, enough, follows⟩ := more asked
    have filled : before = [] → gap ≠ [] := fun empty nothing =>
      absurd (asked nothing .statement (context.bare empty)) (by decide)
    have again := first.statement_hollow context.hole_begins lacks filled
    have begins := again.statement_begins
    rw [List.append_assoc]
    refine ⟨max near fewer, by omega, .nextStatement ?_ ?_ (again.runs ending) follows⟩
    · intro closing
      rw [closing] at begins
      exact absurd begins (by decide)
    · intro ended
      rw [ended] at begins
      exact absurd begins (by decide)
  | binding kind named assigned _ closing inside =>
    obtain ⟨fewer, enough, follows⟩ := inside asked.inner
    exact ⟨fewer, enough, .binding kind named assigned follows closing⟩
  | result kind context closing inside =>
    obtain ⟨fewer, enough, follows⟩ := inside asked.inner
    have apart := context.expression_apart lacks .semicolon rfl (by decide)
      fun whole _ empty _ => by
        subst whole
        exact absurd (asked empty .result rfl) (by decide)
    exact ⟨fewer, enough, .result apart kind follows closing⟩
  | terminated context closing inside =>
    obtain ⟨fewer, enough, follows⟩ := inside asked
    exact ⟨fewer, enough,
      .expressionStatement context.reads.expression_begins follows (.inl ⟨_, closing, rfl⟩)⟩
  | unterminated context following inside =>
    obtain ⟨fewer, enough, follows⟩ := inside asked
    exact ⟨fewer, enough,
      .expressionStatement context.reads.expression_begins follows (.inr ⟨following, rfl⟩)⟩
  | wholeTerminated begins behind reads closing =>
    cases lacks with
    | nothing => exact absurd (asked rfl .statement rfl) (by decide)
    | stray kind =>
      rw [place]
      exact ⟨0, Nat.zero_le _, .stray kind (.inl ⟨_, closing, behind⟩)⟩
  | wholeUnterminated begins reads following =>
    cases lacks with
    | nothing => exact absurd (asked rfl .statement rfl) (by decide)
    | stray kind =>
      rw [place]
      exact ⟨0, Nat.zero_le _, .stray kind (.inr ⟨following, rfl⟩)⟩
  | @test _ _ _ _ _ near far _ _ _ _ _ _ kind paren _ closing curly block following tested =>
    obtain ⟨fewer, enough, follows⟩ := tested asked.inner
    exact ⟨max fewer far, by omega,
      .condition kind paren follows closing curly (block.runs ending) following⟩
  | @consequence _ _ _ close brace near far _ before _ _ _ _ kind paren tested closing curly _
      following block =>
    obtain ⟨fewer, enough, follows⟩ := block asked
    have again := (tested.exchange (close :: brace :: (before ++ (gap ++ hole.after)))
      rfl).runs ending
    simp only [List.cons_append, List.append_assoc]
    exact ⟨max near fewer, by omega, .condition kind paren again closing curly follows following⟩
  | @testOfTwo _ _ _ _ _ _ _ near far further _ _ _ _ _ _ _ _ kind paren _ closing curly block
      otherwise curled second tested =>
    obtain ⟨fewer, enough, follows⟩ := tested asked.inner
    exact ⟨max fewer (max far further), by omega,
      .alternative kind paren follows closing curly (block.runs ending) otherwise curled
        (second.runs ending)⟩
  | @firstOfTwo _ _ _ close brace _ _ near far further _ before _ _ _ _ _ _ kind paren tested
      closing curly _ otherwise curled second block =>
    obtain ⟨fewer, enough, follows⟩ := block asked
    simp only [List.cons_append, List.append_assoc]
    have again := (tested.exchange (close :: brace :: (before ++ (gap ++ hole.after)))
      rfl).runs ending
    exact ⟨max near (max fewer further), by omega,
      .alternative kind paren again closing curly follows otherwise curled (second.runs ending)⟩
  | @secondOfTwo _ _ _ close brace other curl near far further _ inside before _ _ _ _ _ kind paren
      tested closing curly block otherwise curled _ second =>
    obtain ⟨fewer, enough, follows⟩ := second asked
    simp only [List.cons_append, List.append_assoc]
    have again := (tested.exchange (close :: brace ::
      (inside ++ other :: curl :: (before ++ (gap ++ hole.after)))) rfl).runs ending
    have again_block := (block.exchange (other :: curl :: (before ++ (gap ++ hole.after)))
      trivial).runs ending
    exact ⟨max near (max far fewer), by omega,
      .alternative kind paren again closing curly again_block otherwise curled follows⟩

/-! ## Programs with a hole -/

variable {asking : Slot} {values others : List Stmt}

/-- An operand begins with the expression. -/
theorem AroundProgram.hole_begins (around : AroundProgram hole asking before values others levels) :
    (headKind hole.tokens).startsOperand = true := by
  induction around with
  | next first => exact first.hole_begins
  | behind _ _ more => exact more

/-- Without tokens in front, an expression is a statement. -/
theorem AroundProgram.bare (around : AroundProgram hole asking before values others levels)
    (empty : before = []) : asking = .statement := by
  induction around with
  | next first => exact Option.some.inj (first.bare empty)
  | behind _ _ more => exact more (List.append_eq_nil_iff.mp empty).2

/-- The parser follows the statements around a hole with a placeholder in it, and blames one
token. -/
theorem AroundProgram.follows (around : AroundProgram hole asking before values others levels)
    (lacks : hole.Lacks ending gap blamed) (place : hole.place = blamed.position)
    (asked : Slot.Asked gap (some asking)) :
    ∃ fewer ≤ levels, FollowsProgram ending [missed blamed] fewer
      (before ++ (gap ++ hole.after)) others := by
  induction around with
  | @next near far _ _ _ _ _ first more =>
    obtain ⟨fewer, enough, follows⟩ := first.follows lacks place asked
    have begins := first.statement_begins lacks asked
    refine ⟨max fewer far, by omega, .next (fun ended => ?_) follows (more.runs ending)⟩
    rw [ended] at begins
    exact absurd begins (by decide)
  | @behind near far _ before _ _ _ first context more =>
    obtain ⟨fewer, enough, follows⟩ := more
    have filled : before = [] → gap ≠ [] := by
      intro empty nothing
      have asks := asked nothing asking rfl
      rw [context.bare empty] at asks
      exact absurd asks (by decide)
    have again := first.statement_hollow context.hole_begins lacks filled
    have begins := again.statement_begins
    rw [List.append_assoc]
    refine ⟨max near fewer, by omega, .next (fun ended => ?_) (again.runs ending) follows⟩
    rw [ended] at begins
    exact absurd begins (by decide)

end

end ExprLang.Parser
