import ExprLang.Parser.Grammar

/-!
# Rules as programs

A rule ends with a value or with a fault, and leaves a state in both cases. This module owns
the laws of sequences and branches of rules, and the one walk through the grammar: a property
that sequences, branches and the steps of a state keep holds of every rule for a statement
(`statement_holds`), once it holds of the operands and blocks inside. How much a property is to
keep depends on how far the walk goes: the rules for the constructs of a statement only need
`Walked`, the statement around them needs `Recovering`, and a property of all steps is `Closed`.
-/

namespace ExprLang

/-! ## Causes -/

/-- Whether a cause is about what stands at its place: not about a limit of nesting, and not a
remark. -/
def Cause.isPlain : Cause → Bool
  | missingOperand _ | expected _ _ | unreadableInteger _ => true
  | _ => false

/-- A diagnostic says that something is nested too deeply. -/
def Diagnostic.TooDeep (diagnostic : Diagnostic) : Prop :=
  diagnostic.message = "expression nested too deeply" ∨
    diagnostic.message = "block nested too deeply"

instance (diagnostic : Diagnostic) : Decidable diagnostic.TooDeep :=
  inferInstanceAs (Decidable (_ ∨ _))

/-- A limit of nesting says that something is nested too deeply. -/
theorem Diagnostic.tooDeep_of_isDepth {diagnostic : Diagnostic}
    (deep : diagnostic.cause.isDepth = true) : diagnostic.TooDeep := by
  obtain ⟨cause, position⟩ := diagnostic
  cases cause with
  | deepExpression => exact .inl rfl
  | deepBlock => exact .inr rfl
  | _ => exact absurd deep (by simp [Cause.isDepth])

/-- A text that begins otherwise than another one is not this one. -/
theorem append_ne_of_take {front text : String} (long : 4 ≤ front.toList.length)
    (differ : front.toList.take 4 ≠ text.toList.take 4) (rest : String) : front ++ rest ≠ text := by
  rintro rfl
  apply differ
  rw [String.toList_append, List.take_append_of_le_length long]

/-- A plain cause does not say so. -/
theorem Diagnostic.not_tooDeep_of_isPlain {diagnostic : Diagnostic}
    (plain : diagnostic.cause.isPlain = true) : ¬ diagnostic.TooDeep := by
  obtain ⟨cause, position⟩ := diagnostic
  apply not_or.mpr
  cases cause with
  | missingOperand found =>
    have text : (Diagnostic.mk (.missingOperand found) position).message =
        "no prefix parse function for " ++ found.described := rfl
    rw [text]
    exact ⟨append_ne_of_take (by decide) (by decide) _, append_ne_of_take (by decide) (by decide) _⟩
  | expected wanted found =>
    have text : (Diagnostic.mk (.expected wanted found) position).message =
        "expected " ++ wanted ++ ", found " ++ found.described := rfl
    rw [text, String.append_assoc, String.append_assoc]
    exact ⟨append_ne_of_take (by decide) (by decide) _, append_ne_of_take (by decide) (by decide) _⟩
  | unreadableInteger found =>
    have text : (Diagnostic.mk (.unreadableInteger found) position).message =
        "could not parse `" ++ found ++ "` as integer" := rfl
    rw [text, String.append_assoc]
    exact ⟨append_ne_of_take (by decide) (by decide) _, append_ne_of_take (by decide) (by decide) _⟩
  | _ => exact absurd plain (by simp [Cause.isPlain])

end ExprLang

namespace ExprLang.Parser

namespace Rule

variable {α β : Type}

/-- The state that a rule leaves. -/
def after (rule : Rule α) (state : State) : State :=
  match rule state with
  | .ok _ last => last
  | .error _ last => last

/-- The state behind a value. -/
theorem after_ok {rule : Rule α} {state last : State} {value : α}
    (ran : rule state = .ok value last) : rule.after state = last := by
  simp [after, ran]

/-- The state behind a fault. -/
theorem after_error {rule : Rule α} {state last : State} {fault : Diagnostic}
    (ran : rule state = .error fault last) : rule.after state = last := by
  simp [after, ran]

/-- The state that a result leaves. -/
def left : EStateM.Result Diagnostic State α → State
  | .ok _ last => last
  | .error _ last => last

/-- A result leaves the state that its rule leaves. -/
theorem left_run (rule : Rule α) (state : State) : left (rule state) = rule.after state := by
  cases ran : rule state with
  | ok found last => exact (after_ok ran).symm
  | error fault last => exact (after_error ran).symm

/-- A sequence goes on behind the value of its first rule. -/
theorem bind_ok {first : Rule α} {next : α → Rule β} {state middle : State} {value : α}
    (ran : first state = .ok value middle) : (first >>= next) state = next value middle := by
  change EStateM.bind first next state = _
  simp [EStateM.bind, ran]

/-- A fault of its first rule ends a sequence. -/
theorem bind_error {first : Rule α} {next : α → Rule β} {state middle : State}
    {fault : Diagnostic} (ran : first state = .error fault middle) :
    (first >>= next) state = .error fault middle := by
  change EStateM.bind first next state = _
  simp [EStateM.bind, ran]

/-- A sequence depends on the result of its first rule only. -/
theorem bind_same {first other : Rule α} {next : α → Rule β} {state middle : State}
    (same : first state = other middle) : (first >>= next) state = (other >>= next) middle := by
  change EStateM.bind first next state = EStateM.bind other next middle
  simp [EStateM.bind, same]

/-- A sequence ends with a value exactly when both of its rules do. -/
theorem bind_eq_ok {first : Rule α} {next : α → Rule β} {state last : State} {value : β} :
    (first >>= next) state = .ok value last ↔
      ∃ found middle, first state = .ok found middle ∧ next found middle = .ok value last := by
  cases ran : first state with
  | ok found middle =>
    rw [bind_ok ran]
    constructor
    · exact fun ended => ⟨found, middle, rfl, ended⟩
    · rintro ⟨_, _, same, ended⟩
      cases same
      exact ended
  | error fault middle => simp [bind_error ran]

/-- A value ends a rule where it is. -/
theorem pure_eq_ok {found value : α} {state last : State} :
    (pure found : Rule α) state = .ok value last ↔ found = value ∧ state = last := by
  constructor
  · intro ran
    exact EStateM.Result.ok.inj ran
  · rintro ⟨rfl, rfl⟩
    rfl

/-- A sequence that only shapes a value ends where the rule for this value does. -/
theorem bind_pure_eq_ok {first : Rule α} {shape : α → β} {state last : State} {value : β} :
    (first >>= fun found => pure (shape found)) state = .ok value last ↔
      ∃ found, first state = .ok found last ∧ shape found = value := by
  rw [bind_eq_ok]
  constructor
  · rintro ⟨found, middle, ran, ended⟩
    obtain ⟨same, rfl⟩ := pure_eq_ok.mp ended
    exact ⟨found, ran, same⟩
  · rintro ⟨found, ran, rfl⟩
    exact ⟨found, last, ran, pure_eq_ok.mpr ⟨rfl, rfl⟩⟩

/-- Rules with one result leave one state. -/
theorem after_congr {left right : Rule α} {state : State} (same : left state = right state) :
    left.after state = right.after state := by
  simp only [after, same]

/-- The state behind a sequence. -/
theorem after_bind (first : Rule α) (next : α → Rule β) (state : State) :
    (first >>= next).after state =
      match first state with
      | .ok found middle => (next found).after middle
      | .error _ middle => middle := by
  cases ran : first state with
  | ok found middle => simp [after, bind_ok ran]
  | error fault middle => simp [after, bind_error ran]

/-- The state behind an attempt with a remedy for faults. -/
theorem after_tryCatch (attempt : Rule α) (remedy : Diagnostic → Rule α) (state : State) :
    (tryCatch attempt remedy : Rule α).after state =
      match attempt state with
      | .ok _ middle => middle
      | .error fault middle => (remedy fault).after middle := by
  change (match EStateM.tryCatch attempt remedy state with
    | .ok _ last => last
    | .error _ last => last) = _
  unfold EStateM.tryCatch
  cases ran : attempt state <;> rfl

/-- An attempt that ends with a value needs no remedy. -/
theorem tryCatch_ok {attempt : Rule α} {remedy : Diagnostic → Rule α} {state last : State}
    {value : α} (ran : attempt state = .ok value last) :
    (tryCatch attempt remedy : Rule α) state = .ok value last := by
  change EStateM.tryCatch attempt remedy state = _
  unfold EStateM.tryCatch
  rw [ran]

/-- An attempt that ends in a fault goes on with the remedy. -/
theorem tryCatch_error {attempt : Rule α} {remedy : Diagnostic → Rule α} {state middle : State}
    {fault : Diagnostic} (ran : attempt state = .error fault middle) :
    (tryCatch attempt remedy : Rule α) state = remedy fault middle := by
  change EStateM.tryCatch attempt remedy state = _
  unfold EStateM.tryCatch
  rw [ran]
  rfl

/-- Looking at the current token changes nothing. -/
theorem current_run (state : State) : Rule.current state = .ok state.current state := rfl

/-- Advancing returns the next token. -/
theorem advance_run (state : State) :
    Rule.advance state = .ok state.advance.current state.advance := rfl

/-- The run of a statement notes its first token and attempts it. -/
theorem statement_run (inner : Inner) (state : State) :
    statement inner state =
      (tryCatch (some <$> statementOfKind inner state.current.kind) recover : Rule (Option Stmt))
        (state.note (.statement state.current)) := rfl

/-- A statement that is read needs no remedy. -/
theorem statement_of_ok {inner : Inner} {state last : State} {value : Stmt}
    (ran : statementOfKind inner state.current.kind (state.note (.statement state.current)) =
      .ok value last) : statement inner state = .ok (some value) last := by
  rw [statement_run, map_eq_pure_bind]
  apply tryCatch_ok
  rw [bind_ok ran]
  rfl

/-- A statement with a fault goes on with the remedy for it. -/
theorem statement_of_error {inner : Inner} {state last : State} {fault : Diagnostic}
    (ran : statementOfKind inner state.current.kind (state.note (.statement state.current)) =
      .error fault last) : statement inner state = recover fault last := by
  rw [statement_run, map_eq_pure_bind]
  exact tryCatch_error (bind_error ran)

/-- Skip tokens up to the next statement, and read none. -/
def skipStatement : Rule (Option Stmt) := do
  synchronize
  return none

/-- The run behind a fault throws it again, or skips tokens with the fault recorded. -/
theorem recover_run (fault : Diagnostic) (state : State) :
    recover fault state =
      if fault.cause.isDepth = true ∧ 0 < state.nesting then .error fault state
      else skipStatement (state.record fault) := by
  unfold recover
  rw [bind_ok (show (get : Rule State) state = .ok state state from rfl)]
  split <;> rfl

/-- Behind a fault nothing is read. -/
theorem recover_none {fault : Diagnostic} {state last : State} {read : Option Stmt}
    (ran : recover fault state = .ok read last) : read = none := by
  rw [recover_run] at ran
  split at ran
  · exact nomatch ran
  · obtain ⟨_, middle, -, ran⟩ := bind_eq_ok.mp ran
    exact (pure_eq_ok.mp ran).1.symm

/-- A construct ends with the value of the rule inside, and closes what it has opened. -/
theorem inside_ok {blocks : Int} {rule : Rule α} {state last : State} {value : α}
    (ran : rule { state with depth := state.depth + blocks, nesting := state.nesting + 1 } =
      .ok value last) :
    Rule.inside blocks rule state = .ok value
      { last with depth := last.depth - blocks, nesting := last.nesting - 1 } := by
  unfold Rule.inside
  rw [ran]

/-- A construct passes a fault of the rule inside on, and closes what it has opened. -/
theorem inside_error {blocks : Int} {rule : Rule α} {state last : State} {fault : Diagnostic}
    (ran : rule { state with depth := state.depth + blocks, nesting := state.nesting + 1 } =
      .error fault last) :
    Rule.inside blocks rule state = .error fault
      { last with depth := last.depth - blocks, nesting := last.nesting - 1 } := by
  unfold Rule.inside
  rw [ran]

end Rule

/-! ## Nonterminals -/

/-- The rules for what lies inside where so many constructs may still be opened. -/
def Inner.ofRoom (room : Nat) : Inner := ⟨Nonterminal.derive room⟩

/-- A nonterminal without room is a fault. -/
theorem derive_zero {α : Type} (target : Nonterminal α) :
    (Inner.ofRoom 0).derive target =
      Rule.inside target.blocks (do throw ⟨target.overflow, (← Rule.current).position⟩) := rfl

/-- An expression where something may still be opened. -/
theorem derive_expression (room : Nat) (above : Precedence) :
    (Inner.ofRoom (room + 1)).derive (.expression above) =
      Rule.inside 0 (expressionBody (Inner.ofRoom room) above) := rfl

/-- A block where something may still be opened. -/
theorem derive_block (room : Nat) :
    (Inner.ofRoom (room + 1)).derive .block = Rule.inside 1 (blockBody (Inner.ofRoom room)) := rfl

/-! ## Statements -/

/-- An expression on its own, with the look at its first token as a part of the rule for it. -/
theorem expressionStatement_eq (inner : Inner) :
    expressionStatement inner = (do
      let first ← Rule.current
      let value ← (do let first ← Rule.current; leading inner first.kind)
      _ ← Rule.accept .semicolon
      return Stmt.expression value first.position) := rfl

/-! ## The walk through the grammar -/

variable {holds : {α : Type} → Rule α → Prop}

/-- A property of rules that sequences and the steps of a state keep, and that plain faults have.
Going back and opening a construct are left out: they are for the rules of one construct to answer
for. -/
structure Walked (holds : {α : Type} → Rule α → Prop) : Prop where
  /-- A value without a step. -/
  value : ∀ {α : Type} (found : α), holds (pure found : Rule α)
  /-- A sequence. -/
  sequence : ∀ {α β : Type} {first : Rule α} {next : α → Rule β}, holds first →
    (∀ found, holds (next found)) → holds (first >>= next)
  /-- A look at the state. -/
  look : holds (get : Rule State)
  /-- The step to the next token. -/
  advance : holds Rule.advance
  /-- A noted event. -/
  note : ∀ event, holds (Rule.note event)
  /-- A fault with a plain cause. -/
  plainFault : ∀ {α : Type} {fault : Diagnostic}, fault.cause.isPlain = true →
    holds (throw fault : Rule α)
  /-- A recorded diagnostic with a plain cause. -/
  plainRecord : ∀ {diagnostic : Diagnostic}, diagnostic.cause.isPlain = true →
    holds (Rule.record diagnostic)

/-- A property that is kept by the remedy for the faults of a statement too. -/
structure Recovering (holds : {α : Type} → Rule α → Prop) : Prop extends Walked holds where
  /-- A statement with the remedy for its faults. -/
  remedy : ∀ {first : Rule Stmt}, holds first →
    holds (tryCatch (some <$> first) recover : Rule (Option Stmt))

/-- A property that every fault, every recorded diagnostic and every remedy keep. -/
structure Closed (holds : {α : Type} → Rule α → Prop) : Prop extends Recovering holds where
  /-- An attempt with a remedy. -/
  attempt : ∀ {α : Type} {first : Rule α} {remedy : Diagnostic → Rule α}, holds first →
    (∀ fault, holds (remedy fault)) → holds (tryCatch first remedy : Rule α)
  /-- A fault. -/
  fault : ∀ {α : Type} (fault : Diagnostic), holds (throw fault : Rule α)
  /-- A recorded diagnostic. -/
  record : ∀ diagnostic, holds (Rule.record diagnostic)

namespace Walked

variable {α β : Type} (walked : Walked holds)

include walked

/-- The current token. -/
theorem current_holds : holds Rule.current := walked.sequence walked.look fun _ => walked.value _

/-- A step to a token of a kind. -/
theorem expect_holds (kind : Kind) (wanted : String) : holds (Rule.expect kind wanted) := by
  refine walked.sequence walked.look fun state => ?_
  dsimp only
  split
  · exact walked.advance
  · exact walked.plainFault rfl

/-- A step to a token of a kind if it comes next. -/
theorem accept_holds (kind : Kind) : holds (Rule.accept kind) := by
  refine walked.sequence walked.look fun state => ?_
  split
  · exact walked.sequence walked.advance fun _ => walked.value _
  · exact walked.value _

/-- A rule whose value is put into another one. -/
theorem map_holds {first : Rule α} (held : holds first) (change : α → β) :
    holds (change <$> first) := by
  rw [map_eq_pure_bind]
  exact walked.sequence held fun _ => walked.value _

/-- A bounded loop. -/
theorem repeatAlong_holds {continues : State → Bool} {turn : α → Rule α}
    (turns : ∀ value, holds (turn value)) :
    ∀ (tokens : List Token) (value : α), holds (Rule.repeatAlong continues turn tokens value)
  | [], value => walked.value value
  | _ :: tokens, value => by
    refine walked.sequence walked.look fun state => ?_
    split
    · exact walked.sequence (turns value) fun next => repeatAlong_holds turns tokens next
    · exact walked.value value

/-- A loop. -/
theorem repeatWhile_holds {continues : State → Bool} {turn : α → Rule α}
    (turns : ∀ value, holds (turn value)) (value : α) :
    holds (Rule.repeatWhile continues turn value) :=
  walked.sequence walked.look fun _ => walked.repeatAlong_holds turns _ value

/-- The placeholder of a missing operand. -/
theorem missingOperand_holds : holds missingOperand :=
  walked.sequence walked.current_holds fun _ => walked.sequence (walked.plainRecord rfl) fun _ =>
    walked.value _

/-- A parameter. -/
theorem parameter_holds : holds parameter :=
  walked.sequence (walked.expect_holds _ _) fun _ => walked.value _

/-- Parameters between parentheses. -/
theorem parameters_holds : holds parameters := by
  refine walked.sequence (walked.accept_holds _) fun closing => ?_
  split
  · exact walked.value _
  · refine walked.sequence walked.parameter_holds fun first => ?_
    refine walked.sequence (walked.repeatWhile_holds (fun names => ?_) _) fun names => ?_
    · exact walked.sequence walked.advance fun _ => walked.sequence walked.parameter_holds fun _ =>
        walked.value _
    · exact walked.sequence (walked.expect_holds _ _) fun _ => walked.value _

/-- Skipping tokens up to the next statement. -/
theorem skipStatement_holds : holds Rule.skipStatement := by
  refine walked.sequence (walked.repeatWhile_holds (fun _ => ?_) _) fun _ => walked.value _
  exact walked.sequence walked.advance fun _ => walked.value _

/-- A property that every fault and every recorded diagnostic keep is kept by the remedy for the
faults of a statement. -/
theorem recover_of (fault : ∀ {α : Type} (fault : Diagnostic), holds (throw fault : Rule α))
    (record : ∀ diagnostic, holds (Rule.record diagnostic)) (diagnostic : Diagnostic) :
    holds (recover diagnostic) := by
  refine walked.sequence walked.look fun state => ?_
  split
  · exact fault diagnostic
  · exact walked.sequence (record diagnostic) fun _ => walked.skipStatement_holds

/-- A property that every fault, every recorded diagnostic and every remedy keep. -/
theorem closed (attempt : ∀ {α : Type} {first : Rule α} {remedy : Diagnostic → Rule α},
      holds first → (∀ fault, holds (remedy fault)) → holds (tryCatch first remedy : Rule α))
    (fault : ∀ {α : Type} (fault : Diagnostic), holds (throw fault : Rule α))
    (record : ∀ diagnostic, holds (Rule.record diagnostic)) : Closed holds where
  toWalked := walked
  remedy first := attempt (walked.map_holds first some) (walked.recover_of fault record)
  attempt := attempt
  fault := fault
  record := record

end Walked

namespace Closed

/-- What every step of a state keeps is kept from the start of a rule to its end. -/
theorem of_relation {related : State → State → Prop} (refl : ∀ state, related state state)
    (trans : ∀ {first second third}, related first second → related second third →
      related first third)
    (advance : ∀ state : State, related state state.advance)
    (record : ∀ (state : State) diagnostic, related state (state.record diagnostic))
    (note : ∀ (state : State) event, related state (state.note event)) :
    Closed fun rule => ∀ state, related state (rule.after state) := by
  have walked : Walked fun rule => ∀ state, related state (rule.after state) := {
    value := fun _ state => refl state
    sequence := fun {_ _ first next} head rest state => by
      have start := head state
      rw [Rule.after_bind]
      cases ran : first state with
      | ok found middle =>
        rw [Rule.after_ok ran] at start
        exact trans start (rest found middle)
      | error fault middle => rwa [Rule.after_error ran] at start
    look := refl
    advance := advance
    note := fun event state => note state event
    plainFault := fun _ state => refl state
    plainRecord := fun _ state => record state _ }
  refine walked.closed (fun {_ first remedy} head rest state => ?_) (fun _ state => refl state)
    fun diagnostic state => record state diagnostic
  have start := head state
  rw [Rule.after_tryCatch]
  cases ran : first state with
  | ok found middle => rwa [Rule.after_ok ran] at start
  | error fault middle =>
    rw [Rule.after_error ran] at start
    exact trans start (rest fault middle)

/-- The way to the next statement behind a fault. -/
theorem recover_holds (closed : Closed holds) (fault : Diagnostic) : holds (recover fault) :=
  closed.recover_of closed.fault closed.record fault

end Closed

/-- A property of rules holds of the constructs inside: of a block, and of an expression where
the grammar has one. There the parser has just stepped to the first token, or it has seen that
this token begins an operand. -/
structure Inner.Holds (holds : {α : Type} → Rule α → Prop) (inner : Inner) : Prop where
  /-- An expression behind a step. -/
  operand : ∀ above, holds (do _ ← Rule.advance; inner.derive (.expression above))
  /-- The expression that a statement begins with. -/
  leading : holds (do let first ← Rule.current; leading inner first.kind)
  /-- A block. -/
  block : holds inner.block

namespace Walked

variable {inner : Inner} (walked : Walked holds) (inside : inner.Holds holds)

include walked inside

/-- An expression behind a step, and what follows it. -/
theorem operandThen_holds {β : Type} (above : Precedence) {next : Expr → Rule β}
    (rest : ∀ value, holds (next value)) :
    holds (do _ ← Rule.advance; let value ← inner.derive (.expression above); next value) := by
  have grouped := walked.sequence (inside.operand above) rest
  rwa [bind_assoc] at grouped

/-- An operator before its operand. -/
theorem unary_holds : holds (unary inner) :=
  walked.sequence walked.current_holds fun _ =>
    walked.operandThen_holds inside _ fun _ => walked.value _

/-- An operator behind its left operand. -/
theorem binary_holds (left : Expr) : holds (binary inner left) :=
  walked.sequence walked.current_holds fun _ =>
    walked.operandThen_holds inside _ fun _ => walked.value _

/-- An expression in parentheses. -/
theorem grouped_holds : holds (grouped inner) :=
  walked.operandThen_holds inside _ fun _ => walked.sequence (walked.expect_holds _ _) fun _ =>
    walked.value _

/-- Arguments between parentheses. -/
theorem arguments_holds : holds (arguments inner) := by
  refine walked.sequence (walked.accept_holds _) fun closing => ?_
  split
  · exact walked.value _
  · refine walked.operandThen_holds inside _ fun first => ?_
    refine walked.sequence (walked.repeatWhile_holds (fun values => ?_) _) fun values => ?_
    · exact walked.sequence walked.advance fun _ => walked.operandThen_holds inside _ fun _ =>
        walked.value _
    · exact walked.sequence (walked.expect_holds _ _) fun _ => walked.value _

/-- A call. -/
theorem call_holds (callee : Expr) : holds (call inner callee) :=
  walked.sequence walked.current_holds fun _ =>
    walked.sequence (walked.arguments_holds inside) fun _ => walked.value _

/-- An operator or a call behind an expression. -/
theorem extend_holds (left : Expr) : holds (extend inner left) := by
  refine walked.sequence walked.current_holds fun token => ?_
  split
  · exact walked.call_holds inside left
  · exact walked.binary_holds inside left

/-- A function literal. -/
theorem function_holds : holds (function inner) :=
  walked.sequence walked.current_holds fun _ => walked.sequence (walked.expect_holds _ _) fun _ =>
    walked.sequence walked.parameters_holds fun _ =>
      walked.sequence (walked.expect_holds _ _) fun _ =>
        walked.sequence inside.block fun _ => walked.value _

/-- An operand, whatever token it begins with. -/
theorem operand_holds {kind : Kind} {rule : Rule Expr} (found : operand? inner kind = some rule) :
    holds rule := by
  unfold operand? at found
  split at found <;> cases found
  · exact walked.sequence walked.current_holds fun _ => walked.value _
  · refine walked.sequence walked.current_holds fun token => ?_
    split
    · exact walked.value _
    · exact walked.plainFault rfl
  · exact walked.sequence walked.current_holds fun _ => walked.value _
  · exact walked.sequence walked.current_holds fun _ => walked.value _
  · exact walked.unary_holds inside
  · exact walked.unary_holds inside
  · exact walked.grouped_holds inside
  · exact walked.function_holds inside

/-- A binding. -/
theorem binding_holds : holds (binding inner) :=
  walked.sequence walked.current_holds fun _ => walked.sequence (walked.expect_holds _ _) fun _ =>
    walked.sequence (walked.expect_holds _ _) fun _ => walked.operandThen_holds inside _ fun _ =>
      walked.sequence (walked.expect_holds _ _) fun _ => walked.value _

/-- The end of a function. -/
theorem result_holds : holds (result inner) := by
  refine walked.sequence walked.current_holds fun keyword => ?_
  refine walked.sequence (walked.accept_holds _) fun bare => ?_
  split
  · exact walked.value _
  · exact walked.operandThen_holds inside _ fun _ =>
      walked.sequence (walked.expect_holds _ _) fun _ => walked.value _

/-- An expression on its own. -/
theorem expressionStatement_holds : holds (expressionStatement inner) := by
  rw [expressionStatement_eq]
  exact walked.sequence walked.current_holds fun _ => walked.sequence inside.leading fun _ =>
    walked.sequence (walked.accept_holds _) fun _ => walked.value _

/-- A condition. -/
theorem condition_holds : holds (condition inner) := by
  refine walked.sequence walked.current_holds fun keyword => ?_
  refine walked.sequence (walked.expect_holds _ _) fun _ => ?_
  refine walked.operandThen_holds inside _ fun test => ?_
  refine walked.sequence (walked.expect_holds _ _) fun _ => ?_
  refine walked.sequence (walked.expect_holds _ _) fun _ => ?_
  refine walked.sequence inside.block fun consequence => ?_
  refine walked.sequence (walked.accept_holds _) fun other => ?_
  split
  · exact walked.sequence (walked.expect_holds _ _) fun _ => walked.sequence inside.block fun _ =>
      walked.value _
  · exact walked.value _

/-- An expression, for a property that going back keeps. -/
theorem expressionBody_holds (back : holds Rule.stepBack) (above : Precedence) :
    holds (expressionBody inner above) := by
  refine walked.sequence walked.current_holds fun first => ?_
  split
  · refine walked.sequence walked.missingOperand_holds fun missing => ?_
    refine walked.sequence walked.current_holds fun token => ?_
    split
    · exact walked.sequence back fun _ => walked.value _
    · exact walked.value _
  · rename_i found
    refine walked.sequence (walked.operand_holds inside found) fun left => ?_
    exact walked.repeatWhile_holds
      (fun _ => walked.sequence walked.advance fun _ => walked.extend_holds inside _) left

/-- A statement, whatever token it begins with. -/
theorem statementOfKind_holds (kind : Kind) : holds (statementOfKind inner kind) := by
  unfold statementOfKind
  split
  · exact walked.binding_holds inside
  · exact walked.result_holds inside
  · exact walked.condition_holds inside
  · exact walked.expressionStatement_holds inside

end Walked

namespace Recovering

variable {inner : Inner} (recovering : Recovering holds) (inside : inner.Holds holds)

include recovering inside

/-- A statement with the remedy for its faults. -/
theorem statement_holds : holds (statement inner) := by
  refine recovering.sequence recovering.current_holds fun first => ?_
  refine recovering.sequence (recovering.note _) fun _ => ?_
  exact recovering.remedy (recovering.statementOfKind_holds inside _)

/-- A statement behind others. -/
theorem nextStatement_holds (statements : Array Stmt) : holds (nextStatement inner statements) :=
  recovering.sequence (recovering.statement_holds inside) fun _ =>
    recovering.sequence recovering.advance fun _ => recovering.value _

/-- A statement behind others of a block. -/
theorem nextInBlock_holds (statements : Array Stmt) : holds (nextInBlock inner statements) := by
  refine recovering.sequence recovering.current_holds fun token => ?_
  split
  · exact recovering.plainFault rfl
  · exact recovering.nextStatement_holds inside statements

/-- The statements of a block. -/
theorem blockBody_holds : holds (blockBody inner) :=
  recovering.sequence recovering.advance fun _ =>
    recovering.sequence (recovering.repeatWhile_holds (recovering.nextInBlock_holds inside) _)
      fun _ => recovering.value _

end Recovering

/-- A property of all expressions and blocks holds of them inside of a construct. -/
theorem Walked.inner_holds {inner : Inner} (walked : Walked holds)
    (derives : ∀ {α : Type} (target : Nonterminal α), holds (inner.derive target)) :
    inner.Holds holds where
  operand above := walked.sequence walked.advance fun _ => derives _
  leading := by
    refine walked.sequence walked.current_holds fun first => ?_
    unfold leading
    split
    · exact derives _
    · exact walked.missingOperand_holds
  block := derives _

/-- Expressions and blocks have a property, however many constructs may still be opened, if a
construct has it around rules with a property that recovering and going back keep. -/
theorem Recovering.derive_holds {around : {α : Type} → Rule α → Prop}
    (recovering : Recovering holds) (back : holds Rule.stepBack)
    (overflow : ∀ {α : Type} (target : Nonterminal α) position,
      holds (throw ⟨target.overflow, position⟩ : Rule α))
    (enter : ∀ {α : Type} {blocks : Int} {rule : Rule α}, holds rule →
      around (Rule.inside blocks rule))
    (relax : ∀ {α : Type} {rule : Rule α}, around rule → holds rule) :
    ∀ (room : Nat) {α : Type} (target : Nonterminal α),
      around ((Inner.ofRoom room).derive target)
  | 0, _, target => by
    rw [derive_zero]
    exact enter (recovering.sequence recovering.current_holds fun _ => overflow target _)
  | room + 1, _, .expression above => by
    have inside := recovering.inner_holds fun target =>
      relax (recovering.derive_holds back overflow enter relax room target)
    rw [derive_expression]
    exact enter (recovering.expressionBody_holds inside back above)
  | room + 1, _, .block => by
    have inside := recovering.inner_holds fun target =>
      relax (recovering.derive_holds back overflow enter relax room target)
    rw [derive_block]
    exact enter (recovering.blockBody_holds inside)

end ExprLang.Parser
