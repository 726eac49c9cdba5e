import ExprLang.Proofs.Nesting.Raised

/-!
# Where too deep nesting is reported

A fault of nesting passes all statements inside of a construct: none of them records it. The
statement outside of all constructs does, and skips what is left. So a rule that runs inside of a
construct records no such diagnostic, whatever it calls (`Rule.Reserved`), and a statement outside
of all constructs records at most one: the last of its diagnostics, and it is not read then. It does
record one where an expression or a block lies too deep in it (`overflow_reported_once`).
-/

namespace ExprLang.Parser

/-! ## Rules that leave the report to others -/

/-- From one state to another no diagnostic was recorded that says that something is nested too
deeply. -/
def State.Spared (before after : State) : Prop :=
  ∃ told, Tells told before after ∧ ∀ diagnostic ∈ told, ¬ diagnostic.TooDeep

namespace State.Spared

/-- No step records none. -/
theorem refl (state : State) : Spared state state :=
  ⟨[], .refl state, fun _ found => absurd found List.not_mem_nil⟩

/-- One step and the next record none. -/
theorem trans {first second third : State} (left : Spared first second)
    (right : Spared second third) : Spared first third := by
  obtain ⟨early, tells, early_plain⟩ := left
  obtain ⟨late, tells', late_plain⟩ := right
  exact ⟨early ++ late, tells.trans tells', List.forall_mem_append.mpr ⟨early_plain, late_plain⟩⟩

/-- A quiet step records none. -/
theorem of_quiet {before after : State} (quiet : Quiet before after) : Spared before after :=
  ⟨[], quiet, fun _ found => absurd found List.not_mem_nil⟩

/-- A diagnostic with a plain cause is none. -/
theorem record {diagnostic : Diagnostic} (plain : diagnostic.cause.isPlain = true) (state : State) :
    Spared state (state.record diagnostic) := by
  exact ⟨[diagnostic], state.record_tells diagnostic,
    List.forall_mem_singleton.mpr (Diagnostic.not_tooDeep_of_isPlain plain)⟩

/-- The nesting is the same. -/
theorem nesting {before after : State} (spared : Spared before after) :
    after.nesting = before.nesting := by
  obtain ⟨_, tells, -⟩ := spared
  exact tells.nesting

end State.Spared

/-- A diagnostic that can be the fault of a rule: it is about a limit of nesting, or plain. -/
abbrev EndsRule (fault : Diagnostic) : Prop :=
  fault.cause.isDepth = true ∨ fault.cause.isPlain = true

/-- Inside of so many constructs a rule records nothing about too deep nesting, and its faults are
about the nesting or plain. -/
def Rule.Reserved (least : Int) {α : Type} (rule : Rule α) : Prop :=
  ∀ state, least ≤ state.nesting → State.Spared state (rule.after state) ∧
    ∀ fault last, rule state = .error fault last → EndsRule fault

namespace Rule.Reserved

variable {α : Type} {least : Int} {rule : Rule α} {state last : State}

/-- What a rule records up to its value. -/
theorem of_ok (reserved : rule.Reserved least) (inside : least ≤ state.nesting) {value : α}
    (ran : rule state = .ok value last) : State.Spared state last := by
  have spared := (reserved state inside).1
  rwa [after_ok ran] at spared

/-- What a rule records up to its fault. -/
theorem of_error (reserved : rule.Reserved least) (inside : least ≤ state.nesting)
    {fault : Diagnostic} (ran : rule state = .error fault last) :
    State.Spared state last ∧ EndsRule fault := by
  obtain ⟨spared, faults⟩ := reserved state inside
  rw [after_error ran] at spared
  exact ⟨spared, faults fault last ran⟩

/-- A rule that always ends with a value. -/
theorem of_value {value : State → α} {step : State → State}
    (runs : ∀ state, rule state = .ok (value state) (step state))
    (spared : ∀ state, State.Spared state (step state)) : rule.Reserved least := by
  intro state _
  rw [after_ok (runs state)]
  refine ⟨spared state, fun fault last ran => ?_⟩
  cases (runs state).symm.trans ran

/-- A fault. -/
theorem of_fault {fault : Diagnostic} (known : EndsRule fault) :
    (throw fault : Rule α).Reserved least := by
  refine fun state _ => ⟨.refl state, fun found last ran => ?_⟩
  cases ran
  exact known

/-- A rule that leaves the report to others in more states. -/
theorem mono {more : Int} (reserved : rule.Reserved least) (fewer : least ≤ more) :
    rule.Reserved more := fun state inside => reserved state (Int.le_trans fewer inside)

/-- An attempt with a remedy for its faults. -/
theorem attempt {first : Rule α} {remedy : Diagnostic → Rule α} (reserved : first.Reserved least)
    (rest : ∀ fault, EndsRule fault → (remedy fault).Reserved least) :
    (tryCatch first remedy : Rule α).Reserved least := by
  intro state inside
  rw [after_tryCatch]
  cases ran : first state with
  | ok value last =>
    refine ⟨reserved.of_ok inside ran, fun fault final ended => ?_⟩
    cases (tryCatch_ok ran).symm.trans ended
  | error fault last =>
    obtain ⟨spared, known⟩ := reserved.of_error inside ran
    have inside' : least ≤ last.nesting := by rwa [spared.nesting]
    obtain ⟨further, faults⟩ := rest fault known last inside'
    rw [tryCatch_error ran]
    exact ⟨spared.trans further, faults⟩

/-- A construct around a rule raises the nesting for it. -/
theorem inside {blocks : Int} (reserved : rule.Reserved 1) :
    (Rule.inside blocks rule).Reserved 0 := by
  intro state outside
  have entered : 1 ≤ (state.enter blocks).nesting := by
    simp only [State.enter]
    omega
  obtain ⟨⟨told, tells, plain⟩, faults⟩ := reserved (state.enter blocks) entered
  refine ⟨?_, fun fault last ran => ?_⟩
  · rw [after_inside]
    refine ⟨told, ⟨?_, tells.ending, tells.diagnostics⟩, plain⟩
    have nesting := tells.nesting
    simp only [State.enter] at nesting ⊢
    omega
  · obtain ⟨final, faulted⟩ := inside_eq_error ran
    exact faults fault final faulted

end Rule.Reserved

/-- Sequences and the steps of a state leave the report to others. -/
theorem reserved_walked (least : Int) : Walked (Rule.Reserved least) where
  value found := .of_value (fun _ => rfl) .refl
  sequence := by
    intro α β first next head rest state inside
    rw [Rule.after_bind]
    cases ran : first state with
    | error fault middle =>
      obtain ⟨spared, known⟩ := head.of_error inside ran
      refine ⟨spared, fun found last ended => ?_⟩
      cases (Rule.bind_error ran).symm.trans ended
      exact known
    | ok found middle =>
      have spared := head.of_ok inside ran
      have inside' : least ≤ middle.nesting := by rwa [spared.nesting]
      obtain ⟨further, faults⟩ := rest found middle inside'
      refine ⟨spared.trans further, fun fault last ended => ?_⟩
      exact faults fault last ((Rule.bind_ok ran).symm.trans ended)
  look := .of_value (fun _ => rfl) .refl
  advance := .of_value (fun _ => rfl) fun state => .of_quiet state.advance_quiet
  note event := .of_value (fun _ => rfl) fun state => .of_quiet (state.note_quiet event)
  plainFault plain := .of_fault (.inr plain)
  plainRecord plain := .of_value (fun _ => rfl) (.record plain)

/-- Inside of a construct the way behind a fault leaves the report to others: a fault of nesting
goes on, and another one is plain. -/
theorem recover_reserved {fault : Diagnostic} (known : EndsRule fault) :
    (recover fault).Reserved 1 := by
  intro state inside
  by_cases deep : fault.cause.isDepth = true
  · have thrown : recover fault state = (throw fault : Rule (Option Stmt)) state := by
      rw [Rule.recover_run, if_pos ⟨deep, by omega⟩]
      rfl
    rw [Rule.after_congr thrown, thrown]
    exact Rule.Reserved.of_fault known state inside
  · have plain := known.resolve_left deep
    have skips : recover fault state = Rule.skipStatement (state.record fault) := by
      rw [Rule.recover_run, if_neg fun both => deep both.1]
    obtain ⟨skipped, faults⟩ :=
      (reserved_walked 1).skipStatement_holds (state.record fault) inside
    rw [skips, ← Rule.left_run, skips, Rule.left_run]
    exact ⟨(State.Spared.record plain state).trans skipped, faults⟩

/-- Inside of a construct a statement with the remedy for its faults leaves the report to others. -/
theorem reserved_recovering : Recovering (Rule.Reserved 1) where
  toWalked := reserved_walked 1
  remedy reserved :=
    ((reserved_walked 1).map_holds reserved some).attempt fun _ known => recover_reserved known

/-- Expressions and blocks leave the report to others, however deep they are. -/
theorem derive_reserved (room : Nat) {α : Type} (target : Nonterminal α) :
    ((Inner.ofRoom room).derive target).Reserved 0 := by
  have back : Rule.stepBack.Reserved 1 :=
    .of_value (fun _ => rfl) fun state => .of_quiet state.stepBack_quiet
  refine reserved_recovering.derive_holds back (fun target position => ?_) Rule.Reserved.inside
    (fun reserved => reserved.mono Int.one_nonneg) room target
  cases target with
  | expression above => exact .of_fault (.inl rfl)
  | block => exact .of_fault (.inl rfl)

/-- What lies inside of a statement leaves the report to others. -/
theorem ofRoom_reserved (room : Nat) {least : Int} (some_or_none : 0 ≤ least) :
    (Inner.ofRoom room).Holds (Rule.Reserved least) :=
  (reserved_walked least).inner_holds fun target => (derive_reserved room target).mono some_or_none

/-- A rule for a statement leaves the report to others. -/
theorem ofKind_reserved (room : Nat) (kind : Kind) :
    (statementOfKind (Inner.ofRoom room) kind).Reserved 0 :=
  (reserved_walked 0).statementOfKind_holds (ofRoom_reserved room (Int.le_refl 0)) kind

/-! ## The report of a statement outside of all constructs -/

/-- Skipping to the next statement is quiet. -/
theorem skipStatement_quiet {state last : State} {read : Option Stmt}
    (ran : Rule.skipStatement state = .ok read last) : State.Quiet state last := by
  obtain ⟨_, middle, skipped, ran⟩ := Rule.bind_eq_ok.mp ran
  obtain ⟨-, rfl⟩ := Rule.pure_eq_ok.mp ran
  refine Rule.repeatWhile_invariant (fun _ => State.Quiet state) (.refl state) ?_ skipped
  intro _ before _ behind quiet _ turned
  cases turned
  exact quiet.trans before.advance_quiet

/-- At most the last of some diagnostics says that something is nested too deeply, and if it does
there is no statement. -/
def ReportsOnce (told : List Diagnostic) (read : Option Stmt) : Prop :=
  (∀ diagnostic ∈ told, ¬ diagnostic.TooDeep) ∨
    ∃ others deep, told = others ++ [deep] ∧ deep.TooDeep ∧
      (∀ diagnostic ∈ others, ¬ diagnostic.TooDeep) ∧ read = none

/-- Outside of all constructs a fault of a statement is its last diagnostic, and none in front of it
is about too deep nesting. -/
theorem statement_failed {room : Nat} {state : State} {fault : Diagnostic}
    (outermost : state.Outermost)
    (fails : (statementOfKind (Inner.ofRoom room) state.current.kind).Fails fault
      (state.note (.statement state.current))) :
    EndsRule fault ∧ ∃ others last, statement (Inner.ofRoom room) state = .ok none last ∧
      State.Tells (others ++ [fault]) state last ∧ ∀ diagnostic ∈ others, ¬ diagnostic.TooDeep := by
  obtain ⟨middle, ran⟩ := fails
  have inside : 0 ≤ (state.note (.statement state.current)).nesting :=
    Int.le_of_eq outermost.nesting.symm
  obtain ⟨spared, known⟩ := (ofKind_reserved room _).of_error inside ran
  have noted := State.Spared.of_quiet (state.note_quiet (.statement state.current))
  obtain ⟨others, tells, plain⟩ := noted.trans spared
  have ended : middle.stream.ending.kind = .endOfInput := by
    rw [tells.ending]
    exact outermost.ended
  have outside : middle.nesting = 0 := tells.nesting.trans outermost.nesting
  obtain ⟨last, recovered⟩ := recover_ok fault ended (Int.le_of_eq outside)
  have skips := recovered
  rw [Rule.recover_run, if_neg fun both => by omega] at skips
  have whole := (tells.trans (middle.record_tells fault)).trans (skipStatement_quiet skips)
  rw [List.append_nil] at whole
  exact ⟨known, others, last, (Rule.statement_of_error ran).trans recovered, whole, plain⟩

/-- Outside of all constructs a statement reports too deep nesting once at most. -/
theorem statement_reports {room : Nat} {state : State} (outermost : state.Outermost) :
    ∃ read last told, statement (Inner.ofRoom room) state = .ok read last ∧
      State.Tells told state last ∧ ReportsOnce told read := by
  have inside : 0 ≤ (state.note (.statement state.current)).nesting :=
    Int.le_of_eq outermost.nesting.symm
  cases attempt : statementOfKind (Inner.ofRoom room) state.current.kind
      (state.note (.statement state.current)) with
  | ok value last =>
    have noted := State.Spared.of_quiet (state.note_quiet (.statement state.current))
    obtain ⟨told, tells, plain⟩ := noted.trans ((ofKind_reserved room _).of_ok inside attempt)
    exact ⟨some value, last, told, Rule.statement_of_ok attempt, tells, .inl plain⟩
  | error fault middle =>
    obtain ⟨known, others, last, ran, tells, plain⟩ := statement_failed outermost ⟨middle, attempt⟩
    refine ⟨none, last, others ++ [fault], ran, tells, ?_⟩
    rcases known with deep | harmless
    · exact .inr ⟨others, fault, rfl, Diagnostic.tooDeep_of_isDepth deep, plain, rfl⟩
    · have harmless := Diagnostic.not_tooDeep_of_isPlain harmless
      exact .inl (List.forall_mem_append.mpr ⟨plain, List.forall_mem_singleton.mpr harmless⟩)

/-- The statements of a program are those that were read before a call of the rule of statements,
the one that the call gives, if any, and those that are read behind it. -/
theorem ProgramCall.parts {start state last : State} (outside : start.Outermost)
    {before found : Array Stmt} (called : ProgramCall start before state) {final : State}
    (loops : Rule.Loops (currentIsNot .endOfInput) (nextStatement (Inner.ofRoom start.room)) #[]
      start (.ok found final))
    {read : Option Stmt} (ran : statement (Inner.ofRoom start.room) state = .ok read last) :
    ∃ later, Rule.Loops (currentIsNot .endOfInput) (nextStatement (Inner.ofRoom start.room)) #[]
        last.advance (.ok later final) ∧
      found.toList = before.toList ++ read.toList ++ later.toList := by
  have ran_next : nextStatement (Inner.ofRoom start.room) before state =
      .ok (before ++ read.toArray) last.advance := by
    unfold nextStatement
    rw [Rule.bind_ok ran, Rule.advance_bind]
    rfl
  have next : Turns (currentIsNot .endOfInput) (nextStatement (Inner.ofRoom start.room)) #[] start
      (before ++ read.toArray) last.advance := called.turns.turned called.going ran_next
  have further := next.behind loops
  obtain ⟨later, ends, -, alone, -⟩ := program_loops (ofRoom_framed start.room)
    (ofRoom_forward start.room) (next.outermost outside)
  obtain ⟨rfl, rfl⟩ := EStateM.Result.ok.inj
    (further.unique (program_behind (before ++ read.toArray) alone))
  exact ⟨later, alone, by simp⟩

/-- Too deep nesting is reported once, by the outermost statement. Each statement of a program
records at most one diagnostic of it, as its last one. It gives no statement then, and the program
consists of what is read before it and behind it. No statement of a block records such a
diagnostic, however deep the block lies inside of other constructs. And wherever an expression or a
block is called for with no room left, a statement of the program records this. -/
theorem overflow_reported_once {source : String} (nonempty : source ≠ "") :
    ∃ start parsed, State.ofSource source = .ok start ∧ parse source = .ok parsed ∧
      (∀ before state, ProgramCall start before state →
        ∃ read last told later final, statement (Inner.ofRoom start.room) state = .ok read last ∧
          State.Tells told state last ∧ ReportsOnce told read ∧
          Rule.Loops (currentIsNot .endOfInput) (nextStatement (Inner.ofRoom start.room)) #[]
            last.advance (.ok later final) ∧
          parsed.program.statements = before.toList ++ read.toList ++ later.toList) ∧
      (∀ room state, BlockCall start room state →
        State.Spared state ((statement (Inner.ofRoom room)).after state)) ∧
      ∀ {α : Type} (target : Nonterminal α) state, Called start 0 target.routine state →
        ∃ before outer last others, ProgramCall start before outer ∧
          statement (Inner.ofRoom start.room) outer = .ok none last ∧
          State.Tells (others ++ [⟨target.overflow, state.current.position⟩]) outer last := by
  have outside := State.ofText_outermost source
  have ran := parse_eq nonempty
  obtain ⟨found, final, loops, parsed⟩ := parse_loops nonempty ran
  rw [← outside.room] at loops
  refine ⟨_, _, State.ofSource_eq nonempty, ran, fun before state called => ?_,
    fun room state called => ?_, fun target state called => ?_⟩
  · obtain ⟨read, last, told, statement_ran, tells, once⟩ :=
      statement_reports (called.turns.outermost outside)
    obtain ⟨later, behind, parts⟩ := called.parts outside loops statement_ran
    refine ⟨read, last, told, later, final, statement_ran, tells, once, behind, ?_⟩
    rw [parsed]
    exact parts
  · have reserved := reserved_recovering.statement_holds (ofRoom_reserved room Int.one_nonneg)
    exact (reserved state (called.inside outside.counted)).1
  · have deep : target.overflow.isDepth = true := by cases target <;> rfl
    obtain ⟨before, outer, call, fails⟩ :=
      called.comes_up outside deep (target.routine_fails state)
    obtain ⟨-, others, last, reported, tells, -⟩ :=
      statement_failed (call.turns.outermost outside) fails
    exact ⟨before, outer, last, others, call, reported, tells⟩

/-- A function whose body has one sign more than there is room for, behind another fault. -/
theorem overflow_reported_once_function :
    "fn() \x7b let 1; " ++ String.ofList (List.replicate 98 '-') ++ "a; \x7d b;" ≠ "" ∧
    ∃ start parsed,
      State.ofSource ("fn() \x7b let 1; " ++ String.ofList (List.replicate 98 '-') ++
        "a; \x7d b;") = .ok start ∧
      parse ("fn() \x7b let 1; " ++ String.ofList (List.replicate 98 '-') ++
        "a; \x7d b;") = .ok parsed ∧
      (∀ before state, ProgramCall start before state →
        ∃ read last told later final, statement (Inner.ofRoom start.room) state = .ok read last ∧
          State.Tells told state last ∧ ReportsOnce told read ∧
          Rule.Loops (currentIsNot .endOfInput) (nextStatement (Inner.ofRoom start.room)) #[]
            last.advance (.ok later final) ∧
          parsed.program.statements = before.toList ++ read.toList ++ later.toList) ∧
      (∀ room state, BlockCall start room state →
        State.Spared state ((statement (Inner.ofRoom room)).after state)) ∧
      ∀ {α : Type} (target : Nonterminal α) state, Called start 0 target.routine state →
        ∃ before outer last others, ProgramCall start before outer ∧
          statement (Inner.ofRoom start.room) outer = .ok none last ∧
          State.Tells (others ++ [⟨target.overflow, state.current.position⟩]) outer last :=
  ⟨by decide, overflow_reported_once (by decide)⟩

/-- The fault in front stays the only one that the body records. -/
example :
    (State.ofText ("fn() \x7b let 1; " ++ String.ofList (List.replicate 98 '-') ++
      "a; \x7d b;")).finish.diagnostics.map (·.message) =
      ["expected identifier, found `1`", "expression nested too deeply",
        "no prefix parse function for `\x7d`"] := by
  decide +kernel

end ExprLang.Parser
