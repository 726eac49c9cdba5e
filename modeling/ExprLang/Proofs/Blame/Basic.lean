import Mathlib.Data.List.Forall2
import ExprLang.Proofs.Progress
import ExprLang.Proofs.Reading.View

/-!
# Blame

A diagnostic blames a token: it stands where the token is, and its cause names the lexeme of the
token (`Diagnostic.Blames`). A parser blames tokens in their order, although it may go back by one:
what it has blamed lies at most one token ahead of it (`State.Blamed`), and where it has just
stepped forward, none ahead. A rule keeps that bound (`Rule.Blames`), and so does the fault it may
end in, counted as the last diagnostic. This module owns the bound and the laws of rules that keep
it.
-/

namespace ExprLang

/-! ## Blame on tokens -/

/-- What the grammar asks for by name. -/
def Cause.names : List String :=
  ["identifier", "`=` operator", "`;`", "`(`", "`)`", "`\x7b`", "`\x7d`"]

/-- A cause blames a lexeme. -/
inductive Cause.Blames (lexeme : Lexeme) : Cause → Prop where
  /-- It begins no operand. -/
  | missingOperand : Blames lexeme (.missingOperand lexeme)
  /-- It is not what the grammar asks for. -/
  | expected {wanted : String} (known : wanted ∈ names) : Blames lexeme (.expected wanted lexeme)
  /-- It is too long for an integer. -/
  | unreadableInteger : Blames lexeme (.unreadableInteger lexeme.text)
  /-- It begins an expression that lies too deep. -/
  | deepExpression : Blames lexeme .deepExpression
  /-- It begins a block that lies too deep. -/
  | deepBlock : Blames lexeme .deepBlock

/-- A diagnostic blames a token. -/
structure Diagnostic.Blames (diagnostic : Diagnostic) (token : Token) : Prop where
  /-- The cause blames its lexeme. -/
  cause : Cause.Blames token.toLexeme diagnostic.cause
  /-- The diagnostic stands where the token is. -/
  place : diagnostic.position = token.position

/-- Diagnostics blame tokens of a sequence in its order, and none behind a bound. -/
def Blamed (token : Nat → Token) (bound : Nat) (diagnostics : List Diagnostic) : Prop :=
  ∃ places : List Nat,
    List.Forall₂ (fun diagnostic place => diagnostic.Blames (token place)) diagnostics places ∧
      (places ++ [bound]).Pairwise (· ≤ ·)

namespace Blamed

variable {token : Nat → Token} {bound further : Nat} {diagnostics : List Diagnostic}

/-- Nothing is blamed yet. -/
theorem nil (token : Nat → Token) (bound : Nat) : Blamed token bound [] :=
  ⟨[], .nil, List.pairwise_singleton _ _⟩

/-- A bound may lie further behind. -/
theorem mono (blamed : Blamed token bound diagnostics) (le : bound ≤ further) :
    Blamed token further diagnostics := by
  obtain ⟨places, fits, rising⟩ := blamed
  obtain ⟨inside, -, below⟩ := List.pairwise_append.mp rising
  refine ⟨places, fits, List.pairwise_append.mpr ⟨inside, List.pairwise_singleton _ _, ?_⟩⟩
  intro place found last same
  obtain rfl := List.mem_singleton.mp same
  exact Nat.le_trans (below place found bound (List.mem_singleton.mpr rfl)) le

/-- The token at the bound is blamed last. -/
theorem push (blamed : Blamed token bound diagnostics) {diagnostic : Diagnostic}
    (blames : diagnostic.Blames (token bound)) :
    Blamed token bound (diagnostics ++ [diagnostic]) := by
  obtain ⟨places, fits, rising⟩ := blamed
  refine ⟨places ++ [bound], List.rel_append fits (.cons blames .nil), ?_⟩
  refine List.pairwise_append.mpr ⟨rising, List.pairwise_singleton _ _, ?_⟩
  intro place found last same
  obtain rfl := List.mem_singleton.mp same
  obtain ⟨-, -, below⟩ := List.pairwise_append.mp rising
  rcases List.mem_append.mp found with found | found
  · exact below place found _ (List.mem_singleton.mpr rfl)
  · exact Nat.le_of_eq (List.mem_singleton.mp found)

end Blamed

namespace Parser

/-! ## Blame on the way -/

/-- Diagnostics blame tokens from a start on, in order, and none lies further behind the current
token of a state than so many tokens. -/
def State.Blamed (start : State) (slack : Nat) (diagnostics : List Diagnostic) (state : State) :
    Prop :=
  ∃ passed, Passes passed start state ∧ ExprLang.Blamed start.token (passed + slack) diagnostics

namespace State.Blamed

variable {start state : State} {slack more : Nat} {diagnostics : List Diagnostic}

/-- What is blamed may lie further behind. -/
theorem mono (blamed : Blamed start slack diagnostics state) (le : slack ≤ more) :
    Blamed start more diagnostics state := by
  obtain ⟨passed, passes, blamed⟩ := blamed
  exact ⟨passed, passes, blamed.mono (by omega)⟩

/-- Blame depends on the window only. -/
theorem congr {other : State} (blamed : Blamed start slack diagnostics state)
    (window : ∀ index, other.token index = state.token index) :
    Blamed start slack diagnostics other := by
  obtain ⟨passed, passes, blamed⟩ := blamed
  exact ⟨passed, fun index => (window index).trans (passes index), blamed⟩

/-- Behind a step, what was at most one token ahead is not ahead any more. -/
theorem step (blamed : Blamed start 1 diagnostics state) :
    Blamed start 0 diagnostics state.advance := by
  obtain ⟨passed, passes, blamed⟩ := blamed
  exact ⟨passed + 1, passes.trans (.advance state), blamed⟩

/-- The token so many tokens ahead is blamed last. -/
theorem push (blamed : Blamed start slack diagnostics state) {diagnostic : Diagnostic}
    (blames : diagnostic.Blames (state.token slack)) :
    Blamed start slack (diagnostics ++ [diagnostic]) state := by
  obtain ⟨passed, passes, blamed⟩ := blamed
  rw [passes, Nat.add_comm] at blames
  exact ⟨passed, passes, blamed.push blames⟩

/-- A diagnostic for the token so many tokens ahead is recorded. -/
theorem record (blamed : Blamed start slack state.diagnostics.toList state)
    {diagnostic : Diagnostic} (blames : diagnostic.Blames (state.token slack)) :
    Blamed start slack (state.record diagnostic).diagnostics.toList (state.record diagnostic) := by
  have pushed := (blamed.push blames).congr fun index => state.token_record diagnostic index
  rwa [← Array.toList_push] at pushed

end State.Blamed

namespace Rule

variable {α β : Type} {start : State} {before middle after : Nat}

/-- What a result leaves blames tokens in order: of a fault, which counts as the last diagnostic,
the token behind the current one at the most. -/
def EndsBlamed (start : State) (after : Nat) : EStateM.Result Diagnostic State α → Prop
  | .ok _ last => State.Blamed start after last.diagnostics.toList last
  | .error fault last => State.Blamed start 1 (last.diagnostics.toList ++ [fault]) last

/-- From where what is blamed lies at most so many tokens ahead, a rule blames tokens in order, up
to where it lies at most so many ahead again. -/
def Blames (start : State) (before after : Nat) (rule : Rule α) : Prop :=
  ∀ state, State.Blamed start before state.diagnostics.toList state →
    EndsBlamed start after (rule state)

/-- A value blames nothing. -/
theorem Blames.value (found : α) (le : before ≤ after) :
    (pure found : Rule α).Blames start before after :=
  fun _ blamed => blamed.mono le

/-- A sequence blames what its rules blame. -/
theorem Blames.sequence {first : Rule α} {next : α → Rule β}
    (head : first.Blames start before middle)
    (rest : ∀ found, (next found).Blames start middle after) :
    (first >>= next).Blames start before after := by
  intro state blamed
  have ended := head state blamed
  cases ran : first state with
  | ok found last =>
    rw [ran] at ended
    rw [bind_ok ran]
    exact rest found last ended
  | error fault last =>
    rw [ran] at ended
    rw [bind_error ran]
    exact ended

/-- A rule may start where less is ahead. -/
theorem Blames.from {rule : Rule α} (blames : rule.Blames start middle after)
    (le : before ≤ middle) : rule.Blames start before after :=
  fun state blamed => blames state (blamed.mono le)

/-- The current token blames nothing. -/
theorem current_blames : Rule.current.Blames start before before := fun _ blamed => blamed

/-- A step leaves nothing ahead. -/
theorem advance_blames : Rule.advance.Blames start 1 0 := by
  intro state blamed
  rw [advance_run]
  have stepped := blamed.step
  rw [← state.advance_diagnostics] at stepped
  exact stepped

/-- Where the token asked for does not come next, the one that does is blamed. -/
theorem expect_blames (kind : Kind) {wanted : String} (known : wanted ∈ Cause.names) :
    (Rule.expect kind wanted).Blames start 1 0 := by
  intro state blamed
  by_cases found : state.peek.kind = kind
  · rw [expect_ok wanted found]
    exact advance_blames state blamed
  · rw [expect_failed wanted found]
    exact blamed.push ⟨.expected known, rfl⟩

/-- An optional token blames nothing. -/
theorem accept_blames (kind : Kind) : (Rule.accept kind).Blames start 1 1 := by
  intro state blamed
  by_cases found : state.peek.kind = kind
  · rw [accept_taken found]
    have stepped : State.Blamed start 0 state.advance.diagnostics.toList state.advance :=
      advance_blames state blamed
    exact stepped.mono (Nat.zero_le 1)
  · rw [accept_left found]
    exact blamed

/-- A loop blames what its turns blame. -/
theorem repeatWhile_blames {continues : State → Bool} {turn : α → Rule α}
    (turns : ∀ value, (turn value).Blames start before before) (value : α) :
    (Rule.repeatWhile continues turn value).Blames start before before := by
  have along : ∀ (tokens : List Token) (value : α),
      (Rule.repeatAlong continues turn tokens value).Blames start before before := by
    intro tokens
    induction tokens with
    | nil => exact fun value => .value value (Nat.le_refl _)
    | cons token tokens ih =>
      intro value state blamed
      unfold Rule.repeatAlong
      rw [bind_ok (show (get : Rule State) state = .ok state state from rfl)]
      split
      · exact ((turns value).sequence ih) state blamed
      · exact blamed
  exact fun state blamed => along _ value state blamed

/-- A construct blames what the rule inside blames. -/
theorem EndsBlamed.inside {blocks : Int} {rule : Rule α} {state : State}
    (ended : EndsBlamed start after
      (rule { state with depth := state.depth + blocks, nesting := state.nesting + 1 })) :
    EndsBlamed start after (Rule.inside blocks rule state) := by
  unfold Rule.inside
  dsimp only
  split
  · rename_i found last ran
    rw [ran] at ended
    exact State.Blamed.congr ended fun index => last.token_counters _ _ index
  · rename_i fault last ran
    rw [ran] at ended
    exact State.Blamed.congr ended fun index => last.token_counters _ _ index

end Rule

end Parser

end ExprLang
