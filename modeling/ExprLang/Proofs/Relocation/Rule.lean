import ExprLang.Proofs.Relocation.Basic

/-!
# Rules over moved tokens

A rule that looks at the kinds and the texts of tokens only does the same in a state and in one
that mirrors it, with all values, faults and diagnostics moved (`Rule.Natural`). This module owns
the laws of such rules, one for each way to put rules together. A relocation may also give up on two
runs as soon as their diagnostics say enough (`Relocation.lost`).
-/

namespace ExprLang.Parser

open Movable (moved)

/-- A function on positions, and the diagnostics behind which two runs need not agree any more. -/
structure Relocation where
  /-- Where a position is moved to. -/
  move : Position → Position
  /-- The diagnostics of two runs that need not agree any more. -/
  lost : List Diagnostic → List Diagnostic → Prop
  /-- More diagnostics do not bring two runs together again. -/
  stays : ∀ {left right left' right' : List Diagnostic}, lost left right → left <+: left' →
    right <+: right' → lost left' right'

/-- What follows in a sequence keeps the frame. -/
theorem Rule.after_bind_framed {α β : Type} (first : Rule α) {next : α → Rule β}
    (rest : ∀ found, (next found).Framed) (state : State) :
    State.Framed (Rule.left (first state)) (Rule.left ((first >>= next) state)) := by
  rw [left_run, left_run, after_bind]
  cases ran : first state with
  | ok found last =>
    rw [after_ok ran]
    exact rest found last
  | error fault last =>
    rw [after_error ran]
    exact .refl last

/-- The remedy for a fault keeps the frame. -/
theorem Rule.after_tryCatch_framed {α : Type} (first : Rule α) {remedy : Diagnostic → Rule α}
    (rest : ∀ fault, (remedy fault).Framed) (state : State) :
    State.Framed (Rule.left (first state))
      (Rule.left ((tryCatch first remedy : Rule α) state)) := by
  rw [left_run, left_run, after_tryCatch]
  cases ran : first state with
  | ok found last =>
    rw [after_ok ran]
    exact .refl last
  | error fault last =>
    rw [after_error ran]
    exact rest fault last

variable (relocation : Relocation) {α β ι κ : Type} [Movable α] [Movable β] [Movable ι] [Movable κ]

/-- Two results agree: both are a value or both a fault, moved, with states that mirror each
other, or the runs are lost. -/
inductive Relocation.Agree :
    EStateM.Result Diagnostic State α → EStateM.Result Diagnostic State α → Prop where
  /-- Both runs end with a value. -/
  | value (found : α) {last other : State} (mirrors : State.Mirrors relocation.move last other) :
      Agree (.ok found last) (.ok (moved relocation.move found) other)
  /-- Both runs end with a fault. -/
  | fault (fault : Diagnostic) {last other : State}
      (mirrors : State.Mirrors relocation.move last other) :
      Agree (.error fault last) (.error (moved relocation.move fault) other)
  /-- The runs are lost. -/
  | lost {left right : EStateM.Result Diagnostic State α}
      (lost : relocation.lost (Rule.left left).diagnostics.toList
        (Rule.left right).diagnostics.toList) : Agree left right

/-- A family of rules does the same for moved parameters in a state that mirrors another. -/
structure Rule.Natural (rule : ι → Rule α) : Prop where
  /-- The rules keep the frame. -/
  framed : ∀ index, (rule index).Framed
  /-- The results agree. -/
  agree : ∀ index state image, State.Mirrors relocation.move state image →
    relocation.Agree (rule index state) (rule (moved relocation.move index) image)

namespace Rule

variable {relocation}

/-! ## Sequences and steps -/

namespace Natural

/-- A value without a step. -/
theorem value {found : ι → α}
    (same : ∀ index, found (moved relocation.move index) = moved relocation.move (found index)) :
    Natural relocation fun index => (pure (found index) : Rule α) where
  framed _ := framed_closed.value _
  agree index state image mirrors := by
    rw [same]
    exact .value _ mirrors

/-- A fault. -/
theorem fault {fault : ι → Diagnostic}
    (same : ∀ index, fault (moved relocation.move index) = moved relocation.move (fault index)) :
    Natural relocation fun index => (throw (fault index) : Rule α) where
  framed _ := framed_closed.fault _
  agree index state image mirrors := by
    rw [same]
    exact .fault _ mirrors

/-- A sequence. -/
theorem sequence {first : ι → Rule α} {next : ι → α → Rule β} (head : Natural relocation first)
    (rest : Natural relocation fun pair : ι × α => next pair.1 pair.2) :
    Natural relocation fun index => first index >>= next index where
  framed index := framed_closed.sequence (head.framed index) fun found => rest.framed (index, found)
  agree index state image mirrors := by
    -- A lost first part stays lost, for the rest only adds diagnostics.
    have further := after_bind_framed (first index)
      (fun found => rest.framed (index, found)) state
    have image_further := after_bind_framed (first (moved relocation.move index))
      (fun found => rest.framed (moved relocation.move index, found)) image
    have agreed := head.agree index state image mirrors
    generalize ran : first index state = result at agreed further
    generalize image_ran : first (moved relocation.move index) image = image_result
      at agreed image_further
    cases agreed with
    | value found mirrors =>
      rw [bind_ok ran, bind_ok image_ran]
      exact rest.agree (index, _) _ _ mirrors
    | fault fault mirrors =>
      rw [bind_error ran, bind_error image_ran]
      exact .fault _ mirrors
    | lost lost => exact .lost (relocation.stays lost further.diagnostics image_further.diagnostics)

/-- An attempt with a remedy. -/
theorem attempt {first : ι → Rule α} {remedy : ι → Diagnostic → Rule α}
    (head : Natural relocation first)
    (rest : Natural relocation fun pair : ι × Diagnostic => remedy pair.1 pair.2) :
    Natural relocation fun index => (tryCatch (first index) (remedy index) : Rule α) where
  framed index := framed_closed.attempt (head.framed index) fun fault => rest.framed (index, fault)
  agree index state image mirrors := by
    have further := after_tryCatch_framed (first index)
      (fun fault => rest.framed (index, fault)) state
    have image_further := after_tryCatch_framed (first (moved relocation.move index))
      (fun fault => rest.framed (moved relocation.move index, fault)) image
    have agreed := head.agree index state image mirrors
    generalize ran : first index state = result at agreed further
    generalize image_ran : first (moved relocation.move index) image = image_result
      at agreed image_further
    cases agreed with
    | value found mirrors =>
      rw [tryCatch_ok ran, tryCatch_ok image_ran]
      exact .value _ mirrors
    | fault fault mirrors =>
      rw [tryCatch_error ran, tryCatch_error image_ran]
      exact rest.agree (index, _) _ _ mirrors
    | lost lost => exact .lost (relocation.stays lost further.diagnostics image_further.diagnostics)

/-- A family over other parameters. -/
theorem reindex {rule : ι → Rule α} (natural : Natural relocation rule) (select : κ → ι)
    (same : ∀ index, select (moved relocation.move index) =
      moved relocation.move (select index)) :
    Natural relocation fun index => rule (select index) where
  framed index := natural.framed (select index)
  agree index state image mirrors := by
    rw [same]
    exact natural.agree (select index) state image mirrors

/-- A rule without parameters. -/
theorem constant {rule : Rule α} (natural : Natural relocation fun _ : Unit => rule) :
    Natural relocation fun _ : κ => rule :=
  natural.reindex (fun _ => ()) fun _ => rfl

/-- A family whose parameters have no position. -/
theorem fixed {rule : ι → Rule α}
    (same : ∀ index : ι, moved relocation.move index = index)
    (natural : ∀ index, Natural relocation fun _ : Unit => rule index) :
    Natural relocation rule where
  framed index := (natural index).framed ()
  agree index state image mirrors := by
    rw [same]
    exact (natural index).agree () state image mirrors

/-- A branch on a test that moving does not change. -/
theorem branch {test : ι → Prop} [∀ index, Decidable (test index)] {yes no : ι → Rule α}
    (same : ∀ index, test (moved relocation.move index) ↔ test index)
    (left : Natural relocation yes) (right : Natural relocation no) :
    Natural relocation fun index => if test index then yes index else no index where
  framed index := by
    split
    · exact left.framed index
    · exact right.framed index
  agree index state image mirrors := by
    by_cases holds : test index
    · rw [if_pos holds, if_pos ((same index).mpr holds)]
      exact left.agree index state image mirrors
    · rw [if_neg holds, if_neg fun moved => holds ((same index).mp moved)]
      exact right.agree index state image mirrors

/-- The current token. -/
theorem current : Natural relocation fun _ : ι => Rule.current where
  framed _ := framed_closed.current_holds
  agree _ state image mirrors := by
    rw [current_run, current_run, mirrors.current]
    exact .value _ mirrors

/-- The step to the next token. -/
theorem advance : Natural relocation fun _ : ι => Rule.advance where
  framed _ := framed_closed.advance
  agree _ state image mirrors := by
    have further := mirrors.advance
    rw [advance_run, advance_run, further.current]
    exact .value _ further

/-- A recorded diagnostic. -/
theorem record : Natural relocation Rule.record where
  framed := framed_closed.record
  agree diagnostic _ _ mirrors := .value () (mirrors.record diagnostic)

/-- A noted event, for events take no part in parsing. -/
theorem note (event : ι → Event) : Natural relocation fun index => Rule.note (event index) where
  framed index := framed_closed.note (event index)
  agree _ _ _ mirrors := .value () (mirrors.note _ _)

/-- A step to a token of a kind. -/
theorem expect (kind : Kind) (wanted : String) :
    Natural relocation fun _ : ι => Rule.expect kind wanted where
  framed _ := framed_closed.expect_holds kind wanted
  agree _ state image mirrors := by
    have same := mirrors.peek_kind
    by_cases found : state.peek.kind = kind
    · rw [expect_ok wanted found, expect_ok wanted (same.trans found), mirrors.peek]
      exact .value _ mirrors.advance
    · have image_found : image.peek.kind ≠ kind := fun here => found (same.symm.trans here)
      rw [expect_failed wanted found, expect_failed wanted image_found, mirrors.peek]
      exact .fault _ mirrors

/-- A step to a token of a kind if it comes next. -/
theorem accept (kind : Kind) : Natural relocation fun _ : ι => Rule.accept kind where
  framed _ := framed_closed.accept_holds kind
  agree _ state image mirrors := by
    have same := mirrors.peek_kind
    by_cases found : state.peek.kind = kind
    · rw [accept_taken found, accept_taken (same.trans found)]
      exact .value true mirrors.advance
    · have image_found : image.peek.kind ≠ kind := fun here => found (same.symm.trans here)
      rw [accept_left found, accept_left image_found]
      exact .value false mirrors

end Natural

/-! ## Loops and constructs -/

section

variable {continues : State → Bool} {turn : α → Rule α}

/-- A loop does the same over moved tokens. -/
theorem Loops.agree (turns : Natural relocation turn)
    (same : ∀ state image, State.Mirrors relocation.move state image →
      continues image = continues state) {value : α} {state : State}
    {result : EStateM.Result Diagnostic State α} (loops : Loops continues turn value state result) :
    ∀ image image_result, State.Mirrors relocation.move state image →
      Loops continues turn (moved relocation.move value) image image_result →
      relocation.Agree result image_result := by
  induction loops with
  | done stopped =>
    intro image image_result mirrors image_loops
    have image_stopped := (same _ _ mirrors).trans stopped
    cases image_loops with
    | done => exact .value _ mirrors
    | failed going => rw [image_stopped] at going; cases going
    | again going => rw [image_stopped] at going; cases going
  | @failed value state _ _ going ran =>
    intro image image_result mirrors image_loops
    have image_going := (same _ _ mirrors).trans going
    have agreed := turns.agree value state image mirrors
    rw [ran] at agreed
    cases image_loops with
    | done stopped => rw [image_going] at stopped; cases stopped
    | failed _ image_ran =>
      rw [image_ran] at agreed
      cases agreed with
      | fault fault mirrors => exact .fault _ mirrors
      | lost lost => exact .lost lost
    | again _ image_ran image_rest =>
      rw [image_ran] at agreed
      cases agreed with
      | lost lost =>
        exact .lost (relocation.stays lost List.prefix_rfl
          (image_rest.keeps turns.framed).diagnostics)
  | @again value _ state _ _ going ran rest ih =>
    intro image image_result mirrors image_loops
    have image_going := (same _ _ mirrors).trans going
    have agreed := turns.agree value state image mirrors
    rw [ran] at agreed
    have further := (rest.keeps turns.framed).diagnostics
    cases image_loops with
    | done stopped => rw [image_going] at stopped; cases stopped
    | failed _ image_ran =>
      rw [image_ran] at agreed
      cases agreed with
      | lost lost => exact .lost (relocation.stays lost further List.prefix_rfl)
    | again _ image_ran image_rest =>
      rw [image_ran] at agreed
      cases agreed with
      | value found mirrors => exact ih _ _ mirrors image_rest
      | lost lost =>
        exact .lost (relocation.stays lost further (image_rest.keeps turns.framed).diagnostics)

/-- A loop that ends by itself does the same over moved tokens. -/
theorem Natural.loop (turns : Natural relocation turn)
    (same : ∀ state image, State.Mirrors relocation.move state image →
      continues image = continues state)
    (ends : ∀ value state, state.stream.ending.kind = .endOfInput →
      LoopEnds continues turn value state) :
    Natural relocation fun value => Rule.repeatWhile continues turn value where
  framed := framed_closed.repeatWhile_holds turns.framed
  agree value state image mirrors :=
    Loops.agree turns same (ends value state mirrors.ended) image _ mirrors
      (ends _ image mirrors.image_ended)

end

/-- Results inside a construct agree outside of it. -/
theorem inside_agree {blocks : Int} {rule other : Rule α} {state image : State}
    (mirrors : State.Mirrors relocation.move state image)
    (agree : ∀ entered image_entered,
      entered = { state with depth := state.depth + blocks, nesting := state.nesting + 1 } →
      image_entered = { image with depth := image.depth + blocks, nesting := image.nesting + 1 } →
      State.Mirrors relocation.move entered image_entered →
      relocation.Agree (rule entered) (other image_entered)) :
    relocation.Agree (Rule.inside blocks rule state) (Rule.inside blocks other image) := by
  have entered := mirrors.counters (state.depth + blocks) (state.nesting + 1)
  rw [← mirrors.depth, ← mirrors.nesting] at entered
  have agreed := agree _ _ (by rw [← mirrors.depth, ← mirrors.nesting]) rfl entered
  unfold Rule.inside
  rw [mirrors.depth, mirrors.nesting] at agreed ⊢
  generalize rule { state with depth := state.depth + blocks, nesting := state.nesting + 1 } =
    result at agreed
  generalize other { image with depth := state.depth + blocks, nesting := state.nesting + 1 } =
    image_result at agreed
  cases agreed with
  | @value found last other mirrors =>
    have left := mirrors.counters (last.depth - blocks) (last.nesting - 1)
    dsimp only
    rw [mirrors.depth, mirrors.nesting]
    exact .value _ left
  | @fault found last other mirrors =>
    have left := mirrors.counters (last.depth - blocks) (last.nesting - 1)
    dsimp only
    rw [mirrors.depth, mirrors.nesting]
    exact .fault _ left
  | lost lost =>
    refine .lost ?_
    cases result <;> cases image_result <;> exact lost

/-- A construct around a rule. -/
theorem Natural.inside {rule : ι → Rule α} (natural : Natural relocation rule) (blocks : Int) :
    Natural relocation fun index => Rule.inside blocks (rule index) where
  framed index := (natural.framed index).inside
  agree index _ _ mirrors := inside_agree mirrors fun _ _ _ _ entered =>
    natural.agree index _ _ entered

end Rule

end ExprLang.Parser
