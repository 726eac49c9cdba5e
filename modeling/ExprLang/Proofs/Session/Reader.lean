import ExprLang.Session.Basic

/-!
# Reading entries in a session

An entry can be read from the inputs at once (`Draft.read`), and a session collects it line by line
(`Session.run`). Both read the same: a session reads an entry, answers it, and goes on with the
inputs behind it (`Session.run_read`).
-/

namespace ExprLang

/-- The turns in which an entry goes on: the user is asked for the next line and sees nothing. -/
def quietTurns (prompts : List String) : List Turn := prompts.map (⟨·, "", []⟩)

namespace Session

/-- The reply to what a session has read: an entry, or what stands in its place. -/
def answerReading (presenter : Presenter) (session : Session) : EntryEnd → Reply
  | .entry text => { session with draft := .empty }.answerEntry presenter text
  | .leave => session.close "Exiting vvlang REPL.\n"
  | .interrupted | .ended => session.close "\nExiting vvlang REPL.\n"

/-- A session with a draft completes its entry as the draft does, answers it, and goes on with the
inputs behind it, unless it is over. It asks for the lines with the same prompts, and answers
nothing before the last of them. -/
theorem run_read (presenter : Presenter) (session : Session) (inputs : List Input) :
    let reading := session.draft.read inputs
    let reply := session.answerReading presenter reading.result
    let later := reply.session.run presenter reading.rest
    let run := session.run presenter inputs
    ∃ asked prompt, reading.prompts = asked ++ [prompt] ∧
      run.turns = quietTurns asked ++ ⟨prompt, reply.output, reply.log⟩ ::
        (if reply.isOver then [] else later.turns) ∧
      run.unread = (if reply.isOver then reading.rest else later.unread) ∧
      { run.last with draft := .empty } = { (if reply.isOver then reply.session else later.last)
        with draft := .empty } := by
  have goes_on : ∀ (session : Session) (text : String),
      (session.answerEntry presenter text).isOver = false := by
    intro session text
    unfold answerEntry
    split <;> rfl
  induction inputs generalizing session with
  | nil => exact ⟨[], session.draft.prompt, rfl, rfl, rfl, rfl⟩
  | cons input rest ih =>
    cases input with
    | interrupt => exact ⟨[], session.draft.prompt, rfl, rfl, rfl, rfl⟩
    | ended => exact ⟨[], session.draft.prompt, rfl, rfl, rfl, rfl⟩
    | line line =>
      cases step : session.draft.add line with
      | leave =>
        have reply : session.answer presenter (.line line) =
            session.close "Exiting vvlang REPL.\n" := by rw [answer, step]
        refine ⟨[], session.draft.prompt, ?_⟩
        simp [Draft.read, step, run, reply, answerReading, close, quietTurns]
      | entry text =>
        have reply : session.answer presenter (.line line) =
            { session with draft := .empty }.answerEntry presenter text := by rw [answer, step]
        refine ⟨[], session.draft.prompt, ?_⟩
        simp [Draft.read, step, run, reply, answerReading, goes_on, quietTurns]
      | more draft =>
        -- the line is answered with nothing, and the session goes on with the longer draft
        have reply : session.answer presenter (.line line) =
            { session with draft }.reply "" := by rw [answer, step]
        obtain ⟨asked, prompt, prompts, turns, unread, last⟩ := ih { session with draft }
        have reading : session.draft.read (.line line :: rest) =
            { draft.read rest with
              prompts := session.draft.prompt :: (draft.read rest).prompts } := by
          rw [Draft.read, step]
        have running : session.run presenter (.line line :: rest) =
            { ({ session with draft } : Session).run presenter rest with
              turns := ⟨session.draft.prompt, "", []⟩ ::
                (({ session with draft } : Session).run presenter rest).turns } := by
          rw [run, reply]
          rfl
        refine ⟨session.draft.prompt :: asked, prompt, ?_⟩
        rw [reading, running]
        dsimp only at prompts turns unread last ⊢
        rw [prompts, turns, unread, last]
        -- the two sessions differ in their drafts, which only matters while neither is over
        cases (draft.read rest).result <;> exact ⟨rfl, rfl, rfl, rfl⟩

end Session

end ExprLang
