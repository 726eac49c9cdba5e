import ExprLang.Proofs.Account.Source
import ExprLang.Proofs.Blame.Run

/-!
# The diagnostics of a source

Diagnostics come in the order of the source, and each stands on a token of it that its wording
complains about (`parse_blames`): whatever order faults are found, recorded and thrown again in,
nothing is reported behind something later, and nothing about a token that is not there.
-/

namespace ExprLang

/-! ## Wordings -/

/-- A message complains about a lexeme, in one of the wordings of the parser. -/
def Lexeme.Complaint (lexeme : Lexeme) (message : String) : Prop :=
  message = "no prefix parse function for " ++ lexeme.described ∨
    (∃ wanted ∈ Cause.names, message = "expected " ++ wanted ++ ", found " ++ lexeme.described) ∨
    message = "could not parse `" ++ lexeme.text ++ "` as integer" ∨
    message = "expression nested too deeply" ∨ message = "block nested too deeply"

/-- The wording of a cause complains about the lexeme that it blames. -/
theorem Cause.Blames.complaint {lexeme : Lexeme} {cause : Cause} (blames : cause.Blames lexeme) :
    lexeme.Complaint cause.message := by
  cases blames with
  | missingOperand => exact .inl rfl
  | expected known => exact .inr (.inl ⟨_, known, rfl⟩)
  | unreadableInteger => exact .inr (.inr (.inl rfl))
  | deepExpression => exact .inr (.inr (.inr (.inl rfl)))
  | deepBlock => exact .inr (.inr (.inr (.inr rfl)))

/-! ## Places -/

namespace TokenStream

variable {stream : TokenStream} {left right : Nat}

/-- What a stream is looked at for is a token of it, the end included. -/
theorem get_mem (stream : TokenStream) (index : Nat) : stream.get index ∈ stream.toList :=
  List.mem_of_getElem? (stream.toList_getElem? index)

/-- Where the positions of a stream rise, looking further behind leads no further back. -/
theorem get_rising (rising : (stream.toList.map (·.position)).Pairwise Position.Before)
    (le : left ≤ right) :
    (stream.get left).position.Before (stream.get right).position ∨
      (stream.get left).position = (stream.get right).position := by
  by_cases same : min left stream.upcoming.length = min right stream.upcoming.length
  · right
    have here := stream.toList_getElem? left
    rw [same, stream.toList_getElem? right] at here
    rw [Option.some.inj here]
  · left
    rw [List.pairwise_map, List.pairwise_iff_getElem] at rising
    obtain ⟨inside, here⟩ := List.getElem?_eq_some_iff.mp (stream.toList_getElem? left)
    obtain ⟨behind, there⟩ := List.getElem?_eq_some_iff.mp (stream.toList_getElem? right)
    rw [← here, ← there]
    exact rising _ _ inside behind (by omega)

end TokenStream

/-! ## Diagnostics -/

namespace Blamed

variable {token : Nat → Token} {bound : Nat} {diagnostics : List Diagnostic}

/-- Each diagnostic blames a token. -/
theorem blames (blamed : Blamed token bound diagnostics) :
    ∀ diagnostic ∈ diagnostics, ∃ place, diagnostic.Blames (token place) := by
  obtain ⟨places, fits, -⟩ := blamed
  induction fits with
  | nil => exact nofun
  | cons blames _ ih =>
    intro diagnostic found
    rcases List.mem_cons.mp found with rfl | found
    · exact ⟨_, blames⟩
    · exact ih diagnostic found

/-- Diagnostics that blame the tokens of a stream in its order stand in the order of the
positions. -/
theorem ordered {stream : TokenStream} (blamed : Blamed stream.get bound diagnostics)
    (rising : (stream.toList.map (·.position)).Pairwise Position.Before) :
    (diagnostics.map (·.position)).Pairwise fun left right => left.Before right ∨ left = right := by
  obtain ⟨places, fits, below⟩ := blamed
  have same : diagnostics.map (·.position) =
      places.map fun place => (stream.get place).position := by
    rw [← List.forall₂_eq_eq_eq, List.forall₂_map_left_iff, List.forall₂_map_right_iff]
    exact fits.imp fun _ _ blames => blames.place
  rw [same, List.pairwise_map]
  have inside := (List.pairwise_append.mp below).1
  exact inside.imp fun le => TokenStream.get_rising rising le

end Blamed

namespace Parser

/-- Parsing a source blames its tokens in their order. -/
theorem parse_blamed {source : String} (nonempty : source ≠ "") {parsed : Parsed}
    (ran : parse source = .ok parsed) :
    ∃ bound, Blamed (sourceStream source).get bound parsed.diagnostics := by
  obtain ⟨found, last, loops, rfl⟩ := parse_loops nonempty ran
  have looped :=
    program_loop_eq (ofRoom_forward maxNesting) (State.ofText_outermost source).ended loops
  have start : State.Blamed (State.ofText source) 0
      (State.ofText source).diagnostics.toList (State.ofText source) := by
    have none_recorded : (State.ofText source).diagnostics = #[] := State.ofStream_diagnostics _
    rw [none_recorded]
    exact ⟨0, .refl _, .nil _ _⟩
  have ended := program_blames (ofRoom_blames maxNesting) #[] (State.ofText source) start
  rw [looped] at ended
  obtain ⟨passed, -, blamed⟩ := ended
  have tokens : (State.ofText source).token = (sourceStream source).get :=
    funext (State.ofText_token source)
  rw [tokens] at blamed
  exact ⟨_, blamed⟩

/-- Diagnostics come in source order and stand on tokens. For a source that is not empty, their
positions never go back, and each is the position of a token of the source, the end included, which
the message complains about. -/
theorem parse_blames {source : String} (nonempty : source ≠ "") :
    ∃ parsed tokens, parse source = .ok parsed ∧ tokenize source false = .ok tokens ∧
      (parsed.diagnostics.map (·.position)).Pairwise
        (fun left right => left.Before right ∨ left = right) ∧
      ∀ diagnostic ∈ parsed.diagnostics, ∃ token ∈ tokens,
        diagnostic.position = token.position ∧ token.Complaint diagnostic.message := by
  have ran := parse_eq nonempty
  obtain ⟨bound, blamed⟩ := parse_blamed nonempty ran
  refine ⟨_, _, ran, tokenize_eq nonempty, blamed.ordered (sourceStream_rising source), ?_⟩
  intro diagnostic found
  obtain ⟨place, blames⟩ := blamed.blames diagnostic found
  exact ⟨_, TokenStream.get_mem _ place, blames.place, blames.cause.complaint⟩

/-- Two tokens that are blamed twice each: a semicolon for the operand and for the parenthesis that
are missing in front of it, and the end of the source for a name and for the brace of a block. -/
theorem parse_blames_twice :
    "let x = (1 + ; fn() \x7b let" ≠ "" ∧
    ∃ parsed tokens, parse "let x = (1 + ; fn() \x7b let" = .ok parsed ∧
      tokenize "let x = (1 + ; fn() \x7b let" false = .ok tokens ∧
      (parsed.diagnostics.map (·.position)).Pairwise
        (fun left right => left.Before right ∨ left = right) ∧
      ∀ diagnostic ∈ parsed.diagnostics, ∃ token ∈ tokens,
        diagnostic.position = token.position ∧ token.Complaint diagnostic.message :=
  ⟨by decide, parse_blames (by decide)⟩

end Parser

end ExprLang
